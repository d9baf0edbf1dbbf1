import Mathlib.Algebra.GroupWithZero.Nat
import MessageBroker.Proofs.IdOrder
import MessageBroker.Proofs.QueueHistory

/-!
# An abstract queue machine

The machine keeps for every queue a list of waiting messages and a map of
deliveries by id, each with the time at which it expires, a number without
bound.  It knows no keys, no bytes and no counters.  It refuses nothing but a
message with a field too long for its length.

It also counts how many messages ever came to wait in a queue, which limits how
long a queue with numbered generations can go on.
-/

namespace MessageBroker

instance : StrictOrder String where
  irrefl := String.lt_irrefl
  trans := String.lt_trans
  trichotomy first second := by
    by_cases less : first < second
    · exact .inl less
    · by_cases more : second < first
      · exact .inr (.inr more)
      · exact .inr
          (.inl (String.le_antisymm (String.not_lt.1 more)
            (String.not_lt.1 less)))

namespace OrderedMap

variable {key value other : Type} [LT key]

/-- The entries that pass a test. -/
def filter
    (map : OrderedMap key value)
    (passes : key × value → Bool) :
    OrderedMap key value :=
  ⟨map.entries.filter passes, map.ordered.filter passes⟩

/-- The map with all values changed. -/
def mapValues
    (map : OrderedMap key value)
    (change : value → other) :
    OrderedMap key other :=
  ⟨map.entries.map fun entry =>
    (entry.1, change entry.2), List.pairwise_map.2 map.ordered⟩

variable [DecidableEq key]

theorem get?_filter
    [StrictOrder key]
    (map : OrderedMap key value)
    (passes : key × value → Bool)
    (place : key) :
    (map.filter passes).get? place =
      (map.get? place).filter fun content => passes (place, content) := by
  apply Option.ext
  intro content
  rw [Option.filter_eq_some_iff, ← mem_entries_iff, ← mem_entries_iff, filter,
    List.mem_filter]

theorem get?_mapValues
    (map : OrderedMap key value)
    (change : value → other)
    (place : key) :
    (map.mapValues change).get? place = (map.get? place).map change := by
  obtain ⟨entries, ordered⟩ := map
  simp only [get?, mapValues]
  clear ordered
  induction entries with
  | nil => rfl
  | cons entry rest step =>
      simp only [List.map_cons, find?]
      split
      · rfl
      · exact step

end OrderedMap

namespace Queue

/-! ## One queue -/

/-- A queue of the machine. -/
structure Line where
  /-- The messages that wait, first one first. -/
  pending : List Message := []
  /-- The deliveries by id, each with its expiry. -/
  inFlight : OrderedMap MessageId (Nat × Message) := .empty
  /-- How many messages ever came to wait. -/
  entered : Nat := 0

namespace Line

/-- A message comes last. -/
def put (line : Line) (message : Message) : Line :=
  { line with pending := line.pending ++ [message], entered :=
    line.entered + 1 }

/-- The first message is delivered until a time. -/
def handOut (line : Line) (expiry : Nat) : Line :=
  match line.pending with
  | [] => line
  | message :: rest =>
      { line with
        pending := rest
        inFlight := line.inFlight.insert message.id (expiry, message) }

theorem pending_handOut
    (line : Line)
    (expiry : Nat) :
    (line.handOut expiry).pending = line.pending.tail := by
  unfold handOut
  split
  · rename_i nothing
    rw [nothing, List.tail_nil]
  · rename_i waiting
    rw [waiting, List.tail_cons]

theorem entered_handOut
    (line : Line)
    (expiry : Nat) :
    (line.handOut expiry).entered = line.entered := by
  unfold handOut
  split <;> rfl

/-- A delivery ends. -/
def settle (line : Line) (id : MessageId) : Line :=
  { line with inFlight := line.inFlight.erase id }

/-- The deliveries whose time is past, by id. -/
def expired (line : Line) (now : Nat) : List (MessageId × Nat × Message) :=
  line.inFlight.entries.filter fun delivery => decide (delivery.2.1 < now)

/-- The deliveries whose time is past come last, by id. -/
def sweep (settings : Settings) (now : Nat) (line : Line) : Line where
  pending :=
    line.pending ++ (line.expired now).map fun delivery =>
      settings.returned delivery.2.2
  inFlight := line.inFlight.filter fun delivery => decide (¬ delivery.2.1 < now)
  entered := line.entered + (line.expired now).length

end Line

/-! ## All queues -/

/-- What an operation tells its caller. -/
inductive Answer where
  /-- The id under which a message waits. -/
  | enqueued (id : MessageId)
  /-- The message that is handed out, if there is one. -/
  | delivered (message : Option Message)
  /-- The delivery has ended. -/
  | acknowledged
  /-- How many deliveries a sweep returned. -/
  | swept (returned : Nat)
  /-- Nothing was done. -/
  | refused (error : Error)

/-- The queues by name. -/
abbrev Machine := OrderedMap String Line

namespace Machine

/-- The queue of a name, an empty one where there is none. -/
def line (machine : Machine) (queue : String) : Line :=
  (machine.get? queue).getD {}

/-- One operation. -/
def perform
    (settings : Settings)
    (machine : Machine) :
    Operation → Answer × Machine
  | .enqueue fresh queue message =>
      match message.checkLengths with
      | .ok () =>
          let message := message.identified fresh
          (.enqueued message.id,
            machine.insert queue ((machine.line queue).put message))
      | .error oversized => (.refused (.ofOversized oversized), machine)
  | .dequeue queue now =>
      let line := machine.line queue
      let expiry := now.toNat + settings.visibility.millis
      (.delivered line.pending.head?,
        machine.insert queue (line.handOut expiry))
  | .acknowledge queue id =>
      (.acknowledged, machine.insert queue ((machine.line queue).settle id))
  | .sweep now =>
      let counts :=
        machine.entries.map fun entry => (entry.2.expired now.toNat).length
      (.swept counts.sum, machine.mapValues (Line.sweep settings now.toNat))

/-- No queue has seen as many messages as there are generations. -/
def HasRoom (machine : Machine) : Prop :=
  ∀ entry ∈ machine.entries, entry.2.entered < UInt64.size

instance (machine : Machine) : Decidable machine.HasRoom :=
  inferInstanceAs (Decidable (∀ entry ∈ machine.entries, _))

theorem HasRoom.entered_lt
    {machine : Machine}
    (room : machine.HasRoom)
    (queue : String) :
    (machine.line queue).entered < UInt64.size := by
  unfold line
  cases known : machine.get? queue with
  | none => exact Nat.zero_lt_succ _
  | some line => exact room _ (OrderedMap.mem_entries_iff.2 known)

theorem line_insert
    (machine : Machine)
    (queue : String)
    (line : Line)
    (sought : String) :
    Machine.line (machine.insert queue line) sought =
      if sought = queue then line else machine.line sought := by
  rw [Machine.line, OrderedMap.get?_insert]
  split <;> rfl

theorem line_sweep
    (settings : Settings)
    (machine : Machine)
    (now : Nat)
    (queue : String) :
    Machine.line (machine.mapValues (Line.sweep settings now)) queue =
      (machine.line queue).sweep settings now := by
  rw [Machine.line, OrderedMap.get?_mapValues, Machine.line]
  cases machine.get? queue <;> rfl

/-! ## Counts -/

theorem entered_insert_le
    {machine : Machine}
    {queue : String}
    {line : Line}
    (grows : (machine.line queue).entered ≤ line.entered)
    (sought : String) :
    (machine.line sought).entered ≤
      (Machine.line (machine.insert queue line) sought).entered := by
  rw [line_insert]
  split
  · rename_i same
    exact same ▸ grows
  · exact Nat.le_refl _

/-- What came to wait was counted and stays so. -/
theorem entered_perform_le
    (settings : Settings)
    (machine : Machine)
    (operation : Operation)
    (queue : String) :
    (machine.line queue).entered ≤
      ((machine.perform settings operation).2.line queue).entered := by
  cases operation with
  | enqueue fresh queue' message =>
      unfold perform
      dsimp only
      split
      · exact entered_insert_le (Nat.le_succ _) queue
      · exact Nat.le_refl _
  | dequeue queue' now =>
      exact entered_insert_le (Nat.le_of_eq (Line.entered_handOut _ _).symm)
        queue
  | acknowledge queue' id =>
      have same : (machine.line queue').entered ≤
          ((machine.line queue').settle id).entered :=
        Nat.le_refl _
      exact entered_insert_le same queue
  | sweep now =>
      unfold perform
      dsimp only
      rw [line_sweep]
      exact Nat.le_add_right _ _

end Machine

/-! ## Runs -/

/-- The answers to operations, first one first, and the state after them. -/
def trace
    {State : Type}
    (step : State → Operation → Answer × State)
    (state : State) :
    List Operation → List Answer × State
  | [] => ([], state)
  | operation :: rest =>
      let (answer, next) := step state operation
      let (answers, final) := trace step next rest
      (answer :: answers, final)

theorem Machine.entered_trace_le
    (settings : Settings)
    (machine : Machine)
    (operations : List Operation)
    (queue : String) :
    (machine.line queue).entered ≤
      ((trace (Machine.perform settings) machine operations).2.line
        queue).entered := by
  induction operations generalizing machine with
  | nil => exact Nat.le_refl _
  | cons operation rest step =>
      exact Nat.le_trans (entered_perform_le settings machine operation queue)
        (step _)

end Queue

end MessageBroker
