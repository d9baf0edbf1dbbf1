import MessageBroker.Proofs.QueueCounts

/-!
# Queues without faults

Queues that start empty stay sound through whatever happens to them, even where
ids come twice and whatever returned messages carry.  In a sound keyspace every
record of a queue reads, and no delivery lacks a part.  So dequeues and
acknowledgements always succeed, and as long as a counter lasts, a sweep does as
well, and an enqueue fails for nothing but a field too long for its length.

A sweep changes the keyspace under its own list.  The deliveries that it has not
come to yet stay whole, so it never drops one whose key or expiry does not read,
and never makes up a message for a body that is missing.
-/

namespace MessageBroker

namespace Queue

variable {keyspace : Keyspace} {settings : Settings}

/-! ## Records -/

/-- Every record of a queue reads, the parts of a delivery come together, and no
message waits at a generation that is still to come. -/
structure Consistent (keyspace : Keyspace) : Prop where
  /-- A delivery has an expiry exactly if it has a body. -/
  paired : ∀ queue id, (keyspace.get? (Key.expiry queue id).bytes).isSome ↔
    (keyspace.get? (Key.body queue id).bytes).isSome
  /-- An expiry is eight bytes. -/
  expiry : ∀ queue id value,
    keyspace.get? (Key.expiry queue id).bytes = some value → value.length = 8
  /-- A body reads as a message of the delivery's id. -/
  body : ∀ queue id value,
    keyspace.get? (Key.body queue id).bytes = some value →
    ∃ message, message.id = id ∧
      ∀ operation, Record.toMessage operation value = .ok message
  /-- A waiting entry reads as a message with an id. -/
  pending : ∀ queue generation value,
    keyspace.get? (Key.pending queue generation).bytes = some value →
    ∃ message, message.id ≠ .nil ∧
      ∀ operation, Record.toMessage operation value = .ok message
  /-- A waiting entry lies below the counter of its queue. -/
  below : ∀ queue generation value,
    keyspace.get? (Key.pending queue generation).bytes = some value →
    ∃ next,
      keyspace.get? (Key.nextGeneration queue).bytes =
        some (Record.ofCounter next) ∧
      generation < next

theorem Sound.consistent (sound : Sound keyspace) : Consistent keyspace where
  paired queue id := by rw [sound.paired]
  expiry queue id value held := by
    rcases sound.expiry queue id value held with ⟨time, rfl⟩
    exact Bytes.length_bigEndian 8 _
  body queue id value held := by
    rcases sound.body queue id value held with ⟨message, stored, named, _⟩
    exact ⟨message, named, Record.toMessage_ofMessage stored⟩
  pending queue generation value held := by
    rcases sound.pending queue generation value held with
      ⟨⟨message, stored, named⟩, _⟩
    exact ⟨message, named, Record.toMessage_ofMessage stored⟩
  below queue generation value held :=
    (sound.pending queue generation value held).2

/-! ## Answers -/

/-- The counters last for an operation: none of them is at its greatest value
when it gives out a generation. -/
def Operation.HasRoom
    (settings : Settings)
    (keyspace : Keyspace) :
    Operation → Prop
  | .enqueue _ queue _ => generation keyspace queue + 1 < UInt64.size
  | .sweep now => ∀ queue, generation keyspace queue +
      ((contents keyspace).given settings now queue
        (deliveries keyspace)).length < UInt64.size
  | _ => True

/-- An enqueue of a message that has no byte form, and the fault that says
why. -/
def Operation.IsUnencodable (operation : Operation) (fault : Error) : Prop :=
  ∃ fresh queue message oversized, operation = .enqueue fresh queue message ∧
    message.encode = .error oversized ∧ fault = .ofOversized oversized

/-- Where counters last, nothing is refused but an enqueue of a message without
a byte form. -/
theorem Sound.refused_iff
    (sound : Sound keyspace)
    {operation : Operation}
    (room : operation.HasRoom settings keyspace)
    (fault : Error) :
    (Queue.serve settings keyspace operation).1 = .refused fault ↔
      operation.IsUnencodable fault := by
  cases operation with
  | enqueue fresh queue message =>
      cases checked : message.checkLengths with
      | ok =>
          rcases sound.enqueue_succeeds fresh
            (Message.checkLengths_eq_ok_iff.1 checked) room with
            ⟨enqueued, done⟩
          simp [Queue.serve, done, Operation.IsUnencodable,
            Message.encode_eq_error_iff_checkLengths, checked]
      | error oversized =>
          have unfit := Message.encode_eq_error_iff_checkLengths.2 checked
          simp [Queue.serve, enqueue_eq_error checked, Operation.IsUnencodable,
            unfit, eq_comm]
  | dequeue queue now =>
      rcases sound.dequeue settings queue now with ⟨result, done, _⟩
      simp [Queue.serve, done, Operation.IsUnencodable]
  | acknowledge queue id => simp [Queue.serve, Operation.IsUnencodable]
  | sweep now =>
      rcases sound.requeueExpired_succeeds settings now room with
        ⟨sweep, done, _⟩
      simp [Queue.serve, done, Operation.IsUnencodable]

/-! ## Sweeps under way -/

/-- An entry that a sweep comes to is a delivery that lacks no part: its key and
its expiry read, and its body is there and reads as a message of its id. -/
def IsWhole (keyspace : Keyspace) (entry : Bytes × Bytes) : Prop :=
  ∃ queue id time body message, Key.readExpiry? entry.1 = some (queue, id) ∧
    Record.toCounter "requeue" entry.2 = .ok time ∧
    keyspace.get? (Key.body queue id).bytes = some body ∧
    Record.toMessage "requeue" body = .ok message ∧ message.id = id

theorem Sound.isWhole
    (sound : Sound keyspace)
    {entries : List (Bytes × Bytes)}
    (listed : Listed keyspace entries)
    {entry : Bytes × Bytes}
    (inside : entry ∈ entries) :
    IsWhole keyspace entry := by
  rcases entry with ⟨place, content⟩
  rcases listed _ inside with ⟨queue, id, free, rfl, held⟩
  rcases sound.exists_delivered held with
    ⟨time, message, body, rfl, found, stored, named, _⟩
  exact ⟨queue, id, time, body, message, Key.readExpiry?_expiry free id,
    Record.toCounter_ofCounter _ time, found,
    Record.toMessage_ofMessage stored _, named⟩

/-- A sweep that has come to an entry finds it whole, whatever it has returned
before.  The list is as old as the sweep, but what is still ahead in it is there
as it was. -/
theorem Sound.isWhole_reached
    (sound : Sound keyspace)
    {now : UInt64}
    {front rest : List (Bytes × Bytes)}
    {entry : Bytes × Bytes}
    {reached : Sweep}
    (split : keyspace.withStem Key.expiries = front ++ entry :: rest)
    (done : front.foldlM (Sweep.visit settings now) ⟨0, keyspace⟩ =
      .ok reached) :
    IsWhole reached.keyspace entry := by
  have ordered := Keyspace.withStem_ordered keyspace Key.expiries
  have listed := sound.listed
  rw [split] at ordered listed
  rcases Sound.foldlM_visit settings now ordered sound listed done with
    ⟨after, left, _⟩
  exact after.isWhole left List.mem_cons_self

namespace History

/-- After any operations on queues of names without colons, every record of a
queue reads, and the records fit each other.  Where counters last, the next
operation is refused only if it is an enqueue of a message without a byte form,
and a sweep finds every delivery that it comes to whole. -/
theorem queues_without_faults
    (settings : Settings)
    (operations : List Operation)
    (plain : ∀ operation ∈ operations, operation.IsPlain) :
    let keyspace := (run settings {} operations).keyspace
    Consistent keyspace ∧
    (∀ operation : Operation, operation.HasRoom settings keyspace →
      ∀ fault, (Queue.serve settings keyspace operation).1 = .refused fault ↔
        operation.IsUnencodable fault) ∧
    ∀ now front entry rest reached,
      keyspace.withStem Key.expiries = front ++ entry :: rest →
      front.foldlM (Sweep.visit settings now) ⟨0, keyspace⟩ = .ok reached →
      IsWhole reached.keyspace entry := by
  intro keyspace
  have sound : Queue.Sound keyspace := queues_run .empty plain
  constructor
  case left => exact sound.consistent
  case right =>
    constructor
    case left => exact fun _ room => sound.refused_iff room
    case right => exact fun _ _ _ _ _ => sound.isWhole_reached

/-- Two messages are handed out, and the first one's delivery expires before the
second one's. -/
def overlapping : List Operation :=
  [.enqueue (.numbered 0 0) "q" { topic := "q", payload := [1] },
    .enqueue (.numbered 0 1) "q" { topic := "q", payload := [2] },
    .dequeue "q" 0, .dequeue "q" 1]

theorem queues_without_faults_overlapping :
    let keyspace := (run {} {} overlapping).keyspace
    let third : Operation := .enqueue (.numbered 0 2) "q" { topic := "q" }
    let first : Bytes × Bytes :=
      ((Key.expiry "q" (FreshId.numbered 0 0).id).bytes, Record.ofCounter 30000)
    let second : Bytes × Bytes :=
      ((Key.expiry "q" (FreshId.numbered 0 1).id).bytes, Record.ofCounter 30001)
    (∀ operation ∈ overlapping, operation.IsPlain) ∧
    (∀ fault, (Queue.serve {} keyspace third).1 ≠ .refused fault) ∧
    keyspace.withStem Key.expiries = [first, second] ∧
    ∃ reached,
      [first].foldlM (Sweep.visit {} 30001) ⟨0, keyspace⟩ = .ok reached ∧
      reached.returned = 1 ∧
      IsWhole reached.keyspace second := by
  intro keyspace third first second
  have plain : ∀ operation ∈ overlapping, operation.IsPlain := by decide +kernel
  have split : keyspace.withStem Key.expiries = [first] ++ second :: [] := by
    decide +kernel
  obtain ⟨_, answers, finds⟩ := queues_without_faults {} overlapping plain
  refine ⟨plain, ?_, split, ?_⟩
  · intro fault refused
    have room : generation keyspace "q" + 1 < UInt64.size := by decide +kernel
    obtain ⟨_, _, _, _, same, unfit, _⟩ := (answers third room fault).1 refused
    obtain ⟨rfl, rfl, rfl⟩ := Operation.enqueue.inj same
    have fits : (Message.encode { topic := "q" }).toOption.isSome := by
      decide +kernel
    rw [unfit] at fits
    cases fits
  · have returned : ([first].foldlM (Sweep.visit {} 30001)
            ⟨0, keyspace⟩).toOption.map Sweep.returned =
        some 1 := by
      decide +kernel
    obtain ⟨reached, succeeds, one⟩ := Option.map_eq_some_iff.1 returned
    have done := eq_ok_of_toOption succeeds
    exact ⟨reached, done, one, finds 30001 [first] second [] reached split done⟩

end History

end Queue

end MessageBroker
