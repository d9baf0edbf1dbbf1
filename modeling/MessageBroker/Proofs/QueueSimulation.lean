import MessageBroker.Proofs.QueueGenerations
import MessageBroker.Proofs.QueueMachine

/-!
# Keyspaces that a machine describes

A machine describes a keyspace when every queue has the messages of its line
waiting, the deliveries of its line with their expiries saturated, and its
line's count as next generation.  An operation on one queue of a described
keyspace does to it what the machine does to one line.
-/

namespace MessageBroker

namespace Queue

/-- A time as it is stored: the greatest one stands for all that are later. -/
def saturated (time : Nat) : UInt64 :=
  if time < UInt64.size then .ofNat time else endOfTime

theorem le_saturated_iff
    {now : UInt64}
    {time : Nat} :
    now ≤ saturated time ↔ ¬ time < now.toNat := by
  have bound : now.toNat < UInt64.size := now.toNat_lt
  rw [UInt64.le_iff_toNat_le, Nat.not_lt, saturated]
  split
  · rename_i room
    rw [UInt64.toNat_ofNat_of_lt' room]
  · rename_i late
    have top : endOfTime.toNat = UInt64.size - 1 := rfl
    rw [top]
    omega

/-- A delivery as it is stored. -/
def storedDelivery (delivery : Nat × Message) : UInt64 × Message :=
  (saturated delivery.1, delivery.2)

namespace Machine

/-- The queues of a sound keyspace are the lines of the machine. -/
structure Describes (machine : Machine) (keyspace : Keyspace) : Prop where
  sound : Sound keyspace
  waiting : ∀ queue, Queue.waiting keyspace queue = (machine.line queue).pending
  delivered : ∀ queue id, delivered? keyspace queue id =
    ((machine.line queue).inFlight.get? id).map storedDelivery
  generation : ∀ queue,
    Queue.generation keyspace queue = (machine.line queue).entered

theorem Describes.empty : Describes .empty .empty where
  sound := .empty
  waiting _ := rfl
  delivered _ _ := rfl
  generation _ := rfl

variable {machine : Machine} {keyspace after : Keyspace} {settings : Settings}

/-! ## Operations on one queue -/

/-- A change of one queue is a change of one line. -/
theorem Describes.insert
    (describes : machine.Describes keyspace)
    (sound : Sound after)
    {queue : String}
    {line : Line}
    (waits : ∀ sought, Queue.waiting after sought =
      if sought = queue then line.pending else Queue.waiting keyspace sought)
    (delivers : ∀ sought id, delivered? after sought id =
      if sought = queue then (line.inFlight.get? id).map storedDelivery
      else delivered? keyspace sought id)
    (counts : ∀ sought, Queue.generation after sought =
      if sought = queue then line.entered
      else Queue.generation keyspace sought) :
    Describes (machine.insert queue line) after := by
  refine ⟨sound, fun sought => ?_, fun sought id => ?_, fun sought => ?_⟩
  · rw [waits, line_insert, describes.waiting]
    split <;> rfl
  · rw [delivers, line_insert, describes.delivered]
    split <;> rfl
  · rw [counts, line_insert, describes.generation]
    split <;> rfl

theorem Describes.enqueue
    (describes : machine.Describes keyspace)
    (fresh : FreshId)
    {queue : String}
    (free : ':' ∉ queue.toList)
    {message : Message}
    (fits : message.Fits)
    (room : (machine.line queue).entered + 1 < UInt64.size) :
    ∃ enqueued, Queue.enqueue keyspace fresh queue message = .ok enqueued ∧
      enqueued.id = (message.identified fresh).id ∧
      Describes
        (machine.insert queue
          ((machine.line queue).put (message.identified fresh)))
        enqueued.keyspace := by
  obtain ⟨enqueued, done⟩ :=
    describes.sound.enqueue_succeeds fresh fits
      (describes.generation queue ▸ room)
  obtain ⟨id, sound, changed⟩ := describes.sound.enqueue free done
  have waits := congrArg Contents.waiting changed
  have delivers := congrArg Contents.delivered changed
  refine ⟨enqueued, done, id, describes.insert sound ?_ ?_ ?_⟩
  · intro sought
    refine (congrFun waits sought).trans ?_
    simp only [Contents.put, contents]
    split
    · rename_i same
      rw [same, describes.waiting]
      rfl
    · rfl
  · intro sought id
    refine (congrFun (congrFun delivers sought) id).trans ?_
    split
    · rename_i same
      subst same
      exact describes.delivered sought id
    · rfl
  · intro sought
    rw [describes.sound.generation_enqueue free done]
    split
    · rename_i same
      rw [same, describes.generation]
      rfl
    · rfl

/-- A delivery from a queue is one from its line. -/
theorem Describes.delivered_handOut
    (describes : machine.Describes keyspace)
    (settings : Settings)
    (queue : String)
    (now : UInt64)
    (sought : String)
    (id : MessageId) :
    ((contents keyspace).handOut queue (settings.expiry now)).delivered sought
        id =
      if sought = queue then
        (((machine.line queue).handOut
              (now.toNat + settings.visibility.millis)).inFlight.get? id).map
          storedDelivery
      else delivered? keyspace sought id := by
  have first : (contents keyspace).waiting queue =
      (machine.line queue).pending :=
    describes.waiting queue
  have before : (contents keyspace).delivered sought id =
      delivered? keyspace sought id :=
    rfl
  unfold Contents.handOut Line.handOut
  rw [first]
  by_cases same : sought = queue
  · subst same
    rw [if_pos rfl]
    cases (machine.line sought).pending with
    | nil => exact describes.delivered sought id
    | cons message rest =>
        dsimp only
        rw [OrderedMap.get?_insert, before, describes.delivered]
        by_cases here : id = message.id
        · rw [if_pos ⟨rfl, here⟩, if_pos here]
          rfl
        · rw [if_neg fun both => here both.2, if_neg here]
  · rw [if_neg same]
    cases (machine.line queue).pending with
    | nil => rfl
    | cons message rest => exact if_neg fun both => same both.1

theorem Describes.dequeue
    (describes : machine.Describes keyspace)
    (settings : Settings)
    (queue : String)
    (now : UInt64) :
    ∃ result, Queue.dequeue keyspace settings queue now = .ok result ∧
      result.message = (machine.line queue).pending.head? ∧
      Describes
        (machine.insert queue
          ((machine.line queue).handOut
            (now.toNat + settings.visibility.millis))) result.keyspace := by
  obtain ⟨result, done, head, sound, changed⟩ :=
    describes.sound.dequeue settings queue now
  have waits := congrArg Contents.waiting changed
  have delivers := congrArg Contents.delivered changed
  refine ⟨result, done, describes.waiting queue ▸ head,
    describes.insert sound ?_ ?_ ?_⟩
  · intro sought
    refine (congrFun waits sought).trans ?_
    rw [Contents.waiting_handOut, Line.pending_handOut, ← describes.waiting]
    rfl
  · intro sought id
    exact (congrFun (congrFun delivers sought) id).trans
      (describes.delivered_handOut settings queue now sought id)
  · intro sought
    rw [describes.sound.generation_dequeue done]
    split
    · rename_i same
      rw [same, describes.generation, Line.entered_handOut]
    · rfl

theorem Describes.acknowledge
    (describes : machine.Describes keyspace)
    {queue : String}
    (free : ':' ∉ queue.toList)
    (id : MessageId) :
    Describes (machine.insert queue ((machine.line queue).settle id))
      (Queue.acknowledge keyspace queue id) := by
  have changed : contents (Queue.acknowledge keyspace queue id) =
      (contents keyspace).settle queue id := contents_acknowledge free id
  have waits := congrArg Contents.waiting changed
  have delivers := congrArg Contents.delivered changed
  refine describes.insert (describes.sound.acknowledge free id) ?_ ?_ ?_
  · intro sought
    refine (congrFun waits sought).trans ?_
    split
    · rename_i same
      rw [same]
      exact describes.waiting queue
    · rfl
  · intro sought other
    refine (congrFun (congrFun delivers sought) other).trans ?_
    simp only [Contents.settle, contents, Line.settle]
    by_cases same : sought = queue
    · subst same
      rw [if_pos rfl, OrderedMap.get?_erase, describes.delivered]
      by_cases here : other = id
      · simp [here]
      · simp [here]
    · rw [if_neg fun both => same both.1, if_neg same]
  · intro sought
    rw [generation_acknowledge free]
    split
    · rename_i same
      rw [same, describes.generation]
      rfl
    · rfl

end Machine

end Queue

end MessageBroker
