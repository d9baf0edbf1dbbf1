import MessageBroker.Proofs.KeyOrder
import MessageBroker.Proofs.MessageForm
import MessageBroker.Proofs.Scans
import MessageBroker.Queue

/-!
# What queues hold

A queue is known by its contents: the messages that wait, in order, and the
deliveries by id, each with the time at which it expires.  In a sound keyspace
the contents are all there is: every waiting entry reads as a message and lies
below its queue's next generation, and a delivery has both its expiry and its
body, which is a message of the delivery's id.
-/

namespace MessageBroker

namespace Queue

/-- The waiting messages of all queues, first one first, and their
deliveries. -/
structure Contents where
  /-- The messages that wait. -/
  waiting : String → List Message
  /-- The deliveries by id, each with its expiry. -/
  delivered : String → MessageId → Option (UInt64 × Message)

/-- The messages that wait in a queue. -/
def waiting (keyspace : Keyspace) (queue : String) : List Message :=
  (keyspace.withStem (Key.pendingOf queue)).filterMap fun entry =>
    (Record.toMessage "dequeue" entry.2).toOption

/-- The delivery of a queue under an id. -/
def delivered?
    (keyspace : Keyspace)
    (queue : String)
    (id : MessageId) :
    Option (UInt64 × Message) := do
  let expiry ← keyspace.get? (Key.expiry queue id).bytes
  let body ← keyspace.get? (Key.body queue id).bytes
  return (← (Record.toCounter "requeue" expiry).toOption,
    ← (Record.toMessage "requeue" body).toOption)

/-- What the queues of a keyspace hold. -/
def contents (keyspace : Keyspace) : Contents :=
  ⟨waiting keyspace, delivered? keyspace⟩

/-- Every record of a queue reads, and the records of a queue fit each other. -/
structure Sound (keyspace : Keyspace) : Prop where
  legible : keyspace.Legible
  counter : ∀ queue value,
    keyspace.get? (Key.nextGeneration queue).bytes = some value →
    ∃ next, value = Record.ofCounter next
  pending : ∀ queue generation value,
    keyspace.get? (Key.pending queue generation).bytes = some value →
    (∃ message, Record.ofMessage message = .ok value ∧ message.id ≠ .nil) ∧
    ∃ next,
      keyspace.get? (Key.nextGeneration queue).bytes =
        some (Record.ofCounter next) ∧
      generation < next
  paired : ∀ queue id, (keyspace.get? (Key.expiry queue id).bytes).isSome =
    (keyspace.get? (Key.body queue id).bytes).isSome
  expiry : ∀ queue id value,
    keyspace.get? (Key.expiry queue id).bytes = some value →
    ∃ time, value = Record.ofCounter time
  body : ∀ queue id value,
    keyspace.get? (Key.body queue id).bytes = some value →
    ∃ message, Record.ofMessage message = .ok value ∧
      message.id = id ∧
      id ≠ .nil

theorem Sound.empty : Sound .empty where
  legible := .empty
  counter := by
    intro queue value found
    cases found
  pending := by
    intro queue generation value found
    cases found
  paired _ _ := rfl
  expiry := by
    intro queue id value found
    cases found
  body := by
    intro queue id value found
    cases found

variable {keyspace : Keyspace}

/-! ## Generations -/

/-- The next generation of a queue can be read and lies above all that are in
use. -/
theorem Sound.counter_eq
    (sound : Sound keyspace)
    (operation queue : String) :
    ∃ next, keyspace.counter operation (.nextGeneration queue) = .ok next ∧
      ∀ generation value,
        keyspace.get? (Key.pending queue generation).bytes = some value →
        generation < next := by
  rw [Keyspace.counter, Keyspace.counter?]
  cases held : keyspace.get? (Key.nextGeneration queue).bytes with
  | none =>
      refine ⟨0, rfl, fun generation value found => ?_⟩
      obtain ⟨_, next, held', _⟩ := sound.pending queue generation value found
      rw [held] at held'
      cases held'
  | some content =>
      obtain ⟨next, rfl⟩ := sound.counter queue content held
      refine ⟨next, ?_, fun generation value found => ?_⟩
      · simp only [Record.toCounter_ofCounter]
        rfl
      · obtain ⟨_, next', held', below⟩ :=
          sound.pending queue generation value found
        rw [held, Option.some.injEq, Record.ofCounter_inj] at held'
        exact held' ▸ below

/-! ## Waiting messages -/

/-- The entries that a queue's scan shows are its waiting messages. -/
theorem Sound.mem_waiting
    (sound : Sound keyspace)
    {queue : String}
    {place content : Bytes}
    (inside : (place, content) ∈ keyspace.withStem (Key.pendingOf queue)) :
    ∃ generation message, place = (Key.pending queue generation).bytes ∧
      (Key.pending queue generation).IsPlain ∧
      keyspace.get? (Key.pending queue generation).bytes = some content ∧
      Record.ofMessage message = .ok content ∧
      message.id ≠ .nil := by
  obtain ⟨stemmed, found⟩ := Keyspace.mem_withStem_iff.1 inside
  obtain ⟨key, plain, rfl⟩ := sound.legible place content found
  obtain ⟨generation, rfl⟩ := (Key.pendingOf_front_iff fun _ => plain).1 stemmed
  obtain ⟨⟨message, stored, named⟩, _⟩ :=
    sound.pending queue generation content found
  exact ⟨generation, message, rfl, plain, found, stored, named⟩

theorem read_eq_some
    {message : Message}
    {content : Bytes}
    (operation : String)
    (stored : Record.ofMessage message = .ok content) :
    (Record.toMessage operation content).toOption = some message := by
  rw [Record.toMessage_ofMessage stored]
  rfl

/-- Every waiting entry counts as one message. -/
theorem Sound.length_waiting
    (sound : Sound keyspace)
    (queue : String) :
    (waiting keyspace queue).length = pendingCount keyspace queue := by
  rw [waiting, pendingCount, List.length_filterMap_eq_countP,
    List.countP_eq_length]
  rintro ⟨place, content⟩ inside
  obtain ⟨_, message, _, _, _, stored, _⟩ := sound.mem_waiting inside
  rw [read_eq_some "dequeue" stored]
  rfl

theorem waiting_insert_other
    {key : Key}
    (plain : key.IsPlain)
    {queue : String}
    (other : ∀ generation, key ≠ .pending queue generation)
    (content : Bytes) :
    waiting (keyspace.insert key.bytes content) queue =
      waiting keyspace queue := by
  rw [waiting, Keyspace.withStem_insert_other, waiting]
  rw [Key.pendingOf_front_iff fun _ => plain]
  rintro ⟨generation, same⟩
  exact other generation same

theorem waiting_erase_other
    {key : Key}
    (plain : key.IsPlain)
    {queue : String}
    (other : ∀ generation, key ≠ .pending queue generation) :
    waiting (keyspace.erase key.bytes) queue = waiting keyspace queue := by
  rw [waiting, Keyspace.withStem_erase_other, waiting]
  rw [Key.pendingOf_front_iff fun _ => plain]
  rintro ⟨generation, same⟩
  exact other generation same

/-! ## Deliveries -/

/-- A delivery has an expiry and a body, the message of its id. -/
theorem Sound.delivered?_eq_some_iff
    (sound : Sound keyspace)
    {queue : String}
    {id : MessageId}
    {time : UInt64}
    {message : Message} :
    delivered? keyspace queue id = some (time, message) ↔
      keyspace.get? (Key.expiry queue id).bytes = some (Record.ofCounter time) ∧
      ∃ content, keyspace.get? (Key.body queue id).bytes = some content ∧
        Record.ofMessage message = .ok content ∧
        message.id = id ∧
        id ≠ .nil := by
  constructor
  · intro delivered
    obtain ⟨timed, foundTime, delivered⟩ := Option.bind_eq_some_iff.1 delivered
    obtain ⟨content, foundBody, delivered⟩ :=
      Option.bind_eq_some_iff.1 delivered
    obtain ⟨time', read, delivered⟩ := Option.bind_eq_some_iff.1 delivered
    obtain ⟨message', read', delivered⟩ := Option.bind_eq_some_iff.1 delivered
    cases delivered
    obtain ⟨time'', rfl⟩ := sound.expiry queue id timed foundTime
    obtain ⟨message'', stored, named, some⟩ :=
      sound.body queue id content foundBody
    rw [Record.toCounter_ofCounter] at read
    rw [read_eq_some "requeue" stored] at read'
    cases read
    cases read'
    exact ⟨foundTime, content, foundBody, stored, named, some⟩
  · rintro ⟨foundTime, content, foundBody, stored, _⟩
    rw [delivered?, foundTime, foundBody, Option.bind_eq_bind, Option.bind_some,
      Option.bind_eq_bind, Option.bind_some, Record.toCounter_ofCounter,
      read_eq_some "requeue" stored]
    rfl

/-- Every expiry is that of a delivery. -/
theorem Sound.exists_delivered
    (sound : Sound keyspace)
    {queue : String}
    {id : MessageId}
    {content : Bytes}
    (held : keyspace.get? (Key.expiry queue id).bytes = some content) :
    ∃ time message body, content = Record.ofCounter time ∧
      keyspace.get? (Key.body queue id).bytes = some body ∧
      Record.ofMessage message = .ok body ∧
      message.id = id ∧
      id ≠ .nil ∧
      delivered? keyspace queue id = some (time, message) := by
  obtain ⟨time, rfl⟩ := sound.expiry queue id content held
  have paired := sound.paired queue id
  rw [held] at paired
  obtain ⟨body, foundBody⟩ := Option.isSome_iff_exists.1 paired.symm
  obtain ⟨message, stored, same, named⟩ := sound.body queue id body foundBody
  have delivered :=
    sound.delivered?_eq_some_iff.2 ⟨held, body, foundBody, stored, same, named⟩
  exact ⟨time, message, body, rfl, foundBody, stored, same, named, delivered⟩

/-- Nothing is delivered under an id without an expiry. -/
theorem Sound.delivered?_eq_none_iff
    (sound : Sound keyspace)
    {queue : String}
    {id : MessageId} :
    delivered? keyspace queue id = none ↔
      keyspace.get? (Key.expiry queue id).bytes = none := by
  constructor
  · intro nothing
    cases foundTime : keyspace.get? (Key.expiry queue id).bytes with
    | none => rfl
    | some timed =>
        obtain ⟨_, _, _, _, _, _, _, _, delivered⟩ :=
          sound.exists_delivered foundTime
        rw [delivered] at nothing
        cases nothing
  · intro absent
    rw [delivered?, absent]
    rfl

theorem delivered?_congr
    {after : Keyspace}
    {queue : String}
    {id : MessageId}
    (expiry : after.get? (Key.expiry queue id).bytes =
      keyspace.get? (Key.expiry queue id).bytes)
    (body : after.get? (Key.body queue id).bytes =
      keyspace.get? (Key.body queue id).bytes) :
    delivered? after queue id = delivered? keyspace queue id := by
  rw [delivered?, expiry, body, delivered?]

end Queue

end MessageBroker
