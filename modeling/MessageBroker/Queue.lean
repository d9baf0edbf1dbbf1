import MessageBroker.Keyspace.Record
import MessageBroker.Text.Duration

/-!
# Queues

A queue is its waiting messages, numbered by generation in the order in which
they came, and its deliveries: messages handed out and not yet acknowledged,
each with the time at which it expires.  A sweep returns every expired delivery
to the tail of its queue.

No message waits at the greatest generation, because no next generation could
follow it.

Times are milliseconds of the caller's clock.
-/

namespace MessageBroker

namespace Queue

/-- What a message carries when its delivery expired. -/
inductive Redelivery where
  /-- Its own payload. -/
  | preserve
  /-- A fixed payload that says so. -/
  | placeholder
  deriving DecidableEq

/-- How long deliveries last and how they are returned. -/
structure Settings where
  /-- The time that a receiver has to acknowledge. -/
  visibility : Duration := .ofSeconds 30
  /-- The time between two sweeps. -/
  sweepInterval : Duration := .ofSeconds 5
  /-- What returned messages carry. -/
  redelivery : Redelivery := .preserve
  deriving DecidableEq

/-- The settings are usable; the first one that is not is reported. -/
def Settings.validate (settings : Settings) : Except Error Unit :=
  if settings.visibility.isZero then
    .error (.invalidArgument "visibility_timeout" .notPositive)
  else if settings.sweepInterval.isZero then
    .error (.invalidArgument "sweep_interval" .notPositive)
  else .ok ()

/-- The greatest time. -/
def endOfTime : UInt64 := .ofNat (UInt64.size - 1)

/-- When a delivery made now expires: the sum, or the greatest time where it is
later than that. -/
def Settings.expiry (settings : Settings) (now : UInt64) : UInt64 :=
  if now.toNat + settings.visibility.millis < UInt64.size then
    .ofNat (now.toNat + settings.visibility.millis)
  else endOfTime

/-- The payload that says that a delivery expired. -/
def expiredPayload : Bytes := Bytes.ofText "expired"

/-- The generation after this one, or the error that the queue has none left. -/
def successor (queue : String) (generation : UInt64) : Except Error UInt64 :=
  if generation.toNat + 1 < UInt64.size then .ok (generation + 1)
  else .error (.exhausted queue)

/-- Put a stored message at the tail of a queue. -/
def putLast
    (keyspace : Keyspace)
    (queue : String)
    (generation : UInt64)
    (value : Bytes) :
    Except Error Keyspace := do
  let next ← successor queue generation
  let stored : Keyspace :=
    keyspace.insert (Key.pending queue generation).bytes value
  return stored.setCounter (.nextGeneration queue) next

/-- A message as it was enqueued. -/
structure Enqueued where
  id : MessageId
  /-- The keyspace that holds it. -/
  keyspace : Keyspace

/-- Put a message at the tail of a queue. -/
def enqueue
    (keyspace : Keyspace)
    (fresh : FreshId)
    (queue : String)
    (message : Message) :
    Except Error Enqueued := do
  let message := message.identified fresh
  let value ← Record.ofMessage message
  let generation ← keyspace.counter "enqueue" (.nextGeneration queue)
  return ⟨message.id, ← putLast keyspace queue generation value⟩

/-- What a receiver got. -/
structure Delivered where
  /-- The message, if the queue had one. -/
  message : Option Message
  /-- The keyspace after the delivery. -/
  keyspace : Keyspace

/-- Hand out the head of a queue. -/
def dequeue
    (keyspace : Keyspace)
    (settings : Settings)
    (queue : String)
    (now : UInt64) :
    Except Error Delivered :=
  match (keyspace.withStem (Key.pendingOf queue)).head? with
  | none => .ok ⟨none, keyspace⟩
  | some (key, value) => do
      let message ← Record.toMessage "dequeue" value
      let taken : Keyspace := keyspace.erase key
      let timed :=
        taken.setCounter (.expiry queue message.id) (settings.expiry now)
      return ⟨some message,
        timed.insert (Key.body queue message.id).bytes value⟩

/-- End a delivery for good. -/
def acknowledge
    (keyspace : Keyspace)
    (queue : String)
    (id : MessageId) :
    Keyspace :=
  let untimed : Keyspace := keyspace.erase (Key.expiry queue id).bytes
  untimed.erase (Key.body queue id).bytes

/-- A sweep under way: the deliveries returned so far and the keyspace without
them. -/
structure Sweep where
  /-- How many deliveries were returned. -/
  returned : Nat
  /-- The keyspace so far. -/
  keyspace : Keyspace

/-- The message of a delivery; an empty one stands for a body that is
missing. -/
def deliveredMessage
    (keyspace : Keyspace)
    (queue : String)
    (id : MessageId) :
    Except Error Message :=
  match keyspace.get? (Key.body queue id).bytes with
  | some value => Record.toMessage "requeue" value
  | none => .ok { Message.forQueue queue [] "" with id := id }

/-- A message as it is returned. -/
def Settings.returned (settings : Settings) (message : Message) : Message :=
  match settings.redelivery with
  | .preserve => message
  | .placeholder => { message with payload := expiredPayload }

/-- Return one expired delivery to the tail of its queue. -/
def Sweep.giveBack
    (sweep : Sweep)
    (settings : Settings)
    (key : Bytes)
    (queue : String)
    (id : MessageId) :
    Except Error Sweep := do
  let message ← deliveredMessage sweep.keyspace queue id
  let generation ← sweep.keyspace.counter "requeue" (.nextGeneration queue)
  let value ← Record.ofMessage (settings.returned message)
  let queued ← putLast sweep.keyspace queue generation value
  let untimed : Keyspace := queued.erase key
  return ⟨sweep.returned + 1, untimed.erase (Key.body queue id).bytes⟩

/-- Look at one delivery: drop it where its key or its expiry does not read,
leave it where it has not expired, and return it otherwise. -/
def Sweep.visit
    (settings : Settings)
    (now : UInt64)
    (sweep : Sweep)
    (entry : Bytes × Bytes) :
    Except Error Sweep :=
  match Key.readExpiry? entry.1, Record.toCounter "requeue" entry.2 with
  | some (queue, id), .ok expiry =>
      if now ≤ expiry then .ok sweep
      else sweep.giveBack settings entry.1 queue id
  | _, _ => .ok { sweep with keyspace := sweep.keyspace.erase entry.1 }

/-- Return every expired delivery of every queue. -/
def requeueExpired
    (keyspace : Keyspace)
    (settings : Settings)
    (now : UInt64) :
    Except Error Sweep :=
  (keyspace.withStem Key.expiries).foldlM (Sweep.visit settings now)
    ⟨0, keyspace⟩

/-- The keyspace after a sweep; a sweep that fails changes nothing. -/
def swept
    (keyspace : Keyspace)
    (settings : Settings)
    (now : UInt64) :
    Keyspace :=
  match requeueExpired keyspace settings now with
  | .ok sweep => sweep.keyspace
  | .error _ => keyspace

/-- How many messages of a queue wait. -/
def pendingCount (keyspace : Keyspace) (queue : String) : Nat :=
  (keyspace.withStem (Key.pendingOf queue)).length

/-- How many messages of a queue are handed out. -/
def inFlightCount (keyspace : Keyspace) (queue : String) : Nat :=
  (keyspace.withStem (Key.expiriesOf queue)).length

end Queue

end MessageBroker
