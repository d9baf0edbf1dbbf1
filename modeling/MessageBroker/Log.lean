import MessageBroker.Keyspace.Record

/-!
# Partition logs

The log of a partition is the messages stored under it, by offset, and one
counter: the next offset, one more than the greatest in use.  Appending takes
the next offset; a replica stores a message at the offset it already has, keeps
what it finds there, and raises the counter if it has to.

No message is stored at the greatest offset, because no next offset could follow
it.
-/

namespace MessageBroker.Log

/-- The offset after this one, or the error that the partition is full. -/
def successor (home : PartitionKey) (offset : Offset) : Except Error Offset :=
  match offset.next? with
  | some next => .ok next
  | none => .error (.invalidArgument "offset" (.full home offset))

/-- The next offset of a partition. -/
def nextOffset
    (keyspace : Keyspace)
    (operation : String)
    (home : PartitionKey) :
    Except Error Offset :=
  keyspace.counter operation (.nextOffset home)

/-- The next offset of a partition, as a caller asks for it. -/
def endOffset
    (keyspace : Keyspace)
    (home : PartitionKey) :
    Except Error Offset :=
  nextOffset keyspace "end_offset" home

/-- A message as it was appended. -/
structure Appended where
  /-- The message, with its id and offset. -/
  message : Message
  /-- The next offset of its partition. -/
  next : Offset
  /-- The keyspace that holds it. -/
  keyspace : Keyspace

/-- Store a message at the next offset of its partition. -/
def append
    (keyspace : Keyspace)
    (fresh : FreshId)
    (message : Message) :
    Except Error Appended := do
  let message := message.identified fresh
  let offset ← nextOffset keyspace "append" message.home
  let next ← successor message.home offset
  let message := { message with offset := offset }
  let value ← Record.ofMessage message
  let stored : Keyspace :=
    keyspace.insert (Key.message message.home offset).bytes value
  return ⟨message, next, stored.setCounter (.nextOffset message.home) next⟩

/-- Whether a message was stored or found already there. -/
inductive Outcome where
  /-- The offset was free. -/
  | applied
  /-- The offset was taken, and what it holds is kept. -/
  | duplicate
  deriving DecidableEq

/-- A message as a replica placed it. -/
structure Placed where
  /-- Whether it was stored. -/
  outcome : Outcome
  /-- The offset after the message. -/
  next : Offset
  /-- The keyspace that holds it. -/
  keyspace : Keyspace

/-- Store a message at the offset it has, unless that offset is taken. -/
def place
    (keyspace : Keyspace)
    (fresh : FreshId)
    (message : Message) :
    Except Error Placed := do
  let message := message.identified fresh
  let home := message.home
  let next ← successor home message.offset
  let value ← Record.ofMessage message
  let key := (Key.message home message.offset).bytes
  let taken := (keyspace.get? key).isSome
  let current ← nextOffset keyspace "append_at_offset" home
  let stored : Keyspace := if taken then keyspace else keyspace.insert key value
  let raised :=
    if current < next then stored.setCounter (.nextOffset home) next else stored
  return ⟨if taken then .duplicate else .applied, next, raised⟩

/-- A part of a partition to read: the offsets from `start` on, below `stop`
where there is one. -/
structure Window where
  /-- The first offset. -/
  start : Offset
  /-- The offset to stop before. -/
  stop : Option Offset := none
  deriving DecidableEq

/-- Whether a window holds no offset. -/
def Window.isEmpty (window : Window) : Bool :=
  match window.stop with
  | some stop => stop ≤ window.start
  | none => false

/-- The entries of a partition within a window, in offset order. -/
def entries
    (keyspace : Keyspace)
    (home : PartitionKey)
    (window : Window) :
    List (Bytes × Bytes) :=
  let stop := match window.stop with
    | some stop => (Key.message home stop).bytes
    | none => Bytes.ofText (Fields.rangeEnd (Key.messagesOf home))
  keyspace.between (Key.message home window.start).bytes stop

/-- At most `most` messages of a window, and of those the front whose stored
values fit the budget; the first message is taken whatever its size. -/
def read
    (keyspace : Keyspace)
    (home : PartitionKey)
    (window : Window)
    (most : Nat)
    (budget : Option Nat := none) :
    Except Error (List Message) :=
  if most = 0 ∨ window.isEmpty then .ok []
  else
    let page := (entries keyspace home window).take most
    let page := match budget with
      | some budget => Keyspace.fitting budget page
      | none => page
    page.mapM fun entry => Record.toMessage "read" entry.2

end MessageBroker.Log
