import MessageBroker.Broker
import MessageBroker.Reconciliation
import MessageBroker.Replica

/-!
# The bounds of the medium

The medium that holds a keyspace takes keys of one to 65535 bytes.  A call that
would store under, take away or scan from any other key breaks off, and so does
one that looks such a key up, unless there are no entries to look through.

The operations themselves know no such bound, and what is said of them elsewhere
is said of a medium that takes every key.  Here they are held to the bound: each
is the operation, with the keys that it hands to the medium checked in the order
in which it does so.  What it leaves behind is checked as a whole, by
`checkAll`.

That a medium fails in other ways, as a device does that is full or worn out, is
left out here and everywhere else: every read answers and every change is kept.
-/

namespace MessageBroker.Medium

/-- The most bytes that a key may have. -/
def longestKey : Nat := 65535

/-- The medium takes a key. -/
def check (key : Bytes) : Except Error Unit :=
  if key.isEmpty ∨ longestKey < key.length then .error (.refusedKey key.length)
  else .ok ()

/-- The medium takes every key of a keyspace. -/
def checkAll (keyspace : Keyspace) : Except Error Unit :=
  keyspace.entries.forM fun entry => check entry.1

/-- The medium takes a key to look up. -/
def checkLookup (keyspace : Keyspace) (key : Key) : Except Error Unit :=
  if keyspace.entries.isEmpty then .ok () else check key.bytes

/-- The medium takes the key that a scan of a window starts from; an empty scan
has none. -/
def checkWindow
    (home : PartitionKey)
    (window : Log.Window)
    (most : Nat) :
    Except Error Unit :=
  if most = 0 ∨ window.isEmpty then .ok ()
  else check (Key.message home window.start).bytes

/-- The medium takes a stem to scan. -/
def checkStem (stem : String) : Except Error Unit :=
  check (Bytes.ofText stem)

/-! ## Logs -/

/-- Store a message at the next offset of its partition. -/
def append
    (store : Store)
    (message : Message) :
    Except Error (Message × Store) := do
  checkLookup store.keyspace (.nextOffset message.home)
  store.append message

/-- The next offset of a partition. -/
def endOffset
    (keyspace : Keyspace)
    (home : PartitionKey) :
    Except Error Offset := do
  checkLookup keyspace (.nextOffset home)
  Log.endOffset keyspace home

/-- At most `most` messages of a window that fit the budget. -/
def read
    (keyspace : Keyspace)
    (home : PartitionKey)
    (window : Log.Window)
    (most : Nat)
    (budget : Option Nat := none) :
    Except Error (List Message) := do
  checkWindow home window most
  Log.read keyspace home window most budget

/-- Read a page of a window. -/
def range
    (limits : Limits)
    (keyspace : Keyspace)
    (home : PartitionKey)
    (window : Log.Window) :
    Except Error (List Message) := do
  checkWindow home window (Replica.pageMessages limits window)
  Replica.range limits keyspace home window

/-- Do what another node asks. -/
def handle
    (limits : Limits)
    (store : Store)
    (request : Request) :
    Except Error (Response × Store) := do
  if let .range home window := request then
    checkWindow home window (Replica.pageMessages limits window)
  return Replica.handle limits store request

/-- The result of catching up, where the peer is a node in the same place: it
scanned its own keyspace. -/
def caughtUp
    (home : PartitionKey)
    (window : Log.Window)
    (result : Except Error CatchUp.Report) :
    Except Error CatchUp.Report := do
  let report ← result
  checkWindow home window 1
  return report

/-- What a reconciliation did, where the peer is a node in the same place: it
scanned its own keyspace for every topic with a partition. -/
def reconciled
    (keyspace : Keyspace)
    (report : Reconciliation.Report) :
    Except Error Reconciliation.Report := do
  let topics :=
    if report.peer.isSome then (Catalog.topics keyspace).toOption.getD []
    else []
  topics.forM fun topic =>
    checkWindow ⟨topic.name, 0⟩ ⟨0, none⟩ topic.partitions.toNat
  return report

/-- Send a batch to every peer.  A peer breaks off at the first message that its
medium does not take: it keeps those before it and does not answer. -/
def broadcast
    {World : Type}
    (fanout : Fanout World)
    (batch : List Message)
    (world : World) :
    Fanout.Broadcast × World :=
  let isTaken (message : Message) :=
    (check (Key.message message.home message.offset).bytes).isOk
  if batch.all isTaken then fanout.broadcast batch world
  else (⟨fanout.peers.length, []⟩,
    (fanout.broadcast (batch.takeWhile isTaken) world).2)

/-! ## Queues -/

/-- Hand out the head of a queue. -/
def dequeue
    (keyspace : Keyspace)
    (settings : Queue.Settings)
    (queue : String)
    (now : UInt64) :
    Except Error Queue.Delivered := do
  checkStem (Key.pendingOf queue)
  Queue.dequeue keyspace settings queue now

/-- End a delivery for good. -/
def acknowledge
    (keyspace : Keyspace)
    (queue : String)
    (id : MessageId) :
    Except Error Keyspace := do
  check (Key.expiry queue id).bytes
  return Queue.acknowledge keyspace queue id

/-- How many messages of a queue wait. -/
def pendingCount (keyspace : Keyspace) (queue : String) : Except Error Nat := do
  checkStem (Key.pendingOf queue)
  return Queue.pendingCount keyspace queue

/-- How many messages of a queue are handed out. -/
def inFlightCount
    (keyspace : Keyspace)
    (queue : String) :
    Except Error Nat := do
  checkStem (Key.expiriesOf queue)
  return Queue.inFlightCount keyspace queue

/-! ## The catalog and positions -/

/-- The topic of that name. -/
def topic
    (keyspace : Keyspace)
    (name : String) :
    Except Error Catalog.Topic := do
  checkLookup keyspace (.topicRecord name)
  Catalog.topic keyspace name

/-- Delete the topic of that name, for the user who created it. -/
def deleteTopic
    (keyspace : Keyspace)
    (name user : String) :
    Except Error Keyspace := do
  checkLookup keyspace (.topicRecord name)
  Catalog.deleteTopic keyspace name user

/-- The queue of that name. -/
def queue
    (keyspace : Keyspace)
    (name : String) :
    Except Error Catalog.Queue := do
  checkLookup keyspace (.queueRecord name)
  Catalog.queue keyspace name

/-- Whether there is a queue of that name. -/
def hasQueue (keyspace : Keyspace) (name : String) : Except Error Bool := do
  checkLookup keyspace (.queueRecord name)
  return Catalog.hasQueue keyspace name

/-- Delete the queue of that name, for the user who created it. -/
def deleteQueue
    (keyspace : Keyspace)
    (name user : String) :
    Except Error Keyspace := do
  checkLookup keyspace (.queueRecord name)
  Catalog.deleteQueue keyspace name user

/-- The position of a group in a partition, if it has set one. -/
def position?
    (keyspace : Keyspace)
    (group : String)
    (home : PartitionKey) :
    Except Error (Option Offset) := do
  checkLookup keyspace (.cursor group home)
  Cursor.position? keyspace group home

/-! ## The broker -/

/-- The result of publishing to a topic, which is looked up first. -/
def published
    {Result : Type}
    (keyspace : Keyspace)
    (topic : String)
    (result : Except Error Result) :
    Except Error Result := do
  checkLookup keyspace (.topicRecord topic)
  result

/-- At most `most` messages of a partition from a group's position on. -/
def pull
    (keyspace : Keyspace)
    (group : String)
    (home : PartitionKey)
    (most : Nat) :
    Except Error (List Message) := do
  checkLookup keyspace (.topicRecord home.topic)
  Broker.checkPartition keyspace home
  checkLookup keyspace (.cursor group home)
  let messages ← Broker.pull keyspace group home most
  checkWindow home ⟨0, none⟩ most
  return messages

/-- Set a group's position in a partition. -/
def commit
    (limits : Limits)
    (keyspace : Keyspace)
    (group : String)
    (home : PartitionKey)
    (offset : Offset) :
    Except Error Keyspace := do
  checkLookup keyspace (.topicRecord home.topic)
  Broker.commit limits keyspace group home offset

/-- Put a payload at the tail of a queue of the catalog. -/
def enqueueKnown
    (limits : Limits)
    (store : Store)
    (queue : String)
    (payload : Bytes)
    (producer : String) :
    Except Error (MessageId × Store) := do
  checkLookup store.keyspace (.queueRecord queue)
  Broker.enqueue limits store queue payload producer

/-- Hand out the head of a queue of the catalog. -/
def dequeueKnown
    (keyspace : Keyspace)
    (settings : Queue.Settings)
    (queue : String)
    (now : UInt64) :
    Except Error Queue.Delivered := do
  checkLookup keyspace (.queueRecord queue)
  Broker.checkQueue keyspace queue
  dequeue keyspace settings queue now

/-- End a delivery of a queue of the catalog for good. -/
def acknowledgeKnown
    (keyspace : Keyspace)
    (queue : String)
    (id : MessageId) :
    Except Error Keyspace := do
  checkLookup keyspace (.queueRecord queue)
  Broker.checkQueue keyspace queue
  acknowledge keyspace queue id

end MessageBroker.Medium
