import MessageBroker.Catalog
import MessageBroker.Cursor
import MessageBroker.Fanout
import MessageBroker.Partition.Choice
import MessageBroker.Store

/-!
# The broker

What producers and consumers ask of a node.  Publishing and enqueueing go to
topics and queues that the catalog has; a message is admitted by the limits
before it is stored, and a published message is sent to every peer once it is.
-/

namespace MessageBroker.Broker

/-- Where a published message went. -/
structure Receipt where
  /-- The partition that its key chose. -/
  partition : Partition
  offset : Offset
  id : MessageId
  deriving DecidableEq

/-- What a producer publishes. -/
structure Post where
  topic : String
  /-- The key that chooses the partition. -/
  key : String
  /-- The content. -/
  payload : Bytes
  producer : String
  deriving DecidableEq

/-- The message of a post for a partition. -/
def Post.message (post : Post) (partition : Partition) : Message where
  topic := post.topic
  partition := partition
  key := post.key
  payload := post.payload
  producer := post.producer

/-! ## Topics -/

/-- Store a post in the partition that its key chooses. -/
def accept
    (limits : Limits)
    (store : Store)
    (post : Post) :
    Except Error (Message × Store) := do
  let count ← Catalog.partitionCount store.keyspace post.topic
  let message := post.message (Partition.ofKey post.key count)
  limits.checkMessage message
  store.append message

/-- Store a post and send its message to every peer. -/
def publish
    {World : Type}
    (limits : Limits)
    (fanout : Fanout World)
    (store : Store)
    (world : World)
    (post : Post) :
    Except Error (Receipt × Store × World) := do
  let (message, store) ← accept limits store post
  let (_, world) := fanout.broadcast [message] world
  return (⟨message.partition, message.offset, message.id⟩, store, world)

/-- A topic has the partition. -/
def checkPartition
    (keyspace : Keyspace)
    (home : PartitionKey) :
    Except Error Unit := do
  let count ← Catalog.partitionCount keyspace home.topic
  if count ≤ home.partition then
    .error (.outOfRange home.topic home.partition count)
  else return ()

/-- At most `most` messages of a partition from a group's position on. -/
def pull
    (keyspace : Keyspace)
    (group : String)
    (home : PartitionKey)
    (most : Nat) :
    Except Error (List Message) := do
  checkPartition keyspace home
  let position ← Cursor.position? keyspace group home
  Log.read keyspace home { start := position.getD 0 } most

/-- Set a group's position in a partition. -/
def commit
    (limits : Limits)
    (keyspace : Keyspace)
    (group : String)
    (home : PartitionKey)
    (offset : Offset) :
    Except Error Keyspace := do
  checkPartition keyspace home
  Cursor.commit keyspace limits group home offset

/-! ## Queues -/

/-- There is a queue of that name. -/
def checkQueue (keyspace : Keyspace) (queue : String) : Except Error Unit :=
  if Catalog.hasQueue keyspace queue then .ok ()
  else .error (.queueNotFound queue)

/-- Put a payload at the tail of a queue. -/
def enqueue
    (limits : Limits)
    (store : Store)
    (queue : String)
    (payload : Bytes)
    (producer : String) :
    Except Error (MessageId × Store) := do
  checkQueue store.keyspace queue
  let message := Message.forQueue queue payload producer
  limits.checkMessage message
  store.enqueue queue message

/-- Hand out the head of a queue. -/
def dequeue
    (settings : Queue.Settings)
    (keyspace : Keyspace)
    (queue : String)
    (now : UInt64) :
    Except Error Queue.Delivered := do
  checkQueue keyspace queue
  Queue.dequeue keyspace settings queue now

/-- End a delivery for good. -/
def acknowledge
    (keyspace : Keyspace)
    (queue : String)
    (id : MessageId) :
    Except Error Keyspace := do
  checkQueue keyspace queue
  return Queue.acknowledge keyspace queue id

end MessageBroker.Broker
