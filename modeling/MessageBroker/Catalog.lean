import MessageBroker.Bytes.Lossy
import MessageBroker.Json
import MessageBroker.Keyspace.Record
import MessageBroker.Limits

/-!
# The catalog

The catalog knows which topics and queues exist, how many partitions a topic
has, and who created each.  A name is taken by whoever creates it first, and
given up only by its creator; what is stored under the name stays where it is.

Each entry is stored under its name as a document in JSON.
-/

namespace MessageBroker.Catalog

/-- A topic as the catalog knows it. -/
structure Topic where
  name : String
  /-- How many partitions it has. -/
  partitions : UInt32
  /-- Who created it. -/
  creator : String
  deriving DecidableEq

/-- A queue as the catalog knows it. -/
structure Queue where
  name : String
  /-- Who created it. -/
  creator : String
  deriving DecidableEq

/-! ## Records -/

/-- The stored form of a topic. -/
def Topic.record (topic : Topic) : Bytes :=
  Bytes.ofText <| "\x7b\"partitions\":" ++ toString topic.partitions ++
    ",\"creator\":"
    ++ Json.quoted topic.creator ++ "\x7d"

/-- The topic of that name with this stored form. -/
def Topic.ofRecord? (name : String) (record : Bytes) : Option Topic := do
  match ← (← Json.parse? record).fields? ["partitions", "creator"] with
  | [partitions, creator] =>
      return ⟨name, ← partitions.word32?, ← creator.text?⟩
  | _ => none

/-- The stored form of a queue. -/
def Queue.record (queue : Queue) : Bytes :=
  Bytes.ofText <| "\x7b\"creator\":" ++ Json.quoted queue.creator ++ "\x7d"

/-- The queue of that name with this stored form. -/
def Queue.ofRecord? (name : String) (record : Bytes) : Option Queue := do
  match ← (← Json.parse? record).fields? ["creator"] with
  | [creator] => return ⟨name, ← creator.text?⟩
  | _ => none

/-- What was read, or the error that the record does not read. -/
def readable {α : Type} (operation : String) : Option α → Except Error α
  | some found => .ok found
  | none => .error (.storage operation .unreadableRecord)

/-! ## Taking and giving up a name -/

/-- Store a record under a key that must be free. -/
def claim
    (keyspace : Keyspace)
    (resource name : String)
    (key : Key)
    (record : Bytes) :
    Except Error Keyspace :=
  match keyspace.get? key.bytes with
  | some _ => .error (.alreadyExists resource name)
  | none => .ok (keyspace.insert key.bytes record)

/-- Take away the record under a key, for the user who created it. -/
def release
    (keyspace : Keyspace)
    (resource name user : String)
    (key : Key)
    (creator : Bytes → Except Error String) :
    Except Error Keyspace :=
  match keyspace.get? key.bytes with
  | none => .error (.notFound resource name)
  | some record => do
      if (← creator record) = user then return keyspace.erase key.bytes
      else .error (.unauthorized resource name user)

/-- The name that a key holds after a stem. -/
def nameAfter (stem : String) (key : Bytes) : String :=
  Bytes.toTextLossy (key.drop (Bytes.ofText stem).length)

/-! ## Topics -/

/-- A topic has at least one partition and no more than the limit. -/
def checkPartitions
    (limits : Limits)
    (partitions : UInt32) :
    Except Error Unit :=
  if partitions = 0 ∨ limits.partitions < partitions then
    .error (.invalidArgument "partitions" (.outsideCount limits.partitions))
  else .ok ()

/-- Create a topic. -/
def createTopic
    (keyspace : Keyspace)
    (limits : Limits)
    (topic : Topic) :
    Except Error Keyspace := do
  limits.checkName "topic" topic.name
  checkPartitions limits topic.partitions
  claim keyspace "topic" topic.name (.topicRecord topic.name) topic.record

/-- The topic of that name. -/
def topic (keyspace : Keyspace) (name : String) : Except Error Topic :=
  match keyspace.get? (Key.topicRecord name).bytes with
  | some record => readable "get_topic" (Topic.ofRecord? name record)
  | none => .error (.topicNotFound name)

/-- How many partitions the topic of that name has. -/
def partitionCount
    (keyspace : Keyspace)
    (name : String) :
    Except Error UInt32 :=
  (topic keyspace name).map (·.partitions)

/-- All topics, by name. -/
def topics (keyspace : Keyspace) : Except Error (List Topic) :=
  (keyspace.withStem Key.topics).mapM fun entry =>
    readable "list_topics"
      (Topic.ofRecord? (nameAfter Key.topics entry.1) entry.2)

/-- Delete the topic of that name, for the user who created it. -/
def deleteTopic
    (keyspace : Keyspace)
    (name user : String) :
    Except Error Keyspace :=
  release keyspace "topic" name user (.topicRecord name) fun record =>
    (readable "delete_topic" (Topic.ofRecord? name record)).map (·.creator)

/-! ## Queues -/

/-- Create a queue. -/
def createQueue
    (keyspace : Keyspace)
    (limits : Limits)
    (queue : Queue) :
    Except Error Keyspace := do
  limits.checkName "queue" queue.name
  claim keyspace "queue" queue.name (.queueRecord queue.name) queue.record

/-- The queue of that name. -/
def queue (keyspace : Keyspace) (name : String) : Except Error Queue :=
  match keyspace.get? (Key.queueRecord name).bytes with
  | some record => readable "get_queue" (Queue.ofRecord? name record)
  | none => .error (.queueNotFound name)

/-- Whether there is a queue of that name. -/
def hasQueue (keyspace : Keyspace) (name : String) : Bool :=
  (keyspace.get? (Key.queueRecord name).bytes).isSome

/-- All queues, by name. -/
def queues (keyspace : Keyspace) : Except Error (List Queue) :=
  (keyspace.withStem Key.queues).mapM fun entry =>
    readable "list_queues"
      (Queue.ofRecord? (nameAfter Key.queues entry.1) entry.2)

/-- Delete the queue of that name, for the user who created it. -/
def deleteQueue
    (keyspace : Keyspace)
    (name user : String) :
    Except Error Keyspace :=
  release keyspace "queue" name user (.queueRecord name) fun record =>
    (readable "delete_queue" (Queue.ofRecord? name record)).map (·.creator)

end MessageBroker.Catalog
