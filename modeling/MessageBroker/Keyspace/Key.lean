import MessageBroker.Keyspace
import MessageBroker.MessageId
import MessageBroker.Partition
import MessageBroker.Text.Decimal
import MessageBroker.Text.Fields

/-!
# The layout of the keyspace

Nine kinds of record share the keyspace.  A key's text is the letter of its
kind, then its parts, all separated by colons.  Partitions and offsets have a
fixed count of digits, so that within one partition, and within one queue, the
order of keys is the order of numbers.

Keys of messages and of deliveries are also read back: the first when the ends
of partitions are counted anew, the second when expired deliveries are returned.
-/

namespace MessageBroker

/-- The key of a record. -/
inductive Key where
  /-- A message of a partition. -/
  | message (home : PartitionKey) (offset : Offset)
  /-- The next offset of a partition. -/
  | nextOffset (home : PartitionKey)
  /-- A waiting message of a queue. -/
  | pending (queue : String) (generation : UInt64)
  /-- The next generation of a queue. -/
  | nextGeneration (queue : String)
  /-- When a delivery of a queue expires. -/
  | expiry (queue : String) (id : MessageId)
  /-- The message that was delivered. -/
  | body (queue : String) (id : MessageId)
  /-- The record of a topic. -/
  | topicRecord (name : String)
  /-- The record of a queue. -/
  | queueRecord (name : String)
  /-- The position of a group in a partition. -/
  | cursor (group : String) (home : PartitionKey)
  deriving DecidableEq

namespace Key

/-- The digits of a partition. -/
def partitionDigits (partition : Partition) : String :=
  Decimal.padded 10 partition.toNat

/-- The digits of an offset or a generation. -/
def longDigits (number : UInt64) : String :=
  Decimal.padded 20 number.toNat

/-! ## Stems -/

/-- What the keys of all messages begin with. -/
def messages : String := "m:"

/-- What the keys of all expiries begin with. -/
def expiries : String := "f:"

/-- What the keys of all topic records begin with. -/
def topics : String := "t:"

/-- What the keys of all queue records begin with. -/
def queues : String := "u:"

/-- What the keys of a partition's messages begin with. -/
def messagesOf (home : PartitionKey) : String :=
  messages ++ home.topic ++ ":" ++ partitionDigits home.partition ++ ":"

/-- What the keys of a queue's waiting messages begin with. -/
def pendingOf (queue : String) : String :=
  "q:" ++ queue ++ ":"

/-- What the keys of a queue's expiries begin with. -/
def expiriesOf (queue : String) : String :=
  expiries ++ queue ++ ":"

/-! ## Keys -/

/-- The text of a key. -/
def text : Key → String
  | .message home offset => messagesOf home ++ longDigits offset
  | .nextOffset home =>
      "h:" ++ home.topic ++ ":" ++ partitionDigits home.partition
  | .pending queue generation => pendingOf queue ++ longDigits generation
  | .nextGeneration queue => "g:" ++ queue
  | .expiry queue id => expiriesOf queue ++ id.text
  | .body queue id => "b:" ++ queue ++ ":" ++ id.text
  | .topicRecord name => topics ++ name
  | .queueRecord name => queues ++ name
  | .cursor group home =>
      "o:" ++ group ++ ":" ++ home.topic ++ ":" ++ partitionDigits
        home.partition

/-- The key as the keyspace has it. -/
def bytes (key : Key) : Bytes :=
  Bytes.ofText key.text

/-! ## Reading keys -/

/-- The partition and offset of a message's key. -/
def readMessage? (bytes : Bytes) : Option (PartitionKey × Offset) := do
  let text ← Bytes.toText? bytes
  match text.toList with
  | 'm' :: ':' :: rest =>
      match Fields.split ':' rest with
      | [topic, partition, offset] =>
          let partition ← Decimal.read? UInt32.size partition
          let offset ← Decimal.read? UInt64.size offset
          return (⟨String.ofList topic, .ofNat partition⟩, .ofNat offset)
      | _ => none
  | _ => none

/-- The queue and message id of an expiry's key. -/
def readExpiry? (bytes : Bytes) : Option (String × MessageId) := do
  let text ← Bytes.toText? bytes
  match text.toList with
  | 'f' :: ':' :: rest =>
      let (queue, id) ← Fields.splitOnce? ':' rest
      return (String.ofList queue, ← MessageId.ofChars? id)
  | _ => none

end Key

end MessageBroker
