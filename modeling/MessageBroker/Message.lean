import MessageBroker.MessageId
import MessageBroker.Partition

/-!
# Messages

A message is a payload with an address: the topic, partition and offset it is
stored at, the key that chose the partition, and the name of whoever produced
it.  Queue messages use the same type, with the queue's name as topic and
nothing in the other fields.
-/

namespace MessageBroker

/-- A message and its address. -/
structure Message where
  /-- The message's id, nil until one is given. -/
  id : MessageId := .nil
  /-- The topic, or the queue. -/
  topic : String
  /-- The partition within the topic. -/
  partition : Partition := 0
  /-- The position within the partition. -/
  offset : Offset := 0
  /-- The key that chose the partition. -/
  key : String := ""
  /-- The content. -/
  payload : Bytes := []
  /-- Who produced it. -/
  producer : String := ""
  deriving DecidableEq

namespace Message

/-- A message without id or offset, addressed to a queue. -/
def forQueue (queue : String) (payload : Bytes) (producer : String) : Message :=
  { topic := queue, payload := payload, producer := producer }

/-- The partition that a message belongs to. -/
def home (message : Message) : PartitionKey :=
  ⟨message.topic, message.partition⟩

/-- The message with an id: its own, or the fresh one where it has none. -/
def identified (message : Message) (fresh : FreshId) : Message :=
  if message.id.isNil then { message with id := fresh.id } else message

theorem identified_id_ne_nil
    (message : Message)
    (fresh : FreshId) :
    (message.identified fresh).id ≠ .nil := by
  unfold identified
  split
  · exact fresh.ne_nil
  · rename_i own
    simpa [MessageId.isNil] using own

theorem identified_eq_self
    {message : Message}
    (own : message.id ≠ .nil)
    (fresh : FreshId) :
    message.identified fresh = message := by
  simp [identified, MessageId.isNil, own]

end Message

end MessageBroker
