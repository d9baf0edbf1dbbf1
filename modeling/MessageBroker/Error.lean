import MessageBroker.Message.Codec
import MessageBroker.Text.Quoted

/-!
# What can go wrong

An error names its cause; its wording is one function, `Error.message`.  Causes
that belong to an argument or to stored data have types of their own, so that a
caller can tell an empty name from a name that is too long without reading the
text.
-/

namespace MessageBroker

/-- What is wrong with an argument. -/
inductive ArgumentFault where
  /-- A name without characters. -/
  | empty
  /-- A name with more bytes than the limit. -/
  | longerThan (limit : UInt32)
  /-- A name with a character that names may not have. -/
  | disallowed (character : Char)
  /-- A quantity that is zero. -/
  | notPositive
  /-- A count outside one to the limit. -/
  | outsideCount (limit : UInt32)
  /-- A field with more bytes than the limit. -/
  | overLimit (size : Nat) (limit : UInt32)
  /-- A batch with more messages than the limit. -/
  | overBatch (size : Nat) (limit : UInt32)
  /-- A partition without an offset after this one. -/
  | full (home : PartitionKey) (offset : Offset)
  /-- A field too long for its byte form. -/
  | unencodable (oversized : Oversized)
  /-- A limit beyond what sixteen-bit lengths can say. -/
  | beyondShortLength
  /-- A frame limit that cannot hold one greatest message. -/
  | frameBelow (least : Nat)
  /-- A count limit that is zero. -/
  | countNotPositive
  /-- A text that is no message id. -/
  | malformedId
  /-- A reason in words. -/
  | stated (reason : String)
  deriving DecidableEq

/-- The wording of an argument's fault. -/
def ArgumentFault.message : ArgumentFault → String
  | .empty => "must not be empty"
  | .longerThan limit => s!"longer than {limit} bytes"
  | .disallowed character =>
      "contains disallowed character " ++ Quoted.character character
  | .notPositive => "must be positive"
  | .outsideCount limit => s!"must be between 1 and {limit}"
  | .overLimit size limit => s!"{size} bytes exceeds limit of {limit}"
  | .overBatch size limit => s!"{size} messages exceeds limit of {limit}"
  | .full home offset => s!"{home.text} is full at offset {offset}"
  | .unencodable oversized => oversized.message
  | .beyondShortLength => "producer and name limits must be <= 65535"
  | .frameBelow least => s!"must be >= {least} to hold one maximal message"
  | .countNotPositive => "batch and range limits must be positive"
  | .malformedId => "not a message id"
  | .stated reason => reason

/-- What is wrong with stored data. -/
inductive StorageFault where
  /-- A counter whose value does not have eight bytes. -/
  | counterSize (found : Nat)
  /-- A stored message of a version that is not known. -/
  | unknownVersion (version : UInt8)
  /-- A stored message without bytes. -/
  | emptyMessage
  /-- A stored message that does not read. -/
  | undecodable (fault : Message.DecodeError)
  /-- A catalog record that does not read. -/
  | unreadableRecord
  /-- A place that cannot be opened. -/
  | unavailable
  /-- A reason in words. -/
  | stated (reason : String)
  deriving DecidableEq

/-- The wording of a storage fault. -/
def StorageFault.message : StorageFault → String
  | .counterSize found => s!"expected 8-byte counter, found {found} bytes"
  | .unknownVersion version => s!"unsupported message format version {version}"
  | .emptyMessage => "empty message value"
  | .undecodable fault => fault.message
  | .unreadableRecord => "unreadable record"
  | .unavailable => "unavailable"
  | .stated reason => reason

/-- Why an operation failed. -/
inductive Error where
  /-- There is nothing of that name. -/
  | notFound (resource name : String)
  /-- The name is taken. -/
  | alreadyExists (resource name : String)
  /-- Only the creator may delete. -/
  | unauthorized (resource name user : String)
  /-- The topic has no such partition. -/
  | outOfRange (topic : String) (partition : Partition) (count : UInt32)
  /-- An argument is refused. -/
  | invalidArgument (argument : String) (fault : ArgumentFault)
  /-- Stored data is damaged or out of reach. -/
  | storage (operation : String) (fault : StorageFault)
  /-- The generations of a queue are used up. -/
  | exhausted (queue : String)
  /-- The medium takes no key of that size. -/
  | refusedKey (size : Nat)
  /-- A peer did not do its part. -/
  | replication (peer reason : String)
  deriving DecidableEq

namespace Error

/-- There is no topic of that name. -/
def topicNotFound (name : String) : Error :=
  .notFound "topic" name

/-- There is no queue of that name. -/
def queueNotFound (name : String) : Error :=
  .notFound "queue" name

/-- A field of a message is too long for its byte form. -/
def ofOversized (oversized : Oversized) : Error :=
  .invalidArgument oversized.field (.unencodable oversized)

/-- Whether something was looked for in vain. -/
def isNotFound : Error → Bool
  | .notFound .. => true
  | _ => false

/-- The name of an error's kind, by which programs tell errors apart. -/
def kind : Error → String
  | .notFound .. => "NotFound"
  | .alreadyExists .. => "AlreadyExists"
  | .unauthorized .. => "Unauthorized"
  | .outOfRange .. => "OutOfRange"
  | .invalidArgument .. => "InvalidArgument"
  | .storage .. => "Storage"
  | .exhausted _ => "panic"
  | .refusedKey _ => "panic"
  | .replication .. => "Replication"

/-- The wording of an error. -/
def message : Error → String
  | .notFound resource name => s!"{resource} not found: {name}"
  | .alreadyExists resource name => s!"{resource} already exists: {name}"
  | .unauthorized resource name user =>
      s!"{user} is not allowed to delete {resource} {name}"
  | .outOfRange topic partition count =>
      s!"partition {partition} out of range for topic {topic} ({count} partitions)"
  | .invalidArgument argument fault =>
      s!"invalid argument '{argument}': {fault.message}"
  | .storage operation fault =>
      s!"storage error during {operation}: {fault.message}"
  | .exhausted _ => "attempt to add with overflow"
  | .refusedKey 0 => "key may not be empty"
  | .refusedKey _ => "keys can be 65535 bytes in length"
  | .replication peer reason => s!"replication to {peer} failed: {reason}"

end Error

end MessageBroker
