import MessageBroker.Error

/-!
# Limits

How large names, messages, batches and pages may be.  A set of limits is sound
when a frame can hold one message that is as large as every field allows, and
when nothing that has to be positive is zero.
-/

namespace MessageBroker

/-- The sizes and counts that a node admits. -/
structure Limits where
  /-- Bytes of a payload. -/
  payloadBytes : UInt32 := 1048576
  /-- Bytes of a key. -/
  keyBytes : UInt32 := 4096
  /-- Bytes of a producer's name. -/
  producerBytes : UInt32 := 1024
  /-- Bytes of the name of a topic, queue or group. -/
  nameBytes : UInt32 := 249
  /-- Partitions of a topic. -/
  partitions : UInt32 := 1024
  /-- Messages that a peer may send at once. -/
  batchMessages : UInt32 := 10000
  /-- Bytes of a frame's body. -/
  frameBytes : UInt32 := 67108864
  /-- Messages that a peer may ask for at once. -/
  rangeMessages : UInt32 := 1000000
  deriving DecidableEq

namespace Limits

/-- The greatest byte form of a message within the limits. -/
def messageBytes (limits : Limits) : Nat :=
  Message.overhead + limits.nameBytes.toNat + limits.keyBytes.toNat +
    limits.producerBytes.toNat + limits.payloadBytes.toNat

/-- The bytes that a frame adds to the messages in it: a tag and a count. -/
def batchOverhead : Nat := 5

/-- The limits are sound; the first one that is not is reported. -/
def validate (limits : Limits) : Except Error Unit :=
  if limits.payloadBytes = 0 then
    .error (.invalidArgument "max_payload_bytes" .notPositive)
  else if 65535 < limits.producerBytes ∨ 65535 < limits.nameBytes then
    .error (.invalidArgument "max_producer_bytes" .beyondShortLength)
  else if limits.frameBytes.toNat < limits.messageBytes + batchOverhead then
    .error
      (.invalidArgument "max_frame_bytes"
        (.frameBelow (limits.messageBytes + batchOverhead)))
  else if limits.partitions = 0 then
    .error (.invalidArgument "max_partitions" .notPositive)
  else if limits.batchMessages = 0 ∨ limits.rangeMessages = 0 then
    .error (.invalidArgument "max_batch_messages" .countNotPositive)
  else .ok ()

/-- One field is within its limit. -/
def checkField
    (field : String)
    (size : Nat)
    (limit : UInt32) :
    Except Error Unit :=
  if limit.toNat < size then
    .error (.invalidArgument field (.overLimit size limit))
  else .ok ()

/-- Every field of a message is within the limits; the first one that is not is
reported. -/
def checkMessage (limits : Limits) (message : Message) : Except Error Unit := do
  checkField "payload" message.payload.length limits.payloadBytes
  checkField "key" message.key.utf8ByteSize limits.keyBytes
  checkField "producer" message.producer.utf8ByteSize limits.producerBytes
  checkField "topic" message.topic.utf8ByteSize limits.nameBytes

/-- Whether a name may have this character. -/
def isNameCharacter (character : Char) : Bool :=
  character.isAlphanum || character ==
    '-' || character == '_' || character == '.'

/-- A name of the given kind is acceptable: not empty, not too long, and of
ASCII letters, digits, hyphens, underscores and dots. -/
def checkName (limits : Limits) (kind name : String) : Except Error Unit :=
  if name.isEmpty then
    .error (.invalidArgument kind .empty)
  else if limits.nameBytes.toNat < name.utf8ByteSize then
    .error (.invalidArgument kind (.longerThan limits.nameBytes))
  else match name.toList.find? fun character => !isNameCharacter character with
    | some character => .error (.invalidArgument kind (.disallowed character))
    | none => .ok ()

end Limits

end MessageBroker
