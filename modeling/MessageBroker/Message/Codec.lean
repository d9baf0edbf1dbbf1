import MessageBroker.Bytes.Word
import MessageBroker.Message

/-!
# The byte form of a message

A message is written as its id, then its topic, partition, offset, key, producer
and payload, each text and the payload after its length.  Lengths and numbers
are little-endian; the topic and the producer have sixteen-bit lengths, the key
and the payload thirty-two-bit ones.

Writing adds to a buffer and fails only where a field is too long for its
length.  Reading leaves what follows the message, and says which field it could
not finish or could not read as text.
-/

namespace MessageBroker

/-- A field longer than its length can say. -/
structure Oversized where
  /-- The field's name. -/
  field : String
  /-- Its size in bytes. -/
  size : Nat
  /-- The greatest size that its length can say. -/
  limit : Nat
  deriving DecidableEq

/-- The wording of an oversized field. -/
def Oversized.message (oversized : Oversized) : String :=
  s!"field {oversized.field} is {oversized.size} bytes, max {oversized.limit}"

namespace Message

/-- A field at which reading can stop. -/
inductive Field where
  | id
  | topic
  | offset
  | key
  | producer
  | payload
  deriving DecidableEq

/-- The name of a field. -/
def Field.name : Field → String
  | .id => "id"
  | .topic => "topic"
  | .offset => "offset"
  | .key => "key"
  | .producer => "producer"
  | .payload => "payload"

/-- Why bytes do not read as a message. -/
inductive DecodeError where
  /-- The bytes end within or before a field. -/
  | truncated (field : Field)
  /-- A text field is not UTF-8. -/
  | invalidText (field : Field)
  deriving DecidableEq

/-- The wording of a reading error. -/
def DecodeError.message : DecodeError → String
  | .truncated field => s!"message truncated in field {field.name}"
  | .invalidText field => s!"field {field.name} is not valid UTF-8"

/-- The bytes that a message takes beyond its texts and payload. -/
def overhead : Nat := 40

/-- The size of a message's byte form. -/
def encodedSize (message : Message) : Nat :=
  overhead + message.topic.utf8ByteSize + message.key.utf8ByteSize
    + message.producer.utf8ByteSize + message.payload.length

/-- The greatest length that `width` bytes can say. -/
def maxLength (width : Nat) : Nat := Bytes.capacity width - 1

/-- A field's size is one that its length can say. -/
def checkLength (field : Field) (width size : Nat) : Except Oversized Unit :=
  if size ≤ maxLength width then .ok ()
  else .error ⟨field.name, size, maxLength width⟩

/-- Every field fits its length; the first one that does not is reported. -/
def checkLengths (message : Message) : Except Oversized Unit := do
  checkLength .topic 2 message.topic.utf8ByteSize
  checkLength .key 4 message.key.utf8ByteSize
  checkLength .producer 2 message.producer.utf8ByteSize
  checkLength .payload 4 message.payload.length

/-- Bytes after their length. -/
def prefixed (width : Nat) (content : Bytes) : Bytes :=
  Bytes.littleEndian width content.length ++ content

/-- The fields in writing order. -/
def layout (message : Message) : Bytes :=
  message.id.bytes
    ++ prefixed 2 (Bytes.ofText message.topic)
    ++ Bytes.littleEndian 4 message.partition.toNat
    ++ Bytes.littleEndian 8 message.offset.toNat
    ++ prefixed 4 (Bytes.ofText message.key)
    ++ prefixed 2 (Bytes.ofText message.producer)
    ++ prefixed 4 message.payload

/-- Write a message after what a buffer holds.  A failure keeps the buffer as it
is by then. -/
def write (message : Message) : ExceptT Oversized (StateM Bytes) Unit := do
  liftExcept message.checkLengths
  modify (· ++ message.layout)

/-- The byte form of a message: what it writes to an empty buffer. -/
def encode (message : Message) : Except Oversized Bytes :=
  match message.write.run.run [] with
  | (.ok (), bytes) => .ok bytes
  | (.error oversized, _) => .error oversized

/-- What is found, or the error that says what was missing. -/
def required {α : Type} (fault : DecodeError) : Option α → Except DecodeError α
  | some found => .ok found
  | none => .error fault

/-- Read a field's content after its length. -/
def readContent
    (field : Field)
    (width : Nat)
    (bytes : Bytes) :
    Except DecodeError (Bytes × Bytes) := do
  let (size, rest) ← required (.truncated field) (bytes.word? width)
  required (.truncated field) (Bytes.split? size rest)

/-- Read a text field. -/
def readText
    (field : Field)
    (width : Nat)
    (bytes : Bytes) :
    Except DecodeError (String × Bytes) := do
  let (content, rest) ← readContent field width bytes
  return (← required (.invalidText field) (Bytes.toText? content), rest)

/-- Read an id. -/
def readId (bytes : Bytes) : Except DecodeError (MessageId × Bytes) :=
  if sixteen : (bytes.take 16).length = 16 then
    .ok (⟨bytes.take 16, sixteen⟩, bytes.drop 16)
  else .error (.truncated .id)

/-- Read a message from the front of a byte string, leaving the rest. -/
def decode (bytes : Bytes) : Except DecodeError (Message × Bytes) := do
  let (id, rest) ← readId bytes
  let (topic, rest) ← readText .topic 2 rest
  let (partition, rest) ← required (.truncated .offset) (Bytes.word? 4 rest)
  let (offset, rest) ← required (.truncated .offset) (Bytes.word? 8 rest)
  let (key, rest) ← readText .key 4 rest
  let (producer, rest) ← readText .producer 2 rest
  let (payload, rest) ← readContent .payload 4 rest
  let message := {
    id := id
    topic := topic
    partition := .ofNat partition
    offset := .ofNat offset
    key := key
    payload := payload
    producer := producer : Message }
  return (message, rest)

theorem length_layout (message : Message) :
    message.layout.length = message.encodedSize := by
  simp [layout, prefixed, encodedSize, overhead, Bytes.length_ofText,
    message.id.length_bytes]
  omega

end Message

end MessageBroker
