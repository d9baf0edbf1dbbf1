import MessageBroker.Message.Codec

/-!
# Frames

Requests and responses travel as frames: the length of the body in four bytes,
then the body, whose first byte is the tag of its kind.  No body is longer than
`maxBody`.

Bytes that are not a whole frame yet are `incomplete`, and so are an empty body
and a body that ends within its fields.
-/

namespace MessageBroker

/-- Why bytes are no frame, or a value has no frame. -/
inductive FrameError where
  /-- The body is longer than a frame may have. -/
  | tooLarge (size : Nat)
  /-- There is no kind with this tag. -/
  | unknownTag (tag : UInt8)
  /-- Bytes are missing. -/
  | incomplete (needed found : Nat)
  /-- A text is not UTF-8. -/
  | invalidText (field : String)
  /-- A message in the body does not read. -/
  | undecodable (fault : Message.DecodeError)
  /-- A field is too long for its byte form. -/
  | unencodable (oversized : Oversized)
  deriving DecidableEq

namespace Frame

/-- The bytes of a length. -/
def headerSize : Nat := 4

/-- The bytes of the longest body. -/
def maxBody : Nat := 67108864

end Frame

/-- The wording of a frame error. -/
def FrameError.message : FrameError → String
  | .tooLarge size => s!"message too large: {size} bytes (max {Frame.maxBody})"
  | .unknownTag tag => s!"unknown message type: {tag}"
  | .incomplete needed found =>
      s!"insufficient data: need {needed} bytes, have {found}"
  | .invalidText field => s!"invalid UTF-8 in field {field}"
  | .undecodable fault => s!"invalid message: {fault.message}"
  | .unencodable oversized => s!"unencodable field: {oversized.message}"

namespace Frame

/-! ## Whole frames -/

/-- A frame found at the front of a byte string. -/
structure Found where
  /-- The tag of its kind. -/
  tag : UInt8
  /-- The rest of its body. -/
  fields : Bytes
  /-- What follows the frame. -/
  rest : Bytes

/-- Find the frame at the front of a byte string. -/
def find (bytes : Bytes) : Except FrameError Found :=
  match bytes.word? headerSize with
  | none => .error (.incomplete headerSize bytes.length)
  | some (size, following) =>
      if maxBody < size then .error (.tooLarge size)
      else if size = 0 then .error (.incomplete 1 0)
      else match Bytes.split? size following with
        | some (tag :: fields, rest) => .ok ⟨tag, fields, rest⟩
        | _ => .error (.incomplete (headerSize + size) bytes.length)

/-- The frame with a tag and fields of a given size. -/
def enclose
    (tag : UInt8)
    (size : Nat)
    (fields : Unit → Bytes) :
    Except FrameError Bytes :=
  if maxBody < size + 1 then .error (.tooLarge (size + 1))
  else .ok (Bytes.littleEndian headerSize (size + 1) ++ tag :: fields ())

/-- What is found makes up the bytes. -/
theorem length_of_find
    {bytes : Bytes}
    {found : Found}
    (read : find bytes = .ok found) :
    bytes.length =
      headerSize + (1 + found.fields.length) + found.rest.length := by
  unfold find at read
  split at read
  · cases read
  · rename_i size following header
    obtain ⟨_, rfl⟩ := Bytes.word?_eq_some_iff.1 header
    split at read
    · cases read
    · split at read
      · cases read
      · split at read
        · rename_i tag fields rest cut
          obtain ⟨_, rfl⟩ := Bytes.split?_eq_some_iff.1 cut
          cases read
          simp
          omega
        · cases read

/-- Read at most `most` values, one after the other, until the bytes end or do
not read, the values already read being in `read`, last one first. -/
def readUpTo
    {α : Type}
    (decode : Bytes → Except FrameError (α × Bytes))
    (read : List α) :
    (most : Nat) → Bytes → List α × Bytes × Option FrameError
  | 0, bytes => (read.reverse, bytes, none)
  | most + 1, bytes =>
      if bytes.isEmpty then (read.reverse, [], none)
      else match decode bytes with
        | .error fault => (read.reverse, bytes, some fault)
        | .ok (value, rest) => readUpTo decode (value :: read) most rest

/-- Read values until the bytes end or do not read; the values, what was not
read, and why not.  No value takes less than a byte, so there are no more values
than bytes. -/
def readAll
    {α : Type}
    (decode : Bytes → Except FrameError (α × Bytes))
    (bytes : Bytes) :
    List α × Bytes × Option FrameError :=
  readUpTo decode [] bytes.length bytes

/-! ## Fields -/

/-- At least so many bytes are left. -/
def ensure (needed : Nat) (bytes : Bytes) : Except FrameError Unit :=
  if bytes.length < needed then .error (.incomplete needed bytes.length)
  else .ok ()

/-- So many bytes and what follows them. -/
def take (needed : Nat) (bytes : Bytes) : Except FrameError (Bytes × Bytes) :=
  match Bytes.split? needed bytes with
  | some parts => .ok parts
  | none => .error (.incomplete needed bytes.length)

/-- A word of so many bytes and what follows it. -/
def word (width : Nat) (bytes : Bytes) : Except FrameError (Nat × Bytes) :=
  match bytes.word? width with
  | some read => .ok read
  | none => .error (.incomplete width bytes.length)

/-- A text after its length and what follows it. -/
def text
    (field : String)
    (width : Nat)
    (bytes : Bytes) :
    Except FrameError (String × Bytes) := do
  let (size, rest) ← word width bytes
  let (content, rest) ← take size rest
  match Bytes.toText? content with
  | some text => return (text, rest)
  | none => .error (.invalidText field)

/-! ## Batches -/

/-- The size of a batch: its count and its messages. -/
def batchSize (batch : List Message) : Nat :=
  batch.foldl (fun size message => size + message.encodedSize) 4

/-- Every message of a batch has a byte form; the first one that has none is
reported. -/
def checkBatch : List Message → Except FrameError Unit
  | [] => .ok ()
  | message :: rest =>
      match message.checkLengths with
      | .ok () => checkBatch rest
      | .error oversized => .error (.unencodable oversized)

/-- The byte form of a batch. -/
def batchLayout (batch : List Message) : Bytes :=
  Bytes.littleEndian 4 batch.length ++ batch.flatMap Message.layout

/-- So many messages more, the last one already read being the first of
`read`. -/
def messages (read : List Message) :
    Nat → Bytes → Except FrameError (List Message)
  | 0, _ => .ok read.reverse
  | count + 1, bytes =>
      match Message.decode bytes with
      | .ok (message, rest) => messages (message :: read) count rest
      | .error fault => .error (.undecodable fault)

/-- A batch. -/
def batch (bytes : Bytes) : Except FrameError (List Message) := do
  let (count, rest) ← word 4 bytes
  messages [] count rest

end Frame

end MessageBroker
