import MessageBroker.Frame
import MessageBroker.Response

/-!
# The frames of responses

Tags of responses are apart from those of requests, and a failure carries its
words.
-/

namespace MessageBroker.Response

/-- The tag of each kind. -/
def tag : Response → UInt8
  | .ack _ => 64
  | .batch _ => 65
  | .pong => 66
  | .failure _ => 127

/-- Every field has a byte form; the first one that has none is reported. -/
def check : Response → Except FrameError Unit
  | .batch messages => Frame.checkBatch messages
  | _ => .ok ()

/-- The size of the fields. -/
def size : Response → Nat
  | .ack _ => 8
  | .batch messages => Frame.batchSize messages
  | .pong => 0
  | .failure message => 4 + message.utf8ByteSize

/-- The fields in writing order. -/
def layout : Response → Bytes
  | .ack counts =>
      Bytes.littleEndian 4 counts.applied.toNat ++ Bytes.littleEndian 4
        counts.duplicates.toNat
  | .batch messages => Frame.batchLayout messages
  | .pong => []
  | .failure message => Message.prefixed 4 (Bytes.ofText message)

/-- The frame of a response. -/
def encode (response : Response) : Except FrameError Bytes := do
  response.check
  Frame.enclose response.tag response.size fun _ => response.layout

/-- Read the fields of an acknowledgement. -/
def readAck (fields : Bytes) : Except FrameError Response := do
  Frame.ensure 8 fields
  let (applied, rest) ← Frame.word 4 fields
  let (duplicates, _) ← Frame.word 4 rest
  return .ack ⟨.ofNat applied, .ofNat duplicates⟩

/-- Read the fields of a response with a given tag. -/
def ofFields (tag : UInt8) (fields : Bytes) : Except FrameError Response :=
  if tag = 64 then readAck fields
  else if tag = 65 then (Frame.batch fields).map .batch
  else if tag = 66 then .ok .pong
  else if tag = 127 then
    (Frame.text "error" 4 fields).map fun found => .failure found.1
  else .error (.unknownTag tag)

/-- Read a response from the front of a byte string, leaving the rest. -/
def decode (bytes : Bytes) : Except FrameError (Response × Bytes) := do
  let found ← Frame.find bytes
  return (← ofFields found.tag found.fields, found.rest)

end MessageBroker.Response
