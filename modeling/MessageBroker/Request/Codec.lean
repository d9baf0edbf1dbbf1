import MessageBroker.Frame
import MessageBroker.Request

/-!
# The frames of requests

A request for a window always has room for the offset to stop before; a byte in
front of it says whether it counts.
-/

namespace MessageBroker.Request

/-- The tag of each kind. -/
def tag : Request → UInt8
  | .replicate _ => 1
  | .range .. => 2
  | .ping => 3

/-- Every field has a byte form; the first one that has none is reported. -/
def check : Request → Except FrameError Unit
  | .replicate batch => Frame.checkBatch batch
  | .range home _ =>
      match Message.checkLength .topic 2 home.topic.utf8ByteSize with
      | .ok () => .ok ()
      | .error oversized => .error (.unencodable oversized)
  | .ping => .ok ()

/-- The bytes that follow a window's topic. -/
def windowSize : Nat := 4 + 8 + 1 + 8

/-- The size of the fields. -/
def size : Request → Nat
  | .replicate batch => Frame.batchSize batch
  | .range home _ => 2 + home.topic.utf8ByteSize + windowSize
  | .ping => 0

/-- The fields in writing order. -/
def layout : Request → Bytes
  | .replicate batch => Frame.batchLayout batch
  | .range home window =>
      Message.prefixed 2 (Bytes.ofText home.topic)
        ++ Bytes.littleEndian 4 home.partition.toNat
        ++ Bytes.littleEndian 8 window.start.toNat
        ++ Bytes.littleEndian 1 (if window.stop.isSome then 1 else 0)
        ++ Bytes.littleEndian 8 (window.stop.getD 0).toNat
  | .ping => []

/-- The frame of a request. -/
def encode (request : Request) : Except FrameError Bytes := do
  request.check
  Frame.enclose request.tag request.size fun _ => request.layout

/-- Read the fields of a request for a window. -/
def readRange (fields : Bytes) : Except FrameError Request := do
  let (topic, rest) ← Frame.text "topic" 2 fields
  Frame.ensure windowSize rest
  let (partition, rest) ← Frame.word 4 rest
  let (start, rest) ← Frame.word 8 rest
  let (bounded, rest) ← Frame.word 1 rest
  let (stop, _) ← Frame.word 8 rest
  let stop := if bounded = 0 then none else some (.ofNat stop)
  return .range ⟨topic, .ofNat partition⟩ ⟨.ofNat start, stop⟩

/-- Read the fields of a request with a given tag. -/
def ofFields (tag : UInt8) (fields : Bytes) : Except FrameError Request :=
  if tag = 1 then (Frame.batch fields).map .replicate
  else if tag = 2 then readRange fields
  else if tag = 3 then .ok .ping
  else .error (.unknownTag tag)

/-- Read a request from the front of a byte string, leaving the rest. -/
def decode (bytes : Bytes) : Except FrameError (Request × Bytes) := do
  let found ← Frame.find bytes
  return (← ofFields found.tag found.fields, found.rest)

/-- What follows a request is shorter than the whole. -/
theorem length_lt_of_decode
    {bytes rest : Bytes}
    {request : Request}
    (read : decode bytes = .ok (request, rest)) :
    rest.length < bytes.length := by
  unfold decode at read
  cases sought : Frame.find bytes with
  | error fault => simp [sought, bind, Except.bind] at read
  | ok found =>
      cases fields : ofFields found.tag found.fields with
      | error fault => simp [sought, fields, bind, Except.bind] at read
      | ok request =>
          simp only [sought, fields, bind, Except.bind, pure, Except.pure]
            at read
          cases read
          have whole := Frame.length_of_find sought
          omega

end MessageBroker.Request
