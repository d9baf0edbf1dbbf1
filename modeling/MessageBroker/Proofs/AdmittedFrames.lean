import MessageBroker.Proofs.FrameForm
import MessageBroker.Proofs.SoundLimits

/-!
# The frames of admitted messages

Sound limits leave room in a frame for one greatest message.  But how many bytes
a frame may have by the limits is one thing, and how many any frame has is
another: no body is longer than `maxBody`, whatever the limits say.  So every
message that sound limits admit has a byte form, and a frame around it is within
the limits, but there need not be such a frame.  There is one exactly when the
longest body has room for the message, and for all admitted messages exactly
when it has room for the greatest one.
-/

namespace MessageBroker

/-! ## Frames of batches -/

namespace Frame

theorem batchSize_singleton (message : Message) :
    batchSize [message] = 4 + message.encodedSize := by
  rw [batchSize_eq, List.map_cons, List.map_nil, List.sum_singleton]

end Frame

theorem Request.length_body_replicate (messages : List Message) :
    (Request.replicate messages).body.length =
      Limits.batchOverhead + (messages.map Message.encodedSize).sum := by
  rw [body, List.length_cons, length_layout, size, Frame.batchSize_eq,
    Limits.batchOverhead]
  omega

theorem Response.length_body_batch (messages : List Message) :
    (Response.batch messages).body.length =
      Limits.batchOverhead + (messages.map Message.encodedSize).sum := by
  rw [body, List.length_cons, length_layout, size, Frame.batchSize_eq,
    Limits.batchOverhead]
  omega

theorem Request.length_body_single (message : Message) :
    (Request.replicate [message]).body.length =
      message.encodedSize + Limits.batchOverhead := by
  rw [length_body_replicate, List.map_singleton, List.sum_singleton,
    Nat.add_comm]

theorem Response.length_body_single (message : Message) :
    (Response.batch [message]).body.length =
      message.encodedSize + Limits.batchOverhead := by
  rw [length_body_batch, List.map_singleton, List.sum_singleton, Nat.add_comm]

namespace Message

/-- A message can be sent to a peer and be served to one. -/
def HasFrames (message : Message) : Prop :=
  (∃ frame, (Request.replicate [message]).encode = .ok frame) ∧
    ∃ frame, (Response.batch [message]).encode = .ok frame

theorem hasFrames_iff
    {message : Message}
    (fits : message.Fits) :
    message.HasFrames ↔
      message.encodedSize + Limits.batchOverhead ≤ Frame.maxBody := by
  have each : ∀ other ∈ [message], other.Fits := fun other inside => by
    rw [List.mem_singleton.1 inside]
    exact fits
  have request : (Request.replicate [message]).Fits := each
  have response : (Response.batch [message]).Fits := each
  unfold HasFrames
  rw [Request.faithful.exists_frame_iff request,
    Response.faithful.exists_frame_iff response, Request.length_body_single,
    Response.length_body_single, and_self]

end Message

namespace Limits

variable {limits : Limits}

/-- Under sound limits an admitted message is written in at most as many bytes
as the greatest one, and the body of a frame around it is within the limits.
The message has frames exactly when the longest body has room for it; and all
admitted messages have frames exactly when the longest body has room for the
greatest one. -/
theorem frames_of_admitted_iff (valid : limits.validate = .ok ()) :
    (∀ message, limits.checkMessage message = .ok () →
      message.encode = .ok message.layout ∧
      message.layout.length = message.encodedSize ∧
      message.encodedSize ≤ limits.messageBytes ∧
      (Request.replicate [message]).body.length ≤ limits.frameBytes.toNat ∧
      (Response.batch [message]).body.length ≤ limits.frameBytes.toNat ∧
      (message.HasFrames ↔
        message.encodedSize + batchOverhead ≤ Frame.maxBody)) ∧
    ((∀ message, limits.checkMessage message = .ok () → message.HasFrames) ↔
      limits.messageBytes + batchOverhead ≤ Frame.maxBody) := by
  have sound := validate_eq_ok_iff.1 valid
  constructor
  · intro message admitted
    have admits := checkMessage_eq_ok_iff.1 admitted
    have fits := sound.fits admits
    have small := admits.encodedSize_le
    have within : message.encodedSize + batchOverhead ≤
        limits.frameBytes.toNat :=
      Nat.le_trans (Nat.add_le_add_right small batchOverhead) sound.frame
    refine ⟨Message.encode_eq_ok_iff.2 ⟨fits, rfl⟩, message.length_layout,
      small, ?_, ?_,
      Message.hasFrames_iff fits⟩
    · rw [Request.length_body_single]
      exact within
    · rw [Response.length_body_single]
      exact within
  · constructor
    · intro framed
      have greatest := limits.admits_greatestMessage
      have has :=
        framed limits.greatestMessage (checkMessage_eq_ok_iff.2 greatest)
      rw [Message.hasFrames_iff (sound.fits greatest),
        encodedSize_greatestMessage] at has
      exact has
    · intro room message admitted
      have admits := checkMessage_eq_ok_iff.1 admitted
      rw [Message.hasFrames_iff (sound.fits admits)]
      exact Nat.le_trans
        (Nat.add_le_add_right admits.encodedSize_le batchOverhead) room

/-- Under the limits that a node has unless it is given others, every admitted
message has frames. -/
theorem frames_of_admitted_iff_default :
    ({} : Limits).validate = .ok () ∧
    ∀ message, ({} : Limits).checkMessage message = .ok () →
      message.HasFrames := by
  have valid : ({} : Limits).validate = .ok () := rfl
  exact ⟨valid, (frames_of_admitted_iff valid).2.2 (by decide)⟩

/-- Limits that admit payloads as long as the longest body. -/
def generous : Limits where
  payloadBytes := 67108864
  frameBytes := 134217728

/-- A message with such a payload. -/
def bulky : Message where
  topic := "t"
  payload := List.replicate 67108864 0x78

/-- Sound limits admit a message for which there is no frame, neither to send it
to a peer nor to serve it to one. -/
theorem admitted_without_frames :
    generous.validate = .ok () ∧
    generous.checkMessage bulky = .ok () ∧
    ¬ bulky.HasFrames ∧
    (Request.replicate [bulky]).encode = .error (.tooLarge 67108910) ∧
    (Response.batch [bulky]).encode = .error (.tooLarge 67108910) := by
  have valid : generous.validate = .ok () := rfl
  have payload : bulky.payload.length = 67108864 := List.length_replicate
  have size : bulky.encodedSize = 67108905 := by
    rw [Message.encodedSize, payload]
    rfl
  have admits : generous.Admits bulky :=
    ⟨Nat.le_of_eq payload, Nat.zero_le _, Nat.zero_le _, by decide⟩
  have fits : bulky.Fits := (validate_eq_ok_iff.1 valid).fits admits
  have checked : Frame.checkBatch [bulky] = .ok () :=
    Frame.checkBatch_eq_ok_iff.2 (by simpa using fits)
  have large : Frame.batchSize [bulky] = 67108909 := by
    rw [Frame.batchSize_singleton, size]
  refine ⟨valid, checkMessage_eq_ok_iff.2 admits, ?_, ?_, ?_⟩
  · rw [Message.hasFrames_iff fits, size]
    decide
  · rw [Request.encode, Request.check, checked, ok_bind, Request.size, large,
      Frame.enclose, if_pos (by decide)]
  · rw [Response.encode, Response.check, checked, ok_bind, Response.size, large,
      Frame.enclose, if_pos (by decide)]

end Limits

end MessageBroker
