import MessageBroker.Limits
import MessageBroker.Proofs.MessageForm

/-!
# Sound limits and what they admit

Limits are validated one after the other and the first unsound one is reported,
so they pass exactly when all of them are sound.  A message is checked in the
same way, field by field.

Under sound limits every field of an admitted message fits the length in front
of it: topics and producers because their limits are held to sixteen bits, keys
and payloads because a limit has no more than thirty-two.  The greatest message
that limits admit is as large as they say.
-/

namespace MessageBroker.Limits

variable {limits : Limits} {message : Message}

/-! ## Validation -/

/-- Texts fit their lengths, a frame holds one greatest message, and nothing
that has to be positive is zero. -/
structure Sound (limits : Limits) : Prop where
  payload : limits.payloadBytes ≠ 0
  producer : limits.producerBytes.toNat ≤ 65535
  name : limits.nameBytes.toNat ≤ 65535
  frame : limits.messageBytes + batchOverhead ≤ limits.frameBytes.toNat
  partitions : limits.partitions ≠ 0
  batch : limits.batchMessages ≠ 0
  range : limits.rangeMessages ≠ 0

theorem validate_eq_ok_iff : limits.validate = .ok () ↔ limits.Sound := by
  have long : ∀ limit : UInt32, 65535 < limit ↔ 65535 < limit.toNat :=
    fun _ => UInt32.lt_iff_toNat_lt
  unfold validate
  simp only [long]
  constructor
  · intro passes
    split at passes
    · cases passes
    rename_i payload
    split at passes
    · cases passes
    rename_i lengths
    split at passes
    · cases passes
    rename_i frame
    split at passes
    · cases passes
    rename_i partitions
    split at passes
    · cases passes
    rename_i counts
    obtain ⟨producer, name⟩ := not_or.1 lengths
    obtain ⟨batch, range⟩ := not_or.1 counts
    exact ⟨payload, Nat.le_of_not_lt producer, Nat.le_of_not_lt name,
      Nat.le_of_not_lt frame, partitions, batch, range⟩
  · intro sound
    have lengths : ¬ (65535 < limits.producerBytes.toNat ∨
        65535 < limits.nameBytes.toNat) :=
      not_or.2 ⟨Nat.not_lt.2 sound.producer, Nat.not_lt.2 sound.name⟩
    have counts : ¬ (limits.batchMessages = 0 ∨ limits.rangeMessages = 0) :=
      not_or.2 ⟨sound.batch, sound.range⟩
    rw [if_neg sound.payload, if_neg lengths, if_neg (Nat.not_lt.2 sound.frame),
      if_neg sound.partitions, if_neg counts]

theorem toNat_pos {limit : UInt32} (positive : limit ≠ 0) : 0 < limit.toNat :=
  Nat.pos_of_ne_zero fun zero => positive (UInt32.toNat_inj.1 zero)

theorem rangeMessages_pos (valid : limits.validate = .ok ()) :
    0 < limits.rangeMessages.toNat :=
  toNat_pos (validate_eq_ok_iff.1 valid).range

theorem batchMessages_pos (valid : limits.validate = .ok ()) :
    0 < limits.batchMessages.toNat :=
  toNat_pos (validate_eq_ok_iff.1 valid).batch

/-! ## Admission -/

theorem checkField_eq_ok_iff
    {field : String}
    {size : Nat}
    {limit : UInt32} :
    checkField field size limit = .ok () ↔ size ≤ limit.toNat := by
  unfold checkField
  split
  · rename_i large
    simp [Nat.not_le_of_lt large]
  · rename_i small
    simp [Nat.le_of_not_lt small]

/-- Every field of a message is within its limit. -/
structure Admits (limits : Limits) (message : Message) : Prop where
  payload : message.payload.length ≤ limits.payloadBytes.toNat
  key : message.key.utf8ByteSize ≤ limits.keyBytes.toNat
  producer : message.producer.utf8ByteSize ≤ limits.producerBytes.toNat
  topic : message.topic.utf8ByteSize ≤ limits.nameBytes.toNat

theorem checkMessage_eq_ok_iff :
    limits.checkMessage message = .ok () ↔ limits.Admits message := by
  unfold checkMessage
  constructor
  · intro passes
    obtain ⟨⟨⟩, payload, passes⟩ := bind_eq_ok_iff.1 passes
    obtain ⟨⟨⟩, key, passes⟩ := bind_eq_ok_iff.1 passes
    obtain ⟨⟨⟩, producer, topic⟩ := bind_eq_ok_iff.1 passes
    exact ⟨checkField_eq_ok_iff.1 payload, checkField_eq_ok_iff.1 key,
      checkField_eq_ok_iff.1 producer, checkField_eq_ok_iff.1 topic⟩
  · intro admits
    rw [checkField_eq_ok_iff.2 admits.payload, ok_bind,
      checkField_eq_ok_iff.2 admits.key, ok_bind,
      checkField_eq_ok_iff.2 admits.producer, ok_bind,
      checkField_eq_ok_iff.2 admits.topic]

/-- Under sound limits, an admitted message has a byte form. -/
theorem Sound.fits
    (sound : limits.Sound)
    (admits : limits.Admits message) :
    message.Fits := by
  have key := limits.keyBytes.toNat_lt
  have payload := limits.payloadBytes.toNat_lt
  exact Message.fits_iff.2 ⟨Nat.le_trans admits.topic sound.name,
    Nat.le_trans admits.producer sound.producer,
    Nat.le_trans admits.key (Nat.le_of_lt_succ key),
    Nat.le_trans admits.payload (Nat.le_of_lt_succ payload)⟩

theorem Admits.encodedSize_le (admits : limits.Admits message) :
    message.encodedSize ≤ limits.messageBytes := by
  obtain ⟨payload, key, producer, topic⟩ := admits
  unfold Message.encodedSize messageBytes
  omega

/-- A message that is as large as every limit allows. -/
def greatestMessage (limits : Limits) : Message where
  topic := String.ofList (List.replicate limits.nameBytes.toNat 'a')
  key := String.ofList (List.replicate limits.keyBytes.toNat 'a')
  producer := String.ofList (List.replicate limits.producerBytes.toNat 'a')
  payload := List.replicate limits.payloadBytes.toNat 0

theorem utf8ByteSize_replicate (count : Nat) :
    (String.ofList (List.replicate count 'a')).utf8ByteSize = count := by
  induction count with
  | zero => rfl
  | succ count step =>
      rw [List.replicate_succ, String.ofList_cons, String.utf8ByteSize_append,
        step]
      exact Nat.add_comm 1 count

theorem admits_greatestMessage (limits : Limits) :
    limits.Admits limits.greatestMessage := by
  constructor <;> simp [greatestMessage, utf8ByteSize_replicate]

theorem encodedSize_greatestMessage (limits : Limits) :
    limits.greatestMessage.encodedSize = limits.messageBytes := by
  simp [Message.encodedSize, messageBytes, greatestMessage,
    utf8ByteSize_replicate]

end MessageBroker.Limits
