import MessageBroker.Keyspace.Record
import MessageBroker.Proofs.Attempts

/-!
# Messages read back as they were written

The byte form of a message reads back as that message, whatever follows it, once
every field fits its length.  So does the stored form, which is written in no
other case.
-/

namespace MessageBroker

namespace Message

/-! ## Lengths -/

theorem checkLength_eq_ok_iff
    {field : Field}
    {width size : Nat} :
    checkLength field width size = .ok () ↔ size ≤ maxLength width := by
  unfold checkLength
  split <;> simp_all

theorem capacity_pos (width : Nat) : 0 < Bytes.capacity width := by
  induction width with
  | zero => exact Nat.one_pos
  | succ width step => exact Nat.mul_pos (by decide) step

theorem lt_capacity_of_le
    {width size : Nat}
    (fits : size ≤ maxLength width) :
    size < Bytes.capacity width := by
  have positive := capacity_pos width
  rw [maxLength] at fits
  omega

/-- Every field of a message fits its length. -/
structure Fits (message : Message) : Prop where
  topic : message.topic.utf8ByteSize ≤ maxLength 2
  key : message.key.utf8ByteSize ≤ maxLength 4
  producer : message.producer.utf8ByteSize ≤ maxLength 2
  payload : message.payload.length ≤ maxLength 4

theorem fits_iff {message : Message} :
    message.Fits ↔
      message.topic.utf8ByteSize ≤ 65535 ∧
      message.producer.utf8ByteSize ≤ 65535 ∧
      message.key.utf8ByteSize ≤ 4294967295 ∧
      message.payload.length ≤ 4294967295 :=
  ⟨fun fits => ⟨fits.topic, fits.producer, fits.key, fits.payload⟩,
    fun ⟨topic, producer, key, payload⟩ => ⟨topic, key, producer, payload⟩⟩

instance (message : Message) : Decidable message.Fits :=
  decidable_of_iff' _ fits_iff

/-- An id takes its sixteen bytes whichever it is. -/
@[simp]
theorem fits_identified
    {message : Message}
    {fresh : FreshId} :
    (message.identified fresh).Fits ↔ message.Fits := by
  unfold identified
  split <;> simp only [fits_iff]

theorem checkLengths_eq_ok_iff {message : Message} :
    message.checkLengths = .ok () ↔ message.Fits := by
  unfold checkLengths
  constructor
  · intro checked
    obtain ⟨⟨⟩, topic, checked⟩ := bind_eq_ok_iff.1 checked
    obtain ⟨⟨⟩, key, checked⟩ := bind_eq_ok_iff.1 checked
    obtain ⟨⟨⟩, producer, payload⟩ := bind_eq_ok_iff.1 checked
    exact ⟨checkLength_eq_ok_iff.1 topic, checkLength_eq_ok_iff.1 key,
      checkLength_eq_ok_iff.1 producer, checkLength_eq_ok_iff.1 payload⟩
  · intro fits
    rw [checkLength_eq_ok_iff.2 fits.topic, checkLength_eq_ok_iff.2 fits.key,
      checkLength_eq_ok_iff.2 fits.producer,
      checkLength_eq_ok_iff.2 fits.payload]
    rfl

/-! ## Writing -/

/-- All lengths are checked before anything is written. -/
theorem write_run
    (message : Message)
    (buffer : Bytes) :
    message.write.run.run buffer =
      match message.checkLengths with
      | .ok () => (.ok (), buffer ++ message.layout)
      | .error oversized => (.error oversized, buffer) := by
  unfold write
  cases message.checkLengths <;> rfl

theorem encode_eq (message : Message) :
    message.encode = message.checkLengths.map fun _ => message.layout := by
  rw [encode, write_run]
  cases message.checkLengths <;> rfl

theorem encode_eq_ok_iff
    {message : Message}
    {bytes : Bytes} :
    message.encode = .ok bytes ↔ message.Fits ∧ bytes = message.layout := by
  rw [encode_eq, map_eq_ok_iff]
  constructor
  · rintro ⟨⟨⟩, checked, rfl⟩
    exact ⟨checkLengths_eq_ok_iff.1 checked, rfl⟩
  · rintro ⟨fits, rfl⟩
    exact ⟨(), checkLengths_eq_ok_iff.2 fits, rfl⟩

theorem encode_eq_error_iff_checkLengths
    {message : Message}
    {oversized : Oversized} :
    message.encode = .error oversized ↔
      message.checkLengths = .error oversized := by
  rw [encode_eq]
  cases message.checkLengths <;> simp [Except.map]

/-! ## Reading -/

theorem readId_append
    (id : MessageId)
    (rest : Bytes) :
    readId (id.bytes ++ rest) = .ok (id, rest) := by
  have front : (id.bytes ++ rest).take 16 = id.bytes := by
    rw [← id.length_bytes, List.take_left]
  have back : (id.bytes ++ rest).drop 16 = rest := by
    rw [← id.length_bytes, List.drop_left]
  have sixteen : ((id.bytes ++ rest).take 16).length = 16 := by
    rw [front, id.length_bytes]
  rw [readId, dif_pos sixteen]
  have same : (⟨(id.bytes ++ rest).take 16, sixteen⟩ : MessageId) = id :=
    MessageId.ext front
  rw [same, back]

theorem word?_littleEndian
    {width number : Nat}
    (small : number < Bytes.capacity width)
    (rest : Bytes) :
    Bytes.word? width (Bytes.littleEndian width number ++ rest) =
      some (number, rest) :=
  Bytes.word?_eq_some_iff.2 ⟨small, rfl⟩

theorem readContent_prefixed
    {field : Field}
    {width : Nat}
    {content : Bytes}
    (small : content.length < Bytes.capacity width)
    (rest : Bytes) :
    readContent field width (prefixed width content ++ rest) =
      .ok (content, rest) := by
  have cut : Bytes.split? content.length (content ++ rest) =
      some (content, rest) :=
    Bytes.split?_eq_some_iff.2 ⟨rfl, rfl⟩
  rw [readContent, prefixed, List.append_assoc, word?_littleEndian small]
  simp only [required, ok_bind, cut]

theorem readText_prefixed
    {field : Field}
    {width : Nat}
    {text : String}
    (small : text.utf8ByteSize < Bytes.capacity width)
    (rest : Bytes) :
    readText field width (prefixed width (Bytes.ofText text) ++ rest) =
      .ok (text, rest) := by
  rw [← Bytes.length_ofText] at small
  rw [readText, readContent_prefixed small]
  simp only [required, ok_bind, Bytes.toText?_ofText]
  rfl

/-- A message whose fields fit reads back, and what follows it is left. -/
theorem decode_layout
    {message : Message}
    (fits : message.Fits)
    (rest : Bytes) :
    decode (message.layout ++ rest) = .ok (message, rest) := by
  have partition : message.partition.toNat < Bytes.capacity 4 :=
    message.partition.toNat_lt
  have offset : message.offset.toNat < Bytes.capacity 8 :=
    message.offset.toNat_lt
  simp only [decode, layout, List.append_assoc, readId_append, ok_bind,
    required, readText_prefixed (lt_capacity_of_le fits.topic),
    word?_littleEndian partition, word?_littleEndian offset,
    readText_prefixed (lt_capacity_of_le fits.key),
    readText_prefixed (lt_capacity_of_le fits.producer),
    readContent_prefixed (lt_capacity_of_le fits.payload), UInt32.ofNat_toNat,
    UInt64.ofNat_toNat]
  rfl

end Message

namespace Record

theorem ofMessage_eq_ok_iff
    {message : Message}
    {value : Bytes} :
    ofMessage message = .ok value ↔
      message.Fits ∧ value = version :: message.layout := by
  unfold ofMessage
  split
  · rename_i bytes encoded
    obtain ⟨fits, rfl⟩ := Message.encode_eq_ok_iff.1 encoded
    simp [fits, eq_comm]
  · rename_i oversized refused
    constructor
    · intro done
      cases done
    · rintro ⟨fits, _⟩
      rw [Message.encode_eq_ok_iff.2 ⟨fits, rfl⟩] at refused
      cases refused

theorem ofMessage_identified
    {message : Message}
    (fits : message.Fits)
    (fresh : FreshId) :
    ofMessage (message.identified fresh) =
      .ok (version :: (message.identified fresh).layout) :=
  ofMessage_eq_ok_iff.2 ⟨Message.fits_identified.2 fits, rfl⟩

/-- A stored message reads back, whichever operation asks. -/
theorem toMessage_ofMessage
    {message : Message}
    {value : Bytes}
    (stored : ofMessage message = .ok value)
    (operation : String) :
    toMessage operation value = .ok message := by
  obtain ⟨fits, rfl⟩ := ofMessage_eq_ok_iff.1 stored
  have read := Message.decode_layout fits []
  rw [List.append_nil] at read
  simp only [toMessage, if_pos, read]

theorem ofCounter_inj {first second : UInt64} :
    ofCounter first = ofCounter second ↔ first = second := by
  constructor
  · intro same
    have read := toCounter_ofCounter "" first
    rw [same, toCounter_ofCounter] at read
    exact (Except.ok.inj read).symm
  · rintro rfl
    rfl

end Record

end MessageBroker
