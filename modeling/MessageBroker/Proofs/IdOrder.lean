import MessageBroker.Proofs.KeyLayout

/-!
# The order of ids

Ids are ordered as their bytes.  Their texts are ordered the same way: a byte's
two digits are in the order of the byte, and the hyphens stand at the same
places in all texts.  So the deliveries of one queue are scanned in the order of
their ids.
-/

namespace MessageBroker

/-! ## Digits -/

namespace Hex

/-- The byte of the digit of a number below sixteen. -/
def digitByte (value : Nat) : UInt8 :=
  .ofNat (if value < 10 then 48 + value else 87 + value)

theorem utf8EncodeChar_digit
    {value : Nat}
    (small : value < 16) :
    String.utf8EncodeChar (digit value) = [digitByte value] := by
  have every : ∀ value < 16,
      String.utf8EncodeChar (digit value) = [digitByte value] := by
    decide
  exact every value small

theorem digitByte_lt_iff
    {first second : Nat}
    (small : first < 16)
    (small' : second < 16) :
    digitByte first < digitByte second ↔ first < second := by
  have every : ∀ first < 16, ∀ second < 16,
      digitByte first < digitByte second ↔ first < second := by decide
  exact every first small second small'

theorem digitByte_inj
    {first second : Nat}
    (small : first < 16)
    (small' : second < 16) :
    digitByte first = digitByte second ↔ first = second := by
  have every : ∀ first < 16, ∀ second < 16,
      digitByte first = digitByte second ↔ first = second := by decide
  exact every first small second small'

/-- The digits of a byte string as bytes. -/
def spelled (bytes : Bytes) : Bytes :=
  (encode bytes).flatMap String.utf8EncodeChar

theorem spelled_cons
    (byte : UInt8)
    (rest : Bytes) :
    spelled (byte :: rest) =
      digitByte (byte.toNat / 16) :: digitByte (byte.toNat % 16) ::
        spelled rest := by
  have small : byte.toNat < 256 := byte.toNat_lt
  rw [spelled, encode, List.flatMap_cons, List.flatMap_cons,
    utf8EncodeChar_digit (by omega), utf8EncodeChar_digit (by omega)]
  rfl

theorem length_spelled (bytes : Bytes) :
    (spelled bytes).length = 2 * bytes.length := by
  induction bytes with
  | nil => rfl
  | cons byte rest step =>
      rw [spelled_cons, List.length_cons, List.length_cons, List.length_cons,
        step]
      omega

/-- Digits are in the order of the bytes that they spell. -/
theorem spelled_lt_iff
    {first second : Bytes}
    (lengths : first.length = second.length) :
    spelled first < spelled second ↔ first < second := by
  induction first generalizing second with
  | nil =>
      rw [List.length_eq_zero_iff.1 lengths.symm]
      exact iff_of_false (List.lt_irrefl _) (List.lt_irrefl _)
  | cons byte rest step =>
      obtain ⟨byte', rest', rfl⟩ :=
        List.exists_cons_of_length_eq_add_one lengths.symm
      have tails : rest.length = rest'.length := by simpa using lengths
      have small : byte.toNat < 256 := byte.toNat_lt
      have small' : byte'.toNat < 256 := byte'.toNat_lt
      have high : byte.toNat / 16 < 16 := by omega
      have high' : byte'.toNat / 16 < 16 := by omega
      have low : byte.toNat % 16 < 16 := by omega
      have low' : byte'.toNat % 16 < 16 := by omega
      rw [spelled_cons, spelled_cons, List.cons_lt_cons_iff,
        List.cons_lt_cons_iff, List.cons_lt_cons_iff,
        digitByte_lt_iff high high', digitByte_inj high high',
        digitByte_lt_iff low low', digitByte_inj low low', step tails,
        UInt8.lt_iff_toNat_lt, ← UInt8.toNat_inj]
      constructor
      · rintro (less | ⟨same, less | ⟨again, less⟩⟩)
        · exact .inl (by omega)
        · exact .inl (by omega)
        · exact .inr ⟨by omega, less⟩
      · rintro (less | ⟨same, less⟩)
        · by_cases halves : byte.toNat / 16 < byte'.toNat / 16
          · exact .inl halves
          · exact .inr ⟨by omega, .inl (by omega)⟩
        · exact .inr ⟨by rw [same], .inr ⟨by rw [same], less⟩⟩

theorem spelled_inj
    {first second : Bytes}
    (lengths : first.length = second.length) :
    spelled first = spelled second ↔ first = second := by
  constructor
  · intro same
    rcases Bytes.lt_trichotomy first second with less | equal | more
    · have impossible := (spelled_lt_iff lengths).2 less
      exact absurd (same ▸ impossible) (List.lt_irrefl _)
    · exact equal
    · have impossible := (spelled_lt_iff lengths.symm).2 more
      exact absurd (same ▸ impossible) (List.lt_irrefl _)
  · rintro rfl
    rfl

/-- The digits of the first bytes are the first digits. -/
theorem take_encode
    (count : Nat)
    (bytes : Bytes) :
    (encode bytes).take (2 * count) = encode (bytes.take count) := by
  induction bytes generalizing count with
  | nil => simp [encode]
  | cons byte rest step =>
      cases count with
      | zero => rfl
      | succ count =>
          rw [Nat.mul_succ, encode, List.take_succ_cons, List.take_succ_cons,
            step, List.take_succ_cons, encode]

theorem drop_encode
    (count : Nat)
    (bytes : Bytes) :
    (encode bytes).drop (2 * count) = encode (bytes.drop count) := by
  induction bytes generalizing count with
  | nil => simp [encode]
  | cons byte rest step =>
      cases count with
      | zero => rfl
      | succ count =>
          rw [Nat.mul_succ, encode, List.drop_succ_cons, List.drop_succ_cons,
            step, List.drop_succ_cons]

end Hex

/-! ## Texts -/

namespace MessageId

instance : LT MessageId where
  lt first second := first.bytes < second.bytes

theorem lt_iff {first second : MessageId} :
    first < second ↔ first.bytes < second.bytes :=
  Iff.rfl

instance : DecidableLT MessageId := fun first second =>
  decidable_of_iff (first.bytes < second.bytes) Iff.rfl

instance : StrictOrder MessageId where
  irrefl first := List.lt_irrefl first.bytes
  trans lower upper := List.lt_trans lower upper
  trichotomy first second :=
    (Bytes.lt_trichotomy first.bytes second.bytes).imp_right
      fun other => other.imp_left ext

/-- The byte of a hyphen. -/
def hyphen : UInt8 := 0x2d

/-- Digits, then a hyphen and a rest in the order of some bytes, are in the
order of all the bytes. -/
theorem spelled_hyphen_lt_iff
    {front front' rest rest' tail tail' : Bytes}
    (lengths : front.length = front'.length)
    (ordered : tail < tail' ↔ rest < rest') :
    Hex.spelled front ++ hyphen :: tail <
        Hex.spelled front' ++ hyphen :: tail' ↔
      front ++ rest < front' ++ rest' := by
  have spelledLengths : (Hex.spelled front).length =
      (Hex.spelled front').length := by
    rw [Hex.length_spelled, Hex.length_spelled, lengths]
  rw [Bytes.append_lt_append_iff spelledLengths,
    Bytes.append_lt_append_iff lengths, Hex.spelled_lt_iff lengths,
    Hex.spelled_inj lengths, List.cons_lt_cons_iff, ordered]
  simp

/-- The five groups of a text. -/
theorem ofText_text (id : MessageId) :
    Bytes.ofText id.text =
      Hex.spelled (id.bytes.take 4) ++ hyphen ::
        (Hex.spelled ((id.bytes.drop 4).take 2) ++ hyphen ::
          (Hex.spelled ((id.bytes.drop 6).take 2) ++ hyphen ::
            (Hex.spelled ((id.bytes.drop 8).take 2) ++ hyphen ::
              Hex.spelled (id.bytes.drop 10)))) := by
  have dash : String.utf8EncodeChar '-' = [hyphen] := by decide
  have first := Hex.take_encode 4 id.bytes
  have second := Hex.drop_encode 4 id.bytes
  have third := Hex.drop_encode 6 id.bytes
  have fourth := Hex.drop_encode 8 id.bytes
  have fifth := Hex.drop_encode 10 id.bytes
  have pair : ∀ bytes, (Hex.encode bytes).take 4 = Hex.encode (bytes.take 2) :=
    Hex.take_encode 2
  rw [text, Bytes.ofText_ofList, chars, grouped]
  simp only [Nat.reduceMul] at first second third fourth fifth
  rw [first, second, third, fourth, fifth, pair, pair, pair]
  simp only [List.flatMap_append, List.flatMap_cons, dash, List.append_assoc,
    List.cons_append, List.nil_append, Hex.spelled]

/-- Texts are in the order of ids. -/
theorem text_lt_iff {first second : MessageId} :
    Bytes.ofText first.text < Bytes.ofText second.text ↔ first < second := by
  have groups : ∀ id : MessageId, id.bytes =
      id.bytes.take 4 ++
        ((id.bytes.drop 4).take 2 ++
          ((id.bytes.drop 6).take 2 ++
            ((id.bytes.drop 8).take 2 ++ id.bytes.drop 10))) := by
    intro id
    simp only [← List.append_assoc, ← List.take_add, List.take_append_drop]
  have length := first.length_bytes
  have length' := second.length_bytes
  rw [ofText_text, ofText_text, lt_iff]
  conv => rhs; rw [groups first, groups second]
  refine spelled_hyphen_lt_iff (by simp [length, length']) ?_
  refine spelled_hyphen_lt_iff (by simp [length, length']) ?_
  refine spelled_hyphen_lt_iff (by simp [length, length']) ?_
  refine spelled_hyphen_lt_iff (by simp [length, length']) ?_
  exact Hex.spelled_lt_iff (by simp [length, length'])

end MessageId

/-- The deliveries of one queue are scanned in the order of their ids. -/
theorem Key.expiry_bytes_lt_iff
    {queue : String}
    {first second : MessageId} :
    (Key.expiry queue first).bytes < (Key.expiry queue second).bytes ↔
      first < second := by
  have layout : ∀ id, (Key.expiry queue id).bytes =
      Bytes.ofText (Key.expiriesOf queue) ++ Bytes.ofText id.text := by
    intro id
    simp [Key.bytes, Key.text]
  rw [layout, layout, Bytes.append_lt_append_left_iff, MessageId.text_lt_iff]

end MessageBroker
