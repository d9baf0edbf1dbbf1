import MessageBroker.MessageId

/-!
# The text of an id

The text of an id has no character but hexadecimal digits and hyphens, and it
reads back: its thirty-six characters spell no sixteen bytes as plain digits,
and its five groups do.
-/

namespace MessageBroker.MessageId

/-! ## Characters -/

theorem mem_encode_iff_digit
    {character : Char}
    {bytes : Bytes}
    (inside : character ∈ Hex.encode bytes) :
    ∃ value < 16, character = Hex.digit value := by
  induction bytes with
  | nil => simp [Hex.encode] at inside
  | cons byte rest step =>
      have small : byte.toNat < 256 := byte.toNat_lt
      rw [Hex.encode, List.mem_cons, List.mem_cons] at inside
      rcases inside with rfl | rfl | inside
      · exact ⟨_, by omega, rfl⟩
      · exact ⟨_, by omega, rfl⟩
      · exact step inside

theorem hex_ne
    {value : Nat}
    (small : value < 16) :
    Hex.digit value ≠ ':' ∧ Hex.digit value ≠ '-' ∧ Hex.digit value ≠ '+' := by
  have every : ∀ value < 16, Hex.digit value ≠ ':' ∧ Hex.digit value ≠ '-' ∧
      Hex.digit value ≠ '+' := by
    decide
  exact every value small

/-- The text of an id has digits and hyphens only. -/
theorem colon_not_mem_text (id : MessageId) : ':' ∉ id.text.toList := by
  intro inside
  rw [text, String.toList_ofList, chars, grouped] at inside
  have digits : ∀ part : List Char,
      (∀ character ∈ part, character ∈ Hex.encode id.bytes) → ':' ∉ part := by
    intro part within held
    obtain ⟨value, small, same⟩ := mem_encode_iff_digit (within _ held)
    exact (hex_ne small).1 same.symm
  have taken : ∀ from' count,
      ':' ∉ ((Hex.encode id.bytes).drop from').take count :=
    fun from' count => digits _ fun _ held =>
      List.mem_of_mem_drop (List.mem_of_mem_take held)
  have first : ':' ∉ (Hex.encode id.bytes).take 8 :=
    digits _ fun _ held => List.mem_of_mem_take held
  have last : ':' ∉ (Hex.encode id.bytes).drop 20 :=
    digits _ fun _ held => List.mem_of_mem_drop held
  simp [first, last, taken] at inside

/-! ## Reading back -/

/-- Five groups of the right lengths read as their digits. -/
theorem ofGroups?_append
    {first second third fourth fifth : List Char}
    (firstLength : first.length = 8)
    (secondLength : second.length = 4)
    (thirdLength : third.length = 4)
    (fourthLength : fourth.length = 4)
    (fifthLength : fifth.length = 12) :
    ofGroups?
        (first ++ '-' :: second ++ '-' :: third ++ '-' :: fourth ++ '-' ::
          fifth) =
      ofDigits? (first ++ second ++ third ++ fourth ++ fifth) := by
  unfold ofGroups?
  rw [if_pos (by simp [*])]
  simp [List.drop_append, List.drop_of_length_le, *]

theorem joined_groups (digits : List Char) :
    digits.take 8 ++ (digits.drop 8).take 4 ++ (digits.drop 12).take 4 ++
        (digits.drop 16).take 4 ++ digits.drop 20 =
      digits := by
  rw [← List.take_add, ← List.take_add, ← List.take_add, List.take_append_drop]

/-- The written form of an id reads back. -/
theorem ofChars?_chars (id : MessageId) : ofChars? id.chars = some id := by
  have long : (Hex.encode id.bytes).length = 32 := by
    rw [Hex.length_encode, id.length_bytes]
  have whole : id.chars.length = 36 := by
    simp [chars, grouped, long]
  have notDigits : ofDigits? id.chars = none := by
    unfold ofDigits?
    cases read : Hex.decode? id.chars with
    | none => rfl
    | some bytes =>
        have length := Hex.length_of_decode? read
        rw [Option.bind_some, ofBytes?, dif_neg (by omega)]
  have groups : ofGroups? id.chars = some id := by
    rw [chars, grouped, ofGroups?_append (by simp [long]) (by simp [long])
      (by simp [long])
      (by simp [long]) (by simp [long]), joined_groups, ofDigits?_encode]
  rw [ofChars?, notDigits, groups]
  rfl

theorem text_inj {first second : MessageId} :
    first.text = second.text ↔ first = second := by
  constructor
  · intro same
    have characters : first.chars = second.chars := by
      simpa [text] using congrArg String.toList same
    have read := ofChars?_chars first
    rw [characters, ofChars?_chars] at read
    exact (Option.some.inj read).symm
  · rintro rfl
    rfl

end MessageBroker.MessageId
