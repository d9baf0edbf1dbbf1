import MessageBroker.Proofs.ByteStrings
import MessageBroker.Text.Decimal

/-!
# Padded numbers as byte strings

A number padded to a width is that many ASCII digits.  Among the numbers that
the width can say, the order of these byte strings is the order of the numbers.
-/

namespace MessageBroker

theorem Decimal.colon_not_mem_digits (width number : Nat) :
    ':' ∉ digits width number := by
  induction width generalizing number with
  | zero => simp [digits]
  | succ width step =>
      rw [digits, List.mem_append, List.mem_singleton, not_or]
      refine ⟨step _, fun same => ?_⟩
      have value := congrArg Char.toNat same
      rw [toNat_digit] at value
      have fixed : ':'.toNat = 58 := rfl
      omega

namespace Bytes

open Decimal

/-! ## Texts character by character -/

theorem ofText_ofList (characters : List Char) :
    ofText (String.ofList characters) =
      characters.flatMap String.utf8EncodeChar := by
  simp [ofText, List.utf8Encode]

theorem ofText_eq_flatMap (text : String) :
    ofText text = text.toList.flatMap String.utf8EncodeChar := by
  rw [← ofText_ofList, String.ofList_toList]

/-- A byte of a character is the character itself, in the ASCII range, or lies
above that range. -/
theorem toNat_of_mem_utf8EncodeChar
    {character : Char}
    {byte : UInt8}
    (held : byte ∈ String.utf8EncodeChar character) :
    byte.toNat = character.toNat ∨ 128 ≤ byte.toNat := by
  have byte_of : ∀ number < 256, (UInt8.ofNat number).toNat = number := by
    intro number small
    rw [UInt8.toNat_ofNat', Nat.mod_eq_of_lt small]
  have code : character.toNat = character.val.toNat := rfl
  unfold String.utf8EncodeChar at held
  dsimp only at held
  split at held
  · rw [List.mem_singleton.1 held, byte_of _ (by omega)]
    exact .inl rfl
  · right
    split at held
    · simp only [List.mem_cons, List.not_mem_nil, or_false] at held
      rcases held with rfl | rfl
      all_goals
        rw [byte_of _ (by omega)]
        omega
    · split at held
      · simp only [List.mem_cons, List.not_mem_nil, or_false] at held
        rcases held with rfl | rfl | rfl
        all_goals
          rw [byte_of _ (by omega)]
          omega
      · simp only [List.mem_cons, List.not_mem_nil, or_false] at held
        rcases held with rfl | rfl | rfl | rfl
        all_goals
          rw [byte_of _ (by omega)]
          omega

/-- A byte in the ASCII range only comes from its own character. -/
theorem toNat_eq_of_mem_utf8EncodeChar
    {character : Char}
    {byte : UInt8}
    (held : byte ∈ String.utf8EncodeChar character)
    (ascii : byte.toNat < 128) :
    character.toNat = byte.toNat := by
  rcases toNat_of_mem_utf8EncodeChar held with same | above
  · exact same.symm
  · omega

theorem eq_of_colon_mem_utf8EncodeChar
    {character : Char}
    (held : colon ∈ String.utf8EncodeChar character) :
    character = ':' :=
  Char.toNat_inj.1 (toNat_eq_of_mem_utf8EncodeChar held (by decide))

theorem colon_not_mem_ofText
    {text : String}
    (free : ':' ∉ text.toList) :
    colon ∉ ofText text := by
  rw [ofText_eq_flatMap, List.mem_flatMap]
  rintro ⟨character, inside, held⟩
  exact free (eq_of_colon_mem_utf8EncodeChar held ▸ inside)

/-! ## Padded numbers -/

theorem ofText_padded_zero (number : Nat) : ofText (padded 0 number) = [] :=
  rfl

/-- The last digit is one byte, after those of the quotient. -/
theorem ofText_padded_succ (width number : Nat) :
    ofText (padded (width + 1) number) =
      ofText (padded width (number / 10)) ++
        [UInt8.ofNat (48 + number % 10)] := by
  have last : String.utf8EncodeChar (digit number) =
      [UInt8.ofNat (48 + number % 10)] := by
    have small : (digit number).val.toNat = 48 + number % 10 :=
      toNat_digit number
    rw [String.utf8EncodeChar, small, if_pos (by omega)]
  simp only [padded, ofText_ofList, digits, List.flatMap_append,
    List.flatMap_cons, last, List.flatMap_nil, List.append_nil]

@[simp]
theorem length_ofText_padded (width number : Nat) :
    (ofText (padded width number)).length = width := by
  induction width generalizing number with
  | zero => rw [ofText_padded_zero, List.length_nil]
  | succ width step =>
      rw [ofText_padded_succ, List.length_append, step, List.length_singleton]

theorem colon_not_mem_padded (width number : Nat) :
    colon ∉ ofText (padded width number) := by
  apply colon_not_mem_ofText
  rw [padded, String.toList_ofList]
  exact colon_not_mem_digits width number

private theorem digit_lt_iff
    {first second : Nat}
    (small : first < 10)
    (small' : second < 10) :
    UInt8.ofNat (48 + first) < UInt8.ofNat (48 + second) ↔ first < second := by
  rw [UInt8.lt_iff_toNat_lt, UInt8.toNat_ofNat', UInt8.toNat_ofNat']
  omega

theorem padded_inj
    {width first second : Nat}
    (fits : first < Decimal.capacity width)
    (fits' : second < Decimal.capacity width) :
    ofText (padded width first) = ofText (padded width second) ↔
      first = second := by
  constructor
  · intro same
    have texts := ofText_injective same
    have characters : digits width first = digits width second := by
      rw [padded, padded] at texts
      simpa using congrArg String.toList texts
    cases width with
    | zero =>
        rw [Decimal.capacity] at fits fits'
        omega
    | succ width =>
        have read := read?_digits fits fits (Nat.succ_pos width)
        have read' := read?_digits fits' fits' (Nat.succ_pos width)
        rw [characters, read'] at read
        exact (Option.some.inj read).symm
  · rintro rfl
    rfl

/-- The order of padded numbers is the order of the numbers. -/
theorem padded_lt_padded_iff
    {width first second : Nat}
    (fits : first < Decimal.capacity width)
    (fits' : second < Decimal.capacity width) :
    ofText (padded width first) < ofText (padded width second) ↔
      first < second := by
  induction width generalizing first second with
  | zero =>
      rw [Decimal.capacity] at fits fits'
      rw [ofText_padded_zero, ofText_padded_zero]
      simp
      omega
  | succ width step =>
      rw [Decimal.capacity] at fits fits'
      have front : first / 10 < Decimal.capacity width := by omega
      have front' : second / 10 < Decimal.capacity width := by omega
      have quotients := step front front'
      have equal := padded_inj front front'
      have last : ∀ byte byte' : UInt8, [byte] < [byte'] ↔ byte < byte' := by
        intro byte byte'
        rw [List.cons_lt_cons_iff]
        simp
      rw [ofText_padded_succ, ofText_padded_succ,
        append_lt_append_iff (by simp), quotients, equal, last,
        digit_lt_iff (Nat.mod_lt _ (by decide)) (Nat.mod_lt _ (by decide))]
      omega

end Bytes

end MessageBroker
