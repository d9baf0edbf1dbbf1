/-!
# Decimal numbers in keys and arguments

Keys hold numbers with a fixed count of digits, so that their order as text is
their order as numbers.  Readers are more generous: they take any count of
digits and one leading plus sign, and refuse everything else, a number beyond
the bound included.
-/

namespace MessageBroker.Decimal

/-- The character of one decimal digit. -/
def digit (value : Nat) : Char :=
  Char.ofNat (48 + value % 10)

/-- The number that one decimal digit stands for. -/
def digit? (character : Char) : Option Nat :=
  if 48 ≤ character.toNat ∧ character.toNat ≤ 57 then
    some (character.toNat - 48)
  else none

/-- How many numbers a given count of digits can say. -/
def capacity : (width : Nat) → Nat
  | 0 => 1
  | width + 1 => 10 * capacity width

/-- The lowest `width` digits of a number, most significant first. -/
def digits : (width : Nat) → (number : Nat) → List Char
  | 0, _ => []
  | width + 1, number => digits width (number / 10) ++ [digit number]

/-- A number written with exactly `width` digits. -/
def padded (width number : Nat) : String :=
  String.ofList (digits width number)

/-- Continue reading a number below `bound`, `leading` being the part already
read.  More digits never make a number smaller, so the first that reaches the
bound ends the reading. -/
def continue? (bound leading : Nat) : List Char → Option Nat
  | [] => some leading
  | character :: rest => do
      let number := leading * 10 + (← digit? character)
      if number < bound then continue? bound number rest else none

/-- The number below `bound` that a nonempty run of digits spells. -/
def ofDigits? (bound : Nat) : List Char → Option Nat
  | [] => none
  | characters => continue? bound 0 characters

/-- Read a number below `bound`, with at most one plus sign before its
digits. -/
def read? (bound : Nat) (characters : List Char) : Option Nat :=
  let unsigned := match characters with
    | '+' :: rest => rest
    | _ => characters
  ofDigits? bound unsigned

@[simp]
theorem length_digits (width number : Nat) :
    (digits width number).length = width := by
  induction width generalizing number with
  | zero => rfl
  | succ width step => simp [digits, step]

theorem toNat_digit (value : Nat) : (digit value).toNat = 48 + value % 10 := by
  have valid : (48 + value % 10).isValidChar := .inl (by omega)
  rw [digit, Char.ofNat, dif_pos valid]
  rfl

theorem digit?_digit (value : Nat) :
    digit? (digit value) = some (value % 10) := by
  simp only [digit?, toNat_digit]
  rw [if_pos (by omega)]
  congr 1
  omega

theorem continue?_append
    (bound leading : Nat)
    (first second : List Char) :
    continue? bound leading (first ++ second) =
      (continue? bound leading first).bind fun read =>
        continue? bound read second := by
  induction first generalizing leading with
  | nil => rfl
  | cons character rest step =>
      cases seen : digit? character with
      | none => simp [continue?, seen]
      | some value =>
          by_cases small : leading * 10 + value < bound <;>
            simp [continue?, seen, small, step]

theorem continue?_digits
    (bound leading width number : Nat)
    (small : leading * capacity width + number % capacity width < bound) :
    continue? bound leading (digits width number) =
      some (leading * capacity width + number % capacity width) := by
  induction width generalizing leading number with
  | zero => simp [digits, continue?, capacity, Nat.mod_one]
  | succ width step =>
      have value :
          leading * capacity (width + 1) + number % capacity (width + 1) =
            (leading * capacity width + number / 10 % capacity width) * 10 +
              number % 10 := by
        rw [capacity, Nat.mod_mul, Nat.add_mul, Nat.mul_comm 10, Nat.mul_assoc]
        omega
      rw [value] at small ⊢
      rw [digits, continue?_append, step leading (number / 10) (by omega)]
      simp [continue?, digit?_digit, small]

/-- A padded number reads back, if it fits both the width and the bound. -/
theorem read?_digits
    {bound width number : Nat}
    (fits : number < capacity width)
    (small : number < bound)
    (positive : 0 < width) :
    read? bound (digits width number) = some number := by
  obtain ⟨tail, rfl⟩ : ∃ tail, width = tail + 1 := ⟨width - 1, by omega⟩
  have unsigned : ∀ rest, digits (tail + 1) number ≠ '+' :: rest := by
    intro rest same
    have every : ∀ width number, '+' ∉ digits width number := by
      intro width
      induction width with
      | zero => simp [digits]
      | succ width step =>
          intro number inside
          rcases List.mem_append.1 inside with inside | inside
          · exact step _ inside
          · have plus : '+'.toNat = 48 + number % 10 := by
              rw [← toNat_digit, List.mem_singleton.1 inside]
            have fixed : '+'.toNat = 43 := rfl
            omega
    exact every (tail + 1) number (same ▸ List.mem_cons_self)
  have spelled : ofDigits? bound (digits (tail + 1) number) = some number := by
    have whole : continue? bound 0 (digits (tail + 1) number) =
        some number := by
      simpa [Nat.mod_eq_of_lt fits, small]
        using continue?_digits bound 0 (tail + 1) number
    cases shape : digits (tail + 1) number with
    | nil => simpa [shape] using length_digits (tail + 1) number
    | cons character rest => simpa [ofDigits?, shape] using whole
  unfold read?
  split
  · rename_i rest same
    exact absurd same (unsigned rest)
  · exact spelled

end MessageBroker.Decimal
