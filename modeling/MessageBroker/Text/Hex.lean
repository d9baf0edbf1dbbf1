import MessageBroker.Bytes

/-!
# Hexadecimal digits

Each byte is two digits, the high half first.  Writing uses lower-case letters;
reading takes either case and refuses an odd count of digits.
-/

namespace MessageBroker.Hex

/-- The lower-case digit of a number below sixteen. -/
def digit (value : Nat) : Char :=
  if value < 10 then Char.ofNat (48 + value) else Char.ofNat (87 + value)

/-- The number that one hexadecimal digit stands for. -/
def digit? (character : Char) : Option Nat :=
  let code := character.toNat
  if 48 ≤ code ∧ code ≤ 57 then some (code - 48)
  else if 97 ≤ code ∧ code ≤ 102 then some (code - 87)
  else if 65 ≤ code ∧ code ≤ 70 then some (code - 55)
  else none

/-- The digits of a byte string. -/
def encode : Bytes → List Char
  | [] => []
  | byte :: rest =>
      digit (byte.toNat / 16) :: digit (byte.toNat % 16) :: encode rest

/-- The byte string that a run of digits spells. -/
def decode? : List Char → Option Bytes
  | [] => some []
  | [_] => none
  | high :: low :: rest => do
      let byte := (← digit? high) * 16 + (← digit? low)
      return UInt8.ofNat byte :: (← decode? rest)

theorem digit?_digit : ∀ value < 16, digit? (digit value) = some value := by
  decide

@[simp]
theorem length_encode (bytes : Bytes) :
    (encode bytes).length = 2 * bytes.length := by
  induction bytes with
  | nil => rfl
  | cons byte rest step => simp [encode, step]; omega

/-- What is written reads back. -/
theorem decode?_encode (bytes : Bytes) :
    decode? (encode bytes) = some bytes := by
  induction bytes with
  | nil => rfl
  | cons byte rest step =>
      have small : byte.toNat < 256 := byte.toNat_lt
      have joined : UInt8.ofNat (byte.toNat / 16 * 16 + byte.toNat % 16) =
          byte := by
        rw [Nat.div_add_mod']
        exact UInt8.ofNat_toNat
      rw [encode, decode?, digit?_digit _ (by omega), digit?_digit _ (by omega),
        step]
      exact congrArg (fun first => some (first :: rest)) joined

theorem length_of_decode?
    {digits : List Char}
    {bytes : Bytes}
    (read : decode? digits = some bytes) :
    digits.length = 2 * bytes.length := by
  fun_induction decode? digits generalizing bytes with
  | case1 => cases read; rfl
  | case2 => cases read
  | case3 high low rest step =>
      obtain ⟨first, _, read⟩ := Option.bind_eq_some_iff.1 read
      obtain ⟨second, _, read⟩ := Option.bind_eq_some_iff.1 read
      obtain ⟨tail, found, read⟩ := Option.bind_eq_some_iff.1 read
      cases read
      simp [step found]
      omega

end MessageBroker.Hex
