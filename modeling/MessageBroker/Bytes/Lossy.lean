import MessageBroker.Bytes

/-!
# Reading damaged text

A byte string that is not UTF-8 can still be shown: each longest run of bytes
that begins a character and cannot be continued becomes one replacement
character, and so does each byte that begins none.  Valid text comes through
unchanged.
-/

namespace MessageBroker.Bytes

/-- The character that stands for bytes that spell none. -/
def replacement : Char := Char.ofNat 0xfffd

/-- The bytes that may come second after a leading byte of a longer character,
as a closed range. -/
def secondRange (lead : UInt8) : UInt8 × UInt8 :=
  if lead = 0xe0 then (0xa0, 0xbf)
  else if lead = 0xed then (0x80, 0x9f)
  else if lead = 0xf0 then (0x90, 0xbf)
  else if lead = 0xf4 then (0x80, 0x8f)
  else (0x80, 0xbf)

/-- Whether a byte continues a character. -/
def isContinuation (byte : UInt8) : Bool :=
  0x80 ≤ byte && byte ≤ 0xbf

/-- Whether a byte may come second after a leading byte. -/
def maySecond (lead second : UInt8) : Bool :=
  (secondRange lead).1 ≤ second && second ≤ (secondRange lead).2

/-- How many bytes follow a leading byte in its character, if it can lead
one. -/
def followers? (lead : UInt8) : Option Nat :=
  if lead < 0x80 then some 0
  else if 0xc2 ≤ lead && lead ≤ 0xdf then some 1
  else if 0xe0 ≤ lead && lead ≤ 0xef then some 2
  else if 0xf0 ≤ lead && lead ≤ 0xf4 then some 3
  else none

/-- The code point of a leading byte and its followers. -/
def codePoint : Bytes → Nat
  | [first] => first.toNat
  | [first, second] => first.toNat % 32 * 64 + second.toNat % 64
  | [first, second, third] =>
      first.toNat % 16 * 4096 + second.toNat % 64 * 64 + third.toNat % 64
  | [first, second, third, fourth] =>
      first.toNat % 8 * 262144 + second.toNat % 64 * 4096 + third.toNat %
        64 * 64
        + fourth.toNat % 64
  | _ => 0xfffd

/-- The longest front of `rest` that continues the character begun by `lead`, at
most `wanted` bytes. -/
def followersIn (lead : UInt8) (wanted : Nat) (rest : Bytes) : Bytes :=
  match wanted, rest with
  | 0, _ => []
  | _, [] => []
  | wanted + 1, second :: others =>
      if maySecond lead second then
        second :: (others.take wanted).takeWhile isContinuation else []

/-- One character and the count of bytes after the first that it takes. -/
def nextChar (lead : UInt8) (rest : Bytes) : Char × Nat :=
  match followers? lead with
  | none => (replacement, 0)
  | some wanted =>
      let present := followersIn lead wanted rest
      if present.length = wanted then
        (Char.ofNat (codePoint (lead :: present)), wanted)
      else (replacement, present.length)

/-- The characters of a byte string, damaged parts replaced. -/
def lossyChars : Bytes → List Char
  | [] => []
  | lead :: rest =>
      let (character, taken) := nextChar lead rest
      character :: lossyChars (rest.drop taken)
  termination_by bytes => bytes.length
  decreasing_by
    rw [List.length_drop, List.length_cons]
    omega

/-- The text of a byte string, damaged parts replaced. -/
def toTextLossy (bytes : Bytes) : String :=
  (toText? bytes).getD (String.ofList (lossyChars bytes))

end MessageBroker.Bytes
