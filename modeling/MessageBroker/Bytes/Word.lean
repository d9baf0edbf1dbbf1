import MessageBroker.Bytes

/-!
# Fixed-width words

Numbers travel and are stored in a fixed number of bytes.  On the wire the least
significant byte comes first; counters in the keyspace put the most significant
byte first, so that their order as byte strings is their order as numbers.

The width is the caller's: `littleEndian 2` writes a sixteen-bit length,
`bigEndian 8` a counter.  A number that needs more bytes than the width loses
its high part, as `value_littleEndian` says.
-/

namespace MessageBroker.Bytes

/-- How many numbers a given count of bytes can say. -/
def capacity : (width : Nat) → Nat
  | 0 => 1
  | width + 1 => 256 * capacity width

/-- The lowest `width` bytes of a number, least significant first. -/
def littleEndian : (width : Nat) → (number : Nat) → Bytes
  | 0, _ => []
  | width + 1, number => UInt8.ofNat number :: littleEndian width (number / 256)

/-- The number whose bytes these are, least significant first. -/
def value : Bytes → Nat
  | [] => 0
  | byte :: rest => byte.toNat + 256 * value rest

/-- The lowest `width` bytes of a number, most significant first. -/
def bigEndian (width number : Nat) : Bytes :=
  (littleEndian width number).reverse

/-- The number whose bytes these are, most significant first. -/
def bigEndianValue (bytes : Bytes) : Nat :=
  value bytes.reverse

@[simp]
theorem length_littleEndian (width number : Nat) :
    (littleEndian width number).length = width := by
  induction width generalizing number with
  | zero => rfl
  | succ width step => simp [littleEndian, step]

@[simp]
theorem length_bigEndian (width number : Nat) :
    (bigEndian width number).length = width := by
  simp [bigEndian]

/-- Writing and reading back keeps a number up to the capacity of the width. -/
theorem value_littleEndian (width number : Nat) :
    value (littleEndian width number) = number % capacity width := by
  induction width generalizing number with
  | zero => simp [littleEndian, value, capacity, Nat.mod_one]
  | succ width step =>
      have low : (UInt8.ofNat number).toNat = number % 256 := by simp
      rw [littleEndian, value, step, low, capacity, Nat.mod_mul]

theorem value_lt (bytes : Bytes) : value bytes < capacity bytes.length := by
  induction bytes with
  | nil => simp [value, capacity]
  | cons byte rest step =>
      have small : byte.toNat < 256 := byte.toNat_lt
      rw [value, List.length_cons, capacity]
      omega

/-- Reading and writing back keeps the bytes. -/
theorem littleEndian_value (bytes : Bytes) :
    littleEndian bytes.length (value bytes) = bytes := by
  induction bytes with
  | nil => rfl
  | cons byte rest step =>
      have small : byte.toNat < 256 := byte.toNat_lt
      have quotient : value (byte :: rest) / 256 = value rest := by
        rw [value]; omega
      have remainder : UInt8.ofNat (value (byte :: rest)) = byte := by
        apply UInt8.toNat_inj.1
        rw [value]
        simp
      rw [List.length_cons, littleEndian, quotient, remainder, step]

theorem bigEndianValue_bigEndian (width number : Nat) :
    bigEndianValue (bigEndian width number) = number % capacity width := by
  simp [bigEndianValue, bigEndian, value_littleEndian]

/-- A little-endian number of `width` bytes at the front, and what follows
it. -/
def word? (width : Nat) (bytes : Bytes) : Option (Nat × Bytes) :=
  (split? width bytes).map fun parts => (value parts.1, parts.2)

theorem word?_eq_some_iff
    {width number : Nat}
    {bytes rest : Bytes} :
    word? width bytes = some (number, rest) ↔
      number < capacity width ∧ bytes = littleEndian width number ++ rest := by
  constructor
  · intro read
    obtain ⟨⟨front, tail⟩, cut, same⟩ := Option.map_eq_some_iff.1 read
    obtain ⟨long, rfl⟩ := split?_eq_some_iff.1 cut
    cases same
    subst long
    exact ⟨value_lt front, by rw [littleEndian_value]⟩
  · rintro ⟨small, rfl⟩
    have cut : split? width (littleEndian width number ++ rest) =
        some (littleEndian width number, rest) :=
      split?_eq_some_iff.2 ⟨length_littleEndian width number, rfl⟩
    simp [word?, cut, value_littleEndian, Nat.mod_eq_of_lt small]

end MessageBroker.Bytes
