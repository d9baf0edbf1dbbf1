/-!
# XXH3, sixty-four bits

The hash that spreads keys over partitions: XXH3 with seed zero and the default
secret.  Short inputs have a formula for each range of lengths; longer ones mix
sixteen-byte pieces; beyond two hundred and forty bytes, eight lanes take up
sixty-four bytes at a time and are scrambled after every kilobyte.

All arithmetic is on machine words and wraps.
-/

namespace MessageBroker.Xxh3

/-- The default secret. -/
def secret : ByteArray := ⟨#[
    0xb8, 0xfe, 0x6c, 0x39, 0x23, 0xa4, 0x4b, 0xbe, 0x7c, 0x01, 0x81, 0x2c,
    0xf7, 0x21, 0xad, 0x1c, 0xde, 0xd4, 0x6d, 0xe9, 0x83, 0x90, 0x97, 0xdb,
    0x72, 0x40, 0xa4, 0xa4, 0xb7, 0xb3, 0x67, 0x1f, 0xcb, 0x79, 0xe6, 0x4e,
    0xcc, 0xc0, 0xe5, 0x78, 0x82, 0x5a, 0xd0, 0x7d, 0xcc, 0xff, 0x72, 0x21,
    0xb8, 0x08, 0x46, 0x74, 0xf7, 0x43, 0x24, 0x8e, 0xe0, 0x35, 0x90, 0xe6,
    0x81, 0x3a, 0x26, 0x4c, 0x3c, 0x28, 0x52, 0xbb, 0x91, 0xc3, 0x00, 0xcb,
    0x88, 0xd0, 0x65, 0x8b, 0x1b, 0x53, 0x2e, 0xa3, 0x71, 0x64, 0x48, 0x97,
    0xa2, 0x0d, 0xf9, 0x4e, 0x38, 0x19, 0xef, 0x46, 0xa9, 0xde, 0xac, 0xd8,
    0xa8, 0xfa, 0x76, 0x3f, 0xe3, 0x9c, 0x34, 0x3f, 0xf9, 0xdc, 0xbb, 0xc7,
    0xc7, 0x0b, 0x4f, 0x1d, 0x8a, 0x51, 0xe0, 0x4b, 0xcd, 0xb4, 0x59, 0x31,
    0xc8, 0x9f, 0x7e, 0xc9, 0xd9, 0x78, 0x73, 0x64, 0xea, 0xc5, 0xac, 0x83,
    0x34, 0xd3, 0xeb, 0xc3, 0xc5, 0x81, 0xa0, 0xff, 0xfa, 0x13, 0x63, 0xeb,
    0x17, 0x0d, 0xdd, 0x51, 0xb7, 0xf0, 0xda, 0x49, 0xd3, 0x16, 0x55, 0x26,
    0x29, 0xd4, 0x68, 0x9e, 0x2b, 0x16, 0xbe, 0x58, 0x7d, 0x47, 0xa1, 0xfc,
    0x8f, 0xf8, 0xb8, 0xd1, 0x7a, 0xd0, 0x31, 0xce, 0x45, 0xcb, 0x3a, 0x8f,
    0x95, 0x16, 0x04, 0x28, 0xaf, 0xd7, 0xfb, 0xca, 0xbb, 0x4b, 0x40,
    0x7e]⟩

/-! ## Primes -/

/-- First prime of thirty-two bits. -/
def prime32A : UInt64 := 0x9e3779b1

/-- Second prime of thirty-two bits. -/
def prime32B : UInt64 := 0x85ebca77

/-- Third prime of thirty-two bits. -/
def prime32C : UInt64 := 0xc2b2ae3d

/-- First prime of sixty-four bits. -/
def prime64A : UInt64 := 0x9e3779b185ebca87

/-- Second prime of sixty-four bits. -/
def prime64B : UInt64 := 0xc2b2ae3d27d4eb4f

/-- Third prime of sixty-four bits. -/
def prime64C : UInt64 := 0x165667b19e3779f9

/-- Fourth prime of sixty-four bits. -/
def prime64D : UInt64 := 0x85ebca77c2b2ae63

/-- Fifth prime of sixty-four bits. -/
def prime64E : UInt64 := 0x27d4eb2f165667c5

/-- Multiplier of the closing step. -/
def closingMultiplier : UInt64 := 0x165667919e3779f9

/-- Multiplier of the step for four to eight bytes. -/
def shortMultiplier : UInt64 := 0x9fb21c651e98df25

/-! ## Reading words -/

/-- The byte at a position, zero past the end. -/
def byteAt (bytes : ByteArray) (position : Nat) : UInt64 :=
  if inside : position < bytes.size then bytes[position].toUInt64 else 0

/-- The little-endian word of `count` bytes at a position. -/
def wordAt (bytes : ByteArray) (position : Nat) : (count : Nat) → UInt64
  | 0 => 0
  | count + 1 =>
      byteAt bytes position ||| (wordAt bytes (position + 1) count <<< 8)

/-- The thirty-two-bit word at a position. -/
def word32 (bytes : ByteArray) (position : Nat) : UInt64 :=
  wordAt bytes position 4

/-- The sixty-four-bit word at a position. -/
def word64 (bytes : ByteArray) (position : Nat) : UInt64 :=
  wordAt bytes position 8

/-! ## Mixing -/

/-- Both halves of a full product, combined. -/
def foldedProduct (first second : UInt64) : UInt64 :=
  let product := first.toNat * second.toNat
  UInt64.ofNat product ^^^ UInt64.ofNat (product >>> 64)

/-- The word turned left by so many bits. -/
def rotateLeft (word bits : UInt64) : UInt64 :=
  (word <<< bits) ||| (word >>> (64 - bits))

/-- The word with its bytes in reverse order. -/
def reverseBytes (word : UInt64) : UInt64 :=
  (List.range 8).foldl
    (fun reversed position =>
      (reversed <<< 8) ||| ((word >>> (8 * position.toUInt64)) &&& 0xff)) 0

/-- The closing step of the shortest inputs. -/
def closeShort (word : UInt64) : UInt64 :=
  let word := (word ^^^ (word >>> 33)) * prime64B
  let word := (word ^^^ (word >>> 29)) * prime64C
  word ^^^ (word >>> 32)

/-- The closing step of all others. -/
def close (word : UInt64) : UInt64 :=
  let word := (word ^^^ (word >>> 37)) * closingMultiplier
  word ^^^ (word >>> 32)

/-- Sixteen bytes of input mixed with sixteen of the secret. -/
def mix (input : ByteArray) (position secretPosition : Nat) : UInt64 :=
  foldedProduct
    (word64 input position ^^^ word64 secret secretPosition)
    (word64 input (position + 8) ^^^ word64 secret (secretPosition + 8))

/-- The sum of the mixes of pairs of positions. -/
def mixAll
    (input : ByteArray)
    (start : UInt64)
    (positions : List (Nat × Nat)) :
    UInt64 :=
  positions.foldl (fun sum pair => sum + mix input pair.1 pair.2) start

/-! ## Inputs by length -/

/-- No bytes. -/
def hashEmpty : UInt64 :=
  closeShort (word64 secret 56 ^^^ word64 secret 64)

/-- One to three bytes. -/
def hashTo3 (input : ByteArray) : UInt64 :=
  let size := input.size
  let combined := (byteAt input 0 <<< 16) ||| (byteAt input (size / 2) <<< 24)
    ||| byteAt input (size - 1) ||| (size.toUInt64 <<< 8)
  closeShort (combined ^^^ (word32 secret 0 ^^^ word32 secret 4))

/-- Four to eight bytes. -/
def hashTo8 (input : ByteArray) : UInt64 :=
  let size := input.size
  let combined := word32 input (size - 4) + (word32 input 0 <<< 32)
  let word := combined ^^^ (word64 secret 8 ^^^ word64 secret 16)
  let word := word ^^^ rotateLeft word 49 ^^^ rotateLeft word 24
  let word := word * shortMultiplier
  let word := (word ^^^ ((word >>> 35) + size.toUInt64)) * shortMultiplier
  word ^^^ (word >>> 28)

/-- Nine to sixteen bytes. -/
def hashTo16 (input : ByteArray) : UInt64 :=
  let size := input.size
  let low := word64 input 0 ^^^ (word64 secret 24 ^^^ word64 secret 32)
  let high :=
    word64 input (size - 8) ^^^ (word64 secret 40 ^^^ word64 secret 48)
  close (size.toUInt64 + reverseBytes low + high + foldedProduct low high)

/-- Seventeen to one hundred and twenty-eight bytes: pieces from both ends
towards the middle. -/
def hashTo128 (input : ByteArray) : UInt64 :=
  let size := input.size
  let pairs := (List.range ((size - 1) / 32 + 1)).flatMap fun step =>
    [(16 * step, 32 * step), (size - 16 * (step + 1), 32 * step + 16)]
  close (mixAll input (size.toUInt64 * prime64A) pairs)

/-- Up to two hundred and forty bytes: eight pieces, a closing step, then the
rest and the end. -/
def hashTo240 (input : ByteArray) : UInt64 :=
  let size := input.size
  let first := (List.range 8).map fun step => (16 * step, 16 * step)
  let later :=
    (List.range (size / 16 - 8)).map fun step =>
      (16 * (step + 8), 16 * step + 3)
  let half := close (mixAll input (size.toUInt64 * prime64A) first)
  close (mixAll input half (later ++ [(size - 16, 119)]))

/-! ## Long inputs -/

/-- The eight lanes. -/
abbrev Lanes := Vector UInt64 8

/-- The lanes before any input. -/
def initialLanes : Lanes :=
  #v[prime32C, prime64A, prime64B, prime64C, prime64D, prime32B, prime64E,
    prime32A]

/-- Take up sixty-four bytes of input. -/
def takeUp
    (input : ByteArray)
    (lanes : Lanes)
    (position secretPosition : Nat) :
    Lanes :=
  Vector.ofFn fun lane =>
    let keyed := word64 input (position + 8 * lane.val)
      ^^^ word64 secret (secretPosition + 8 * lane.val)
    let neighbour := word64 input (position + 8 * (lane.val ^^^ 1))
    let low : UInt64 := keyed &&& 0xffffffff
    lanes[lane] + neighbour + low * (keyed >>> 32)

/-- Scramble the lanes with the end of the secret. -/
def scramble (lanes : Lanes) : Lanes :=
  Vector.ofFn fun lane =>
    let word := lanes[lane]
    (word ^^^ (word >>> 47) ^^^ word64 secret (128 + 8 * lane.val)) * prime32A

/-- Take up so many pieces of sixty-four bytes from a position on. -/
def takeUpPieces
    (input : ByteArray)
    (lanes : Lanes)
    (position count : Nat) :
    Lanes :=
  (List.range count).foldl
    (fun lanes step => takeUp input lanes (position + 64 * step) (8 * step))
    lanes

/-- The lanes, two by two, folded into one word. -/
def merge (lanes : Lanes) (start : UInt64) : UInt64 :=
  close <| [0, 1, 2, 3].foldl
    (fun (sum : UInt64) (pair : Fin 4) =>
      sum + foldedProduct
        (lanes[2 * pair.val] ^^^ word64 secret (11 + 16 * pair.val))
        (lanes[2 * pair.val + 1] ^^^ word64 secret (11 + 16 * pair.val + 8)))
          start

/-- More than two hundred and forty bytes. -/
def hashLong (input : ByteArray) : UInt64 :=
  let size := input.size
  let blocks := (size - 1) / 1024
  let lanes := (List.range blocks).foldl
    (fun lanes block => scramble (takeUpPieces input lanes (1024 * block) 16))
      initialLanes
  let lanes :=
    takeUpPieces input lanes (1024 * blocks) ((size - 1 - 1024 * blocks) / 64)
  let lanes := takeUp input lanes (size - 64) 121
  merge lanes (size.toUInt64 * prime64A)

/-- The hash of a byte string. -/
def hash (input : ByteArray) : UInt64 :=
  if input.size = 0 then hashEmpty
  else if input.size ≤ 3 then hashTo3 input
  else if input.size ≤ 8 then hashTo8 input
  else if input.size ≤ 16 then hashTo16 input
  else if input.size ≤ 128 then hashTo128 input
  else if input.size ≤ 240 then hashTo240 input
  else hashLong input

end MessageBroker.Xxh3
