/-!
# Byte strings

Everything that is stored or sent is a list of bytes, read from left to right
and compared lexicographically.  This file fixes that type and the passage
between texts and their UTF-8 forms.

The passage is exact in both directions: `toText?_eq_some_iff` says that a byte
string reads back as a text precisely when it is that text's UTF-8 form.
-/

namespace MessageBroker

/-- A byte string, first byte first. -/
abbrev Bytes := List UInt8

namespace Bytes

/-- The UTF-8 form of a text. -/
def ofText (text : String) : Bytes :=
  text.toByteArray.data.toList

/-- The text whose UTF-8 form this is, if there is one. -/
def toText? (bytes : Bytes) : Option String :=
  String.fromUTF8? bytes.toByteArray

@[simp]
theorem ofText_append (first second : String) :
    ofText (first ++ second) = ofText first ++ ofText second := by
  simp [ofText, String.toByteArray_append, ByteArray.data_append]

theorem toByteArray_ofText (text : String) :
    (ofText text).toByteArray = text.toByteArray := by
  apply ByteArray.ext
  simp [ofText]

theorem ofText_injective
    {first second : String}
    (same : ofText first = ofText second) :
    first = second := by
  rw [← String.toByteArray_inj, ← toByteArray_ofText, ← toByteArray_ofText,
    same]

/-- A byte string reads back as a text exactly when it is that text's UTF-8
form. -/
theorem toText?_eq_some_iff
    {bytes : Bytes}
    {text : String} :
    toText? bytes = some text ↔ bytes = ofText text := by
  constructor
  · intro read
    unfold toText? String.fromUTF8? at read
    split at read
    · rename_i valid
      have spelled : (String.fromUTF8 bytes.toByteArray valid).toByteArray =
          text.toByteArray :=
        congrArg String.toByteArray (Option.some.inj read)
      have data := congrArg (fun array => array.data.toList) spelled
      simpa [ofText, String.fromUTF8] using data
    · cases read
  · rintro rfl
    unfold toText? String.fromUTF8?
    rw [toByteArray_ofText, dif_pos text.isValidUTF8]
    rfl

@[simp]
theorem toText?_ofText (text : String) : toText? (ofText text) = some text :=
  toText?_eq_some_iff.2 rfl

/-- The UTF-8 form has as many bytes as the text says. -/
theorem length_ofText (text : String) :
    (ofText text).length = text.utf8ByteSize := by
  rw [ofText, Array.length_toList]
  rfl

/-- The first `count` bytes and what follows them, where there are that many. -/
def split? (count : Nat) (bytes : Bytes) : Option (Bytes × Bytes) :=
  let front := bytes.take count
  if front.length = count then some (front, bytes.drop count) else none

theorem split?_eq_some_iff
    {count : Nat}
    {bytes front rest : Bytes} :
    split? count bytes = some (front, rest) ↔
      front.length = count ∧ bytes = front ++ rest := by
  unfold split?
  constructor
  · intro cut
    dsimp only at cut
    split at cut
    · rename_i enough
      cases cut
      exact ⟨enough, (List.take_append_drop count bytes).symm⟩
    · cases cut
  · rintro ⟨rfl, rfl⟩
    simp

theorem split?_eq_none_iff
    {count : Nat}
    {bytes : Bytes} :
    split? count bytes = none ↔ bytes.length < count := by
  have front : (bytes.take count).length = min count bytes.length :=
    List.length_take
  dsimp only [split?]
  constructor
  · intro cut
    split at cut
    · cases cut
    · omega
  · intro short
    rw [if_neg (by omega)]

end Bytes

end MessageBroker
