import MessageBroker.Bytes.Word
import MessageBroker.Text.Hex

/-!
# Message ids

An id is sixteen bytes.  Its text is thirty-two hexadecimal digits in five
groups; readers also accept the digits without hyphens, the hyphenated form in
braces, and the hyphenated form after the URN scheme in either case.  The id of
sixteen zeros means that a message has none yet.
-/

namespace MessageBroker

/-- A message id. -/
structure MessageId where
  /-- The sixteen bytes. -/
  bytes : Bytes
  /-- There are sixteen of them. -/
  length_bytes : bytes.length = 16
  deriving DecidableEq

namespace MessageId

/-- The id of a message that has none. -/
protected def nil : MessageId :=
  ⟨List.replicate 16 0, rfl⟩

/-- Whether a message with this id has none. -/
def isNil (id : MessageId) : Bool :=
  id == .nil

/-- The id with these bytes, if there are sixteen. -/
def ofBytes? (bytes : Bytes) : Option MessageId :=
  if sixteen : bytes.length = 16 then some ⟨bytes, sixteen⟩ else none

/-- The groups of digits that the text shows, joined by hyphens. -/
def grouped (digits : List Char) : List Char :=
  digits.take 8 ++ '-' :: (digits.drop 8).take 4 ++ '-' ::
    (digits.drop 12).take 4 ++ '-' :: (digits.drop 16).take 4 ++ '-' ::
    digits.drop 20

/-- The characters of an id's text. -/
def chars (id : MessageId) : List Char :=
  grouped (Hex.encode id.bytes)

/-- The text of an id. -/
def text (id : MessageId) : String :=
  String.ofList id.chars

/-- The diagnostic text of an id. -/
def debug (id : MessageId) : String :=
  s!"msg({id.text})"

/-- Read thirty-two digits. -/
def ofDigits? (characters : List Char) : Option MessageId :=
  (Hex.decode? characters).bind ofBytes?

/-- Read five groups of digits joined by hyphens. -/
def ofGroups? (characters : List Char) : Option MessageId :=
  if characters.length = 36 ∧ characters[8]? = some '-' ∧
    characters[13]? = some '-' ∧
      characters[18]? = some '-' ∧ characters[23]? = some '-' then
    ofDigits?
      (characters.take 8 ++ (characters.drop 9).take 4 ++
        (characters.drop 14).take 4
      ++ (characters.drop 19).take 4 ++ characters.drop 24)
  else none

/-- Read five groups between braces. -/
def ofBraced? : List Char → Option MessageId
  | '\x7b' :: rest =>
      if rest.getLast? = some '\x7d' then ofGroups? rest.dropLast else none
  | _ => none

/-- The scheme that a URN puts before the groups. -/
def scheme : List Char := "urn:uuid:".toList

/-- Read five groups after the URN scheme. -/
def ofUrn? (characters : List Char) : Option MessageId :=
  if (characters.take 9).map Char.toLower = scheme then
    ofGroups? (characters.drop 9)
  else none

/-- Read an id in any of its four written forms. -/
def ofChars? (characters : List Char) : Option MessageId :=
  ofDigits? characters <|> ofGroups? characters <|> ofBraced? characters <|>
    ofUrn? characters

/-- Read an id in any of its four written forms. -/
def ofText? (text : String) : Option MessageId :=
  ofChars? text.toList

theorem ext
    {first second : MessageId}
    (same : first.bytes = second.bytes) :
    first = second := by
  cases first
  cases second
  cases same
  rfl

theorem ofDigits?_encode (id : MessageId) :
    ofDigits? (Hex.encode id.bytes) = some id := by
  simp [ofDigits?, Hex.decode?_encode, ofBytes?, id.length_bytes]

end MessageId

/-- An id that a message without one may be given. -/
structure FreshId where
  id : MessageId
  /-- It is a real one. -/
  ne_nil : id ≠ .nil

namespace FreshId

/-- The id of a number within a series; its version digit is four. -/
def numbered (series index : Nat) : FreshId where
  id := ⟨Bytes.bigEndian 6 series ++ 0x40 :: Bytes.bigEndian 9 index, by simp⟩
  ne_nil same := by
    have bytes := congrArg (fun id : MessageId => id.bytes[6]?) same
    rw [List.getElem?_append_right (by simp)] at bytes
    simp [MessageId.nil] at bytes

end FreshId

/-- An endless supply of fresh ids, and how many of them have been used. -/
structure IdSource where
  /-- The supply. -/
  draw : Nat → FreshId
  /-- How many have been used. -/
  used : Nat

namespace IdSource

/-- The source of a series of ids, none of them used. -/
def series (number : Nat) : IdSource :=
  ⟨FreshId.numbered number, 0⟩

/-- The id that the source gives next. -/
def upcoming (source : IdSource) : FreshId :=
  source.draw source.used

/-- The source once its next id is used. -/
def advance (source : IdSource) : IdSource :=
  { source with used := source.used + 1 }

end IdSource

end MessageBroker
