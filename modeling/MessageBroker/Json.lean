import MessageBroker.Bytes
import MessageBroker.Text.Hex

/-!
# Documents in JSON

A document is read in two steps.  The first finds its structure: values,
elements and members, with every number and every string left as it is written.
The second reads those a record needs: a string as text, a number as a word.  A
part of a document that no record needs is held to the grammar and to nothing
more.
-/

namespace MessageBroker

/-- The structure of a document; numbers and strings as written, strings without
their quotes. -/
inductive Json where
  | null
  | bool (value : Bool)
  | number (literal : Bytes)
  | string (body : Bytes)
  | array (elements : List Json)
  | object (members : List (Bytes × Json))

namespace Json

/-! ## Lexemes -/

/-- Whether a byte is blank between lexemes. -/
def isBlank (byte : UInt8) : Bool :=
  byte == 0x20 || byte == 0x09 || byte == 0x0a || byte == 0x0d

/-- What follows blanks. -/
def skip (bytes : Bytes) : Bytes :=
  bytes.dropWhile isBlank

/-- Whether a byte is a decimal digit. -/
def isDigit (byte : UInt8) : Bool :=
  0x30 ≤ byte && byte ≤ 0x39

/-- Whether a byte is a hexadecimal digit. -/
def isHexDigit (byte : UInt8) : Bool :=
  isDigit byte || (0x61 ≤ byte && byte ≤ 0x66) || (0x41 ≤ byte && byte ≤ 0x46)

/-- Whether a byte may follow a backslash alone. -/
def isSimpleEscape (byte : UInt8) : Bool :=
  byte ==
    0x22 || byte ==
      0x5c || byte ==
        0x2f || byte ==
          0x62 || byte == 0x66 || byte == 0x6e || byte == 0x72 || byte == 0x74

/-- The body of a string up to its closing quote, and what follows the quote. -/
def stringBody? : Bytes → Option (Bytes × Bytes)
  | [] => none
  | 0x22 :: rest => some ([], rest)
  | 0x5c :: 0x75 :: first :: second :: third :: fourth :: rest =>
      if [first, second, third, fourth].all isHexDigit then
        (stringBody? rest).map fun found =>
          (0x5c :: 0x75 :: first :: second :: third :: fourth :: found.1,
            found.2)
      else none
  | 0x5c :: escape :: rest =>
      if isSimpleEscape escape then
        (stringBody? rest).map fun found => (0x5c :: escape :: found.1, found.2)
      else none
  | byte :: rest =>
      if byte < 0x20 || byte == 0x5c then none
      else (stringBody? rest).map fun found => (byte :: found.1, found.2)

/-- A nonempty run of digits, and what follows it. -/
def digits? (bytes : Bytes) : Option (Bytes × Bytes) :=
  match bytes.takeWhile isDigit with
  | [] => none
  | run => some (run, bytes.dropWhile isDigit)

/-- The integer part of a number: zero alone, or digits that do not begin with
zero. -/
def integer? : Bytes → Option (Bytes × Bytes)
  | 0x30 :: rest =>
      if (rest.head?.map isDigit).getD false then none else some ([0x30], rest)
  | bytes => digits? bytes

/-- The fraction of a number, which may be absent. -/
def fraction? : Bytes → Option (Bytes × Bytes)
  | 0x2e :: rest => (digits? rest).map fun found => (0x2e :: found.1, found.2)
  | bytes => some ([], bytes)

/-- The sign of an exponent, which may be absent. -/
def exponentSign : Bytes → Bytes × Bytes
  | 0x2b :: rest => ([0x2b], rest)
  | 0x2d :: rest => ([0x2d], rest)
  | bytes => ([], bytes)

/-- The exponent of a number, which may be absent. -/
def exponent? : Bytes → Option (Bytes × Bytes)
  | [] => some ([], [])
  | letter :: rest =>
      if letter == 0x65 || letter == 0x45 then
        let sign := exponentSign rest
        (digits? sign.2).map fun found => (letter :: sign.1 ++ found.1, found.2)
      else some ([], letter :: rest)

/-- The sign of a number, which may be absent. -/
def numberSign : Bytes → Bytes × Bytes
  | 0x2d :: rest => ([0x2d], rest)
  | bytes => ([], bytes)

/-- A number as written, and what follows it. -/
def number? (bytes : Bytes) : Option (Bytes × Bytes) := do
  let (sign, rest) := numberSign bytes
  let (whole, rest) ← integer? rest
  let (fraction, rest) ← fraction? rest
  let (exponent, rest) ← exponent? rest
  return (sign ++ whole ++ fraction ++ exponent, rest)

/-- What follows a given word, if the bytes begin with it. -/
def word? (word : String) (bytes : Bytes) : Option Bytes :=
  let letters := Bytes.ofText word
  if letters.isPrefixOf bytes then some (bytes.drop letters.length) else none

/-! ## Structure -/

mutual

/-- A value at the front of the bytes, at most `depth` lexemes deep, and what
follows it. -/
def value? (depth : Nat) (bytes : Bytes) : Option (Json × Bytes) :=
  match depth with
  | 0 => none
  | depth + 1 =>
      match skip bytes with
      | 0x22 :: rest =>
          (stringBody? rest).map fun found => (.string found.1, found.2)
      | 0x5b :: rest =>
          match skip rest with
          | 0x5d :: rest => some (.array [], rest)
          | rest =>
              (elements? depth rest).map fun found => (.array found.1, found.2)
      | 0x7b :: rest =>
          match skip rest with
          | 0x7d :: rest => some (.object [], rest)
          | rest =>
              (members? depth rest).map fun found => (.object found.1, found.2)
      | rest =>
          ((word? "null" rest).map fun rest => (.null, rest))
            <|> ((word? "true" rest).map fun rest => (.bool true, rest))
            <|> ((word? "false" rest).map fun rest => (.bool false, rest))
            <|> ((number? rest).map fun found => (.number found.1, found.2))

/-- The elements of an array up to its closing bracket, and what follows the
bracket. -/
def elements? (depth : Nat) (bytes : Bytes) : Option (List Json × Bytes) :=
  match depth with
  | 0 => none
  | depth + 1 => do
      let (element, rest) ← value? depth bytes
      match skip rest with
      | 0x5d :: rest => return ([element], rest)
      | 0x2c :: rest =>
          let (others, rest) ← elements? depth rest
          return (element :: others, rest)
      | _ => none

/-- The members of an object up to its closing brace, and what follows the
brace. -/
def members?
    (depth : Nat)
    (bytes : Bytes) :
    Option (List (Bytes × Json) × Bytes) :=
  match depth with
  | 0 => none
  | depth + 1 =>
      match skip bytes with
      | 0x22 :: rest => do
          let (name, rest) ← stringBody? rest
          match skip rest with
          | 0x3a :: rest =>
              let (member, rest) ← value? depth rest
              match skip rest with
              | 0x7d :: rest => return ([(name, member)], rest)
              | 0x2c :: rest =>
                  let (others, rest) ← members? depth rest
                  return ((name, member) :: others, rest)
              | _ => none
          | _ => none
      | _ => none

end

/-- The structure of a document: one value with nothing but blanks around it. -/
def parse? (bytes : Bytes) : Option Json := do
  let (value, rest) ← value? (bytes.length + 1) bytes
  if (skip rest).isEmpty then return value else none

/-! ## Reading lexemes -/

/-- The number that four hexadecimal digits spell. -/
def unit? (digits : Bytes) : Option Nat :=
  (Hex.decode? (digits.map fun digit => Char.ofNat digit.toNat)).map
    fun bytes => bytes.foldl (fun number byte => number * 256 + byte.toNat) 0

/-- The byte that an escape of one letter stands for. -/
def simpleEscape? (letter : UInt8) : Option UInt8 :=
  if letter == 0x62 then some 0x08
  else if letter == 0x66 then some 0x0c
  else if letter == 0x6e then some 0x0a
  else if letter == 0x72 then some 0x0d
  else if letter == 0x74 then some 0x09
  else if letter == 0x22 || letter == 0x5c || letter == 0x2f then some letter
  else none

/-- The UTF-8 form of a code point. -/
def scalar (code : Nat) : Bytes :=
  Bytes.ofText (Char.ofNat code).toString

/-- The content of a string's body, escapes resolved.  A surrogate counts only
as half of a pair. -/
def unescape? : Bytes → Option Bytes
  | [] => some []
  | 0x5c :: 0x75 :: first :: second :: third :: fourth :: rest => do
      let code ← unit? [first, second, third, fourth]
      if 0xd800 ≤ code ∧ code ≤ 0xdbff then
        match rest with
        | 0x5c :: 0x75 :: first :: second :: third :: fourth :: rest =>
            let low ← unit? [first, second, third, fourth]
            if 0xdc00 ≤ low ∧ low ≤ 0xdfff then
              return scalar (0x10000 + (code - 0xd800) * 0x400 + (low - 0xdc00))
                ++ (← unescape? rest)
            else none
        | _ => none
      else if 0xdc00 ≤ code ∧ code ≤ 0xdfff then none
      else return scalar code ++ (← unescape? rest)
  | 0x5c :: letter :: rest => do
      return (← simpleEscape? letter) :: (← unescape? rest)
  | byte :: rest => (unescape? rest).map (byte :: ·)

/-- The text of a string's body. -/
def bodyText? (body : Bytes) : Option String :=
  (unescape? body).bind Bytes.toText?

/-- The text of a string. -/
def text? : Json → Option String
  | .string body => bodyText? body
  | _ => none

/-- The number that a literal without sign, fraction or exponent spells. -/
def natural? (literal : Bytes) : Option Nat :=
  if literal.all isDigit then
    some
      (literal.foldl (fun number digit => number * 10 + (digit.toNat - 48)) 0)
  else none

/-- A number as a thirty-two-bit word, which has at most ten digits. -/
def word32? : Json → Option UInt32
  | .number literal =>
      if 10 < literal.length then none
      else (natural? literal).bind fun number =>
        if number < UInt32.size then some (.ofNat number) else none
  | _ => none

/-- The elements of an array. -/
def elements : Json → Option (List Json)
  | .array elements => some elements
  | _ => none

/-- The fields of a record, in the order of `names`.  A record is an object that
has each field once, other members being ignored, or an array of exactly the
fields. -/
def fields? (names : List String) : Json → Option (List Json)
  | .array elements =>
      if elements.length = names.length then some elements else none
  | .object members => do
      let members ← members.mapM fun member =>
        return (← bodyText? member.1, member.2)
      names.mapM fun name =>
        match members.filter (·.1 == name) with
        | [member] => some member.2
        | _ => none
  | _ => none

/-! ## Writing -/

/-- One character inside a string. -/
def escaped (character : Char) : String :=
  if character = '"' then "\\\""
  else if character = '\\' then "\\\\"
  else if character = '\n' then "\\n"
  else if character = '\r' then "\\r"
  else if character = '\t' then "\\t"
  else if character.toNat = 8 then "\\b"
  else if character.toNat = 12 then "\\f"
  else if character.toNat < 32 then
    "\\u00" ++
      String.ofList
        [Hex.digit (character.toNat / 16), Hex.digit (character.toNat % 16)]
  else character.toString

/-- A text as a string. -/
def quoted (text : String) : String :=
  "\"" ++ String.join (text.toList.map escaped) ++ "\""

end Json

end MessageBroker
