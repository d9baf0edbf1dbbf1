import MessageBroker.Text.Unicode

/-!
# A character between quotes

Error texts that blame one character show it between single quotes.  Characters
that would disturb the line are escaped: the common controls by a letter, the
quote and the backslash by a backslash, and whatever has no visible shape of its
own by its code point.
-/

namespace MessageBroker.Quoted

/-- The escape that names a code point in lower-case hexadecimal without leading
zeros. -/
def codePoint (character : Char) : String :=
  "\\u\x7b" ++ String.ofList (Nat.toDigits 16 character.toNat) ++ "\x7d"

/-- A character as it stands between the quotes. -/
def escaped (character : Char) : String :=
  if character = Char.ofNat 0 then "\\0"
  else if character = '\t' then "\\t"
  else if character = '\r' then "\\r"
  else if character = '\n' then "\\n"
  else if character = '\\' then "\\\\"
  else if character = '\'' then "\\'"
  else if Unicode.isExtender character then codePoint character
  else if Unicode.isShown character then character.toString
  else codePoint character

/-- A character between single quotes. -/
def character (shown : Char) : String :=
  "'" ++ escaped shown ++ "'"

end MessageBroker.Quoted
