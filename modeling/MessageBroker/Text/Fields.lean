/-!
# Texts with separators

A text with separators is a list of fields, one more than there are separators;
a text without any is one field.  The end of a range of texts is the text with
its last character raised by one.
-/

namespace MessageBroker.Fields

/-- The parts of a text between the occurrences of a separator. -/
def split (separator : Char) : List Char → List (List Char)
  | [] => [[]]
  | character :: rest =>
      if character = separator then [] :: split separator rest
      else match split separator rest with
        | [] => [[character]]
        | first :: others => (character :: first) :: others

/-- What stands before and after the first separator, if there is one. -/
def splitOnce?
    (separator : Char)
    (text : List Char) :
    Option (List Char × List Char) :=
  match text.dropWhile (· != separator) with
  | [] => none
  | _ :: rest => some (text.takeWhile (· != separator), rest)

/-- The next character, or the greatest where the next code point is none. -/
def raised (character : Char) : Char :=
  if (character.toNat + 1).isValidChar then Char.ofNat (character.toNat + 1)
  else Char.ofNat 0x10ffff

/-- The end of the range of texts that begin with a stem: the stem with its last
character raised. -/
def rangeEnd (stem : String) : String :=
  match stem.toList.reverse with
  | [] => ""
  | last :: rest => String.ofList (rest.reverse ++ [raised last])

theorem split_eq_singleton
    {separator : Char}
    {text : List Char}
    (free : separator ∉ text) :
    split separator text = [text] := by
  induction text with
  | nil => rfl
  | cons character rest step =>
      rw [List.mem_cons, not_or] at free
      rw [split, if_neg (Ne.symm free.1), step free.2]

/-- A field without separators in front of a separator is the first field. -/
theorem split_append
    {separator : Char}
    {first : List Char}
    (free : separator ∉ first)
    (rest : List Char) :
    split separator (first ++ separator :: rest) =
      first :: split separator rest := by
  induction first with
  | nil => simp [split]
  | cons character first step =>
      rw [List.mem_cons, not_or] at free
      rw [List.cons_append, split, if_neg (Ne.symm free.1), step free.2]

end MessageBroker.Fields
