import Mathlib.Data.List.Basic
import Mathlib.Tactic.SplitIfs
import MessageBroker.Json
import MessageBroker.Proofs.Digits

/-!
# Quoted texts and written numbers

Every character stands inside a string in one of three ways: as its own bytes,
as an escape of one letter, or as an escape of four digits.  A scanner takes
each of them as a whole, and reading gives the character back.  So a quoted text
is scanned up to its closing quote, whatever follows, and read as the text that
it was; and a number is scanned up to the last of its digits.
-/

namespace MessageBroker.Json

/-! ## Steps of the scanners -/

/-- A byte that stands for itself inside a string. -/
def IsPlain (byte : UInt8) : Prop :=
  ¬ byte < 0x20 ∧ byte ≠ 0x22 ∧ byte ≠ 0x5c

theorem stringBody?_plain
    {byte : UInt8}
    (plain : IsPlain byte)
    (rest : Bytes) :
    stringBody? (byte :: rest) =
      (stringBody? rest).map fun found => (byte :: found.1, found.2) := by
  rcases plain with ⟨printable, notQuote, notBackslash⟩
  rw [stringBody?]
  · simp [printable, notBackslash]
  · exact notQuote
  · rintro _ _ _ _ _ rfl
    exact absurd rfl notBackslash
  · rintro _ _ rfl
    exact absurd rfl notBackslash

theorem unescape?_plain
    {byte : UInt8}
    (plain : IsPlain byte)
    (rest : Bytes) :
    unescape? (byte :: rest) = (unescape? rest).map (byte :: ·) := by
  rcases plain with ⟨_, _, notBackslash⟩
  rw [unescape?]
  · rintro _ _ _ _ _ rfl
    exact absurd rfl notBackslash
  · rintro _ _ rfl
    exact absurd rfl notBackslash

theorem isSimpleEscape_of_simpleEscape?
    {letter byte : UInt8}
    (simple : simpleEscape? letter = some byte) :
    isSimpleEscape letter = true := by
  unfold simpleEscape? at simple
  unfold isSimpleEscape
  grind

theorem stringBody?_simple
    {letter byte : UInt8}
    (simple : simpleEscape? letter = some byte)
    (rest : Bytes) :
    stringBody? (0x5c :: letter :: rest) =
      (stringBody? rest).map fun found =>
        (0x5c :: letter :: found.1, found.2) := by
  have escape := isSimpleEscape_of_simpleEscape? simple
  rw [stringBody?, if_pos escape]
  rintro _ _ _ _ _ rfl
  cases escape

theorem unescape?_simple
    {letter byte : UInt8}
    (simple : simpleEscape? letter = some byte)
    (rest : Bytes) :
    unescape? (0x5c :: letter :: rest) = (unescape? rest).map (byte :: ·) := by
  rw [unescape?, simple]
  · cases unescape? rest <;> rfl
  · rintro _ _ _ _ _ rfl
    cases simple

theorem unescape?_unit
    {first second third fourth : UInt8}
    {code : Nat}
    (spells : unit? [first, second, third, fourth] = some code)
    (small : code < 0xd800)
    (rest : Bytes) :
    unescape? (0x5c :: 0x75 :: first :: second :: third :: fourth :: rest) =
      (unescape? rest).map (scalar code ++ ·) := by
  rw [unescape?, spells]
  simp only [Option.bind_eq_bind, Option.bind_some]
  rw [if_neg (by omega), if_neg (by omega)]
  cases unescape? rest <;> rfl

/-! ## Characters inside strings -/

/-- How a character may stand inside a string. -/
inductive Stands (character : Char) : Bytes → Prop where
  /-- As its own bytes. -/
  | plain (plain : ∀ byte ∈ String.utf8EncodeChar character, IsPlain byte) :
      Stands character (String.utf8EncodeChar character)
  /-- As a letter after a backslash. -/
  | simple
      {letter byte : UInt8}
      (escape : simpleEscape? letter = some byte)
      (own : String.utf8EncodeChar character = [byte]) :
      Stands character [0x5c, letter]
  /-- As four digits after a backslash. -/
  | unit {first second third fourth : UInt8}
      (digits : [first, second, third, fourth].all isHexDigit = true)
      (spells : unit? [first, second, third, fourth] = some character.toNat)
      (small : character.toNat < 0xd800) :
      Stands character [0x5c, 0x75, first, second, third, fourth]

variable {character : Char} {form : Bytes}

theorem stringBody?_append
    (plain : ∀ byte ∈ form, IsPlain byte)
    (rest : Bytes) :
    stringBody? (form ++ rest) =
      (stringBody? rest).map fun found => (form ++ found.1, found.2) := by
  induction form with
  | nil => simp
  | cons byte form step =>
      rw [List.cons_append, stringBody?_plain (plain byte List.mem_cons_self),
        step fun other inside => plain other (List.mem_cons_of_mem _ inside),
        Option.map_map]
      rfl

theorem unescape?_append
    (plain : ∀ byte ∈ form, IsPlain byte)
    (rest : Bytes) :
    unescape? (form ++ rest) = (unescape? rest).map (form ++ ·) := by
  induction form with
  | nil => simp
  | cons byte form step =>
      rw [List.cons_append, unescape?_plain (plain byte List.mem_cons_self),
        step fun other inside => plain other (List.mem_cons_of_mem _ inside),
        Option.map_map]
      rfl

/-- A scanner takes a character as a whole. -/
theorem Stands.stringBody?
    (stands : Stands character form)
    (rest : Bytes) :
    stringBody? (form ++ rest) =
      (Json.stringBody? rest).map fun found => (form ++ found.1, found.2) := by
  cases stands with
  | plain plain => exact stringBody?_append plain rest
  | simple escape own => exact stringBody?_simple escape rest
  | unit digits spells small =>
      show Json.stringBody? (0x5c :: 0x75 :: _ :: _ :: _ :: _ :: rest) = _
      rw [Json.stringBody?, if_pos digits]
      rfl

/-- What stands for a character reads as the character. -/
theorem Stands.unescape?
    (stands : Stands character form)
    (rest : Bytes) :
    unescape? (form ++ rest) =
      (Json.unescape? rest).map (String.utf8EncodeChar character ++ ·) := by
  cases stands with
  | plain plain => exact unescape?_append plain rest
  | simple escape own =>
      rw [own]
      exact unescape?_simple escape rest
  | unit digits spells small =>
      have own : scalar character.toNat = String.utf8EncodeChar character := by
        rw [scalar, Char.ofNat_toNat, Bytes.ofText_eq_flatMap]
        simp
      rw [← own]
      exact unescape?_unit spells small rest

/-- What is written for a control character. -/
theorem stands_control :
    ∀ code < 32,
      Bytes.ofText
          ("\\u00" ++
            String.ofList [Hex.digit (code / 16), Hex.digit (code % 16)]) =
        [0x5c, 0x75, 0x30, 0x30, .ofNat (Hex.digit (code / 16)).toNat,
          .ofNat (Hex.digit (code % 16)).toNat] ∧
      [0x30, 0x30, .ofNat (Hex.digit (code / 16)).toNat,
            .ofNat (Hex.digit (code % 16)).toNat].all isHexDigit =
        true ∧
      unit?
          [0x30, 0x30, .ofNat (Hex.digit (code / 16)).toNat,
            .ofNat (Hex.digit (code % 16)).toNat] =
        some code := by
  decide +kernel

theorem stands_of_toNat
    (letter byte : UInt8)
    (escape : simpleEscape? letter = some byte)
    (same : character.toNat = byte.toNat)
    (ascii : byte.toNat < 128) :
    Stands character [0x5c, letter] := by
  refine .simple escape ?_
  have code : character.val.toNat = byte.toNat := same
  rw [String.utf8EncodeChar, code, if_pos (by omega), UInt8.ofNat_toNat]

/-- A character stands for itself unless it is a control character, a quote or a
backslash. -/
theorem stands_itself
    (printable : ¬ character.toNat < 32)
    (notQuote : character ≠ '"')
    (notBackslash : character ≠ '\\') :
    Stands character (Bytes.ofText character.toString) := by
  have own : Bytes.ofText character.toString =
      String.utf8EncodeChar character := by
    rw [Bytes.ofText_eq_flatMap]
    simp
  rw [own]
  refine .plain fun byte inside => ?_
  have ascii : byte.toNat < 128 → character.toNat = byte.toNat :=
    Bytes.toNat_eq_of_mem_utf8EncodeChar inside
  refine ⟨?_, ?_, ?_⟩
  · intro low
    have small : byte.toNat < 32 := UInt8.lt_iff_toNat_lt.1 low
    have code := ascii (by omega)
    omega
  · rintro rfl
    exact notQuote (Char.toNat_inj.1 (ascii (by decide)))
  · rintro rfl
    exact notBackslash (Char.toNat_inj.1 (ascii (by decide)))

/-- What is written for a character stands for it. -/
theorem stands_escaped (character : Char) :
    Stands character (Bytes.ofText (escaped character)) := by
  unfold escaped
  split_ifs with quote backslash newline carriage tab backspace formFeed control
  · exact stands_of_toNat 0x22 0x22 rfl (congrArg Char.toNat quote) (by decide)
  · exact stands_of_toNat 0x5c 0x5c rfl (congrArg Char.toNat backslash)
      (by decide)
  · exact stands_of_toNat 0x6e 0x0a rfl (congrArg Char.toNat newline)
      (by decide)
  · exact stands_of_toNat 0x72 0x0d rfl (congrArg Char.toNat carriage)
      (by decide)
  · exact stands_of_toNat 0x74 0x09 rfl (congrArg Char.toNat tab) (by decide)
  · exact stands_of_toNat 0x62 0x08 rfl backspace (by decide)
  · exact stands_of_toNat 0x66 0x0c rfl formFeed (by decide)
  · rcases stands_control character.toNat control with ⟨form, digits, spells⟩
    rw [form]
    exact .unit digits spells (by omega)
  · exact stands_itself control quote backslash

/-! ## Texts -/

/-- The body of a quoted text. -/
def body (text : String) : Bytes :=
  text.toList.flatMap fun character => Bytes.ofText (escaped character)

theorem ofText_join (texts : List String) :
    Bytes.ofText (String.join texts) = texts.flatMap Bytes.ofText := by
  induction texts with
  | nil => rfl
  | cons text rest step =>
      rw [String.join_cons, Bytes.ofText_append, step, List.flatMap_cons]

theorem ofText_quoted (text : String) :
    Bytes.ofText (quoted text) = 0x22 :: (body text ++ [0x22]) := by
  have quote : Bytes.ofText "\"" = [0x22] := rfl
  rw [quoted, Bytes.ofText_append, Bytes.ofText_append, ofText_join,
    List.flatMap_map, quote]
  rfl

/-- A quoted text is scanned up to its closing quote. -/
theorem stringBody?_body
    (text : String)
    (rest : Bytes) :
    stringBody? (body text ++ 0x22 :: rest) = some (body text, rest) := by
  unfold body
  induction text.toList with
  | nil => rfl
  | cons character others step =>
      rw [List.flatMap_cons, List.append_assoc,
        (stands_escaped character).stringBody?, step]
      rfl

theorem unescape?_body (text : String) :
    unescape? (body text) = some (Bytes.ofText text) := by
  unfold body
  rw [Bytes.ofText_eq_flatMap]
  induction text.toList with
  | nil => rfl
  | cons character others step =>
      rw [List.flatMap_cons, (stands_escaped character).unescape?, step]
      rfl

/-- A quoted text reads as what it was. -/
theorem bodyText?_body (text : String) : bodyText? (body text) = some text := by
  rw [bodyText?, unescape?_body, Option.bind_some, Bytes.toText?_ofText]

/-! ## Numbers -/

/-- A number as it is written. -/
def literal (number : Nat) : Bytes :=
  (Nat.toDigits 10 number).map fun digit => UInt8.ofNat digit.toNat

theorem bounds_of_mem_toDigits
    {number : Nat}
    {digit : Char}
    (inside : digit ∈ Nat.toDigits 10 number) :
    48 ≤ digit.toNat ∧ digit.toNat ≤ 57 :=
  Char.isDigit_iff_toNat.1
    (Nat.isDigit_of_mem_toDigits (by decide) (by decide) inside)

theorem ofText_toString (number : Nat) :
    Bytes.ofText (toString number) = literal number := by
  have single : ∀ digit ∈ Nat.toDigits 10 number,
      String.utf8EncodeChar digit = [UInt8.ofNat digit.toNat] := by
    intro digit inside
    have bounds := bounds_of_mem_toDigits inside
    have code : digit.val.toNat = digit.toNat := rfl
    rw [String.utf8EncodeChar, code, if_pos (by omega)]
  have digits : toString number = String.ofList (Nat.toDigits 10 number) :=
    Nat.repr_eq_ofList_toDigits
  rw [digits, Bytes.ofText_ofList, literal, List.map_eq_flatMap,
    List.flatMap_def, List.flatMap_def, List.map_congr_left single]

theorem toNat_ofNat_digit
    {number : Nat}
    {digit : Char}
    (inside : digit ∈ Nat.toDigits 10 number) :
    (UInt8.ofNat digit.toNat).toNat = digit.toNat := by
  have bounds := bounds_of_mem_toDigits inside
  rw [UInt8.toNat_ofNat', Nat.mod_eq_of_lt (by omega)]

theorem isDigit_of_mem_literal
    {number : Nat}
    {byte : UInt8}
    (inside : byte ∈ literal number) :
    isDigit byte = true := by
  rcases List.mem_map.1 inside with ⟨digit, among, rfl⟩
  have bounds := bounds_of_mem_toDigits among
  rw [isDigit, Bool.and_eq_true, decide_eq_true_iff, decide_eq_true_iff,
    UInt8.le_iff_toNat_le, UInt8.le_iff_toNat_le, toNat_ofNat_digit among]
  exact bounds

theorem literal_ne_nil (number : Nat) : literal number ≠ [] := by
  simp [literal]

/-- Only zero begins with the digit zero. -/
theorem head?_literal
    {number : Nat}
    (positive : number ≠ 0) :
    (literal number).head? ≠ some 0x30 := by
  induction number using Nat.strongRecOn with
  | ind number step =>
      have split := Nat.toDigits_eq_if (n := number) (show 1 < 10 by decide)
      by_cases small : number < 10
      · rw [if_pos small] at split
        intro zero
        rw [literal, split] at zero
        have code := congrArg UInt8.toNat (Option.some.inj zero)
        rw [toNat_ofNat_digit (split ▸ List.mem_singleton_self _),
          Nat.toNat_digitChar_of_lt_ten small] at code
        have thirty : (0x30 : UInt8).toNat = 48 := rfl
        omega
      · rw [if_neg small] at split
        have front : literal number =
            literal (number / 10) ++
              [UInt8.ofNat (Nat.digitChar (number % 10)).toNat] := by
          rw [literal, split, List.map_append]
          rfl
        have first := step (number / 10) (by omega) (by omega)
        rw [front, List.head?_append]
        cases head : (literal (number / 10)).head? with
        | none =>
            exact absurd (List.head?_eq_none_iff.1 head) (literal_ne_nil _)
        | some byte =>
            rw [head] at first
            exact first

theorem numberSign_digit
    {byte : UInt8}
    (digit : isDigit byte = true)
    (rest : Bytes) :
    numberSign (byte :: rest) = ([], byte :: rest) := by
  rw [numberSign]
  rintro _ ⟨⟩
  cases digit

theorem digits?_append
    {run : Bytes}
    (some : run ≠ [])
    (digits : ∀ byte ∈ run, isDigit byte = true)
    (rest : Bytes) :
    digits? (run ++ 0x2c :: rest) = .some (run, 0x2c :: rest) := by
  have comma : isDigit 0x2c = false := rfl
  rw [digits?, List.takeWhile_append_of_pos digits,
    List.dropWhile_append_of_pos digits,
    List.takeWhile_cons_of_neg (by simp [comma]),
    List.dropWhile_cons_of_neg (by simp [comma]), List.append_nil]
  cases run with
  | nil => exact absurd rfl some
  | cons byte others => rfl

/-- A number is scanned up to the comma after it. -/
theorem number?_literal
    (number : Nat)
    (rest : Bytes) :
    number? (literal number ++ 0x2c :: rest) =
      some (literal number, 0x2c :: rest) := by
  have digits : ∀ byte ∈ literal number, isDigit byte = true :=
    fun _ => isDigit_of_mem_literal
  have unsigned : numberSign (literal number ++ 0x2c :: rest) =
      ([], literal number ++ 0x2c :: rest) := by
    cases form : literal number with
    | nil => exact absurd form (literal_ne_nil number)
    | cons byte others =>
        exact numberSign_digit (digits byte (form ▸ List.mem_cons_self)) _
  have whole : integer? (literal number ++ 0x2c :: rest) =
      some (literal number, 0x2c :: rest) := by
    by_cases zero : number = 0
    · subst zero
      rfl
    · rw [integer?]
      · exact digits?_append (literal_ne_nil number) digits rest
      · intro more same
        cases form : literal number with
        | nil => exact absurd form (literal_ne_nil number)
        | cons byte others =>
            rw [form, List.cons_append] at same
            apply head?_literal zero
            rw [form, List.head?_cons, (List.cons.inj same).1]
  have fraction : fraction? (0x2c :: rest) = some ([], 0x2c :: rest) := by
    rw [fraction?]
    rintro _ ⟨⟩
  have exponent : exponent? (0x2c :: rest) = some ([], 0x2c :: rest) := rfl
  rw [number?, unsigned]
  simp [whole, fraction, exponent]

theorem natural?_literal (number : Nat) :
    natural? (literal number) = some number := by
  have digits : (literal number).all isDigit = true :=
    List.all_eq_true.2 fun _ => isDigit_of_mem_literal
  have step : ∀ (sum : Nat) (digit : Char), digit ∈ Nat.toDigits 10 number →
      sum * 10 + ((UInt8.ofNat digit.toNat).toNat - 48) =
        10 * sum + (digit.toNat - '0'.toNat) := by
    intro sum digit inside
    rw [toNat_ofNat_digit inside, Nat.mul_comm]
    rfl
  have value : (Nat.toDigits 10 number).foldl
      (fun sum digit => 10 * sum + (digit.toNat - '0'.toNat)) 0 = number :=
    Nat.ofDigitChars_eq_foldl.symm.trans Nat.ofDigitChars_ten_toDigits
  rw [natural?, if_pos digits, literal, List.foldl_map,
    List.foldl_ext _ _ _ step, value]

/-- A word reads as what it was. -/
theorem word32?_literal (word : UInt32) :
    word32? (.number (literal word.toNat)) = some word := by
  have bound : word.toNat < UInt32.size := word.toNat_lt
  have short : (literal word.toNat).length ≤ 10 := by
    rw [literal, List.length_map,
      Nat.length_toDigits_le_iff (by decide) (by decide)]
    exact Nat.lt_trans bound (by decide)
  rw [word32?, if_neg (Nat.not_lt.2 short), natural?_literal, Option.bind_some,
    if_pos bound, UInt32.ofNat_toNat]

end MessageBroker.Json
