import MessageBroker.Catalog
import MessageBroker.Proofs.QuotedTexts

/-!
# Catalog records read back

The record of a topic or a queue is an object of one or two members.  Scanning
goes member by member: the name, the value, and then a comma or the closing
brace.  So a record has the members that were written, and from them the topic
or the queue is read as it was.
-/

namespace MessageBroker

namespace Json

/-! ## Values -/

theorem skip_of_not_isBlank
    {byte : UInt8}
    (dense : isBlank byte = false)
    (rest : Bytes) :
    skip (byte :: rest) = byte :: rest := by
  rw [skip, List.dropWhile_cons_of_neg (by simp [dense])]

/-- A quoted text is a value, whatever follows it. -/
theorem value?_quoted
    (depth : Nat)
    (text : String)
    (rest : Bytes) :
    value? (depth + 1) (Bytes.ofText (quoted text) ++ rest) =
      some (.string (body text), rest) := by
  have front : Bytes.ofText (quoted text) ++ rest =
      0x22 :: (body text ++ 0x22 :: rest) := by
    simp [ofText_quoted]
  rw [front, value?, skip_of_not_isBlank rfl]
  simp only [stringBody?_body, Option.map_some]

theorem word?_digit
    {byte letter : UInt8}
    {word : String}
    {letters rest : Bytes}
    (spelled : Bytes.ofText word = letter :: letters)
    (other : letter ≠ byte) :
    word? word (byte :: rest) = none := by
  rw [word?, spelled]
  simp [other]

/-- A number is a value, up to the comma after it. -/
theorem value?_literal
    (depth number : Nat)
    (rest : Bytes) :
    value? (depth + 1) (literal number ++ 0x2c :: rest) =
      some (.number (literal number), 0x2c :: rest) := by
  have scanned := number?_literal number rest
  cases form : literal number with
  | nil => exact absurd form (literal_ne_nil number)
  | cons byte others =>
      have digit : isDigit byte = true :=
        isDigit_of_mem_literal (form ▸ List.mem_cons_self)
      have differs : ∀ other, isDigit other = false → byte ≠ other := by
        rintro other no rfl
        rw [digit] at no
        cases no
      have dense : isBlank byte = false := by
        simp [isBlank, differs 0x20 rfl, differs 0x09 rfl, differs 0x0a rfl,
          differs 0x0d rfl]
      have noWord : ∀ word, (Bytes.ofText word).head?.any (!isDigit ·) = true →
          word? word (byte :: (others ++ 0x2c :: rest)) = none := by
        intro word letters
        cases spelled : Bytes.ofText word with
        | nil =>
            rw [spelled] at letters
            cases letters
        | cons letter more =>
            rw [spelled] at letters
            exact word?_digit spelled
              (differs letter (by simpa using letters)).symm
      rw [form] at scanned
      rw [List.cons_append, value?, skip_of_not_isBlank dense]
      split
      · rename_i same
        exact absurd (List.cons.inj same).1 (differs _ rfl)
      · rename_i same
        exact absurd (List.cons.inj same).1 (differs _ rfl)
      · rename_i same
        exact absurd (List.cons.inj same).1 (differs _ rfl)
      · rw [noWord "null" rfl, noWord "true" rfl, noWord "false" rfl]
        rw [List.cons_append] at scanned
        rw [scanned]
        rfl

/-- An object is a value when it has members. -/
theorem value?_object
    {depth : Nat}
    {name : String}
    {rest after : Bytes}
    {found : List (Bytes × Json)}
    (scanned : members? depth (Bytes.ofText (quoted name) ++ rest) =
      some (found, after)) :
    value? (depth + 1) (0x7b :: (Bytes.ofText (quoted name) ++ rest)) =
      some (.object found, after) := by
  have front : Bytes.ofText (quoted name) ++ rest =
      0x22 :: (body name ++ 0x22 :: rest) := by
    simp [ofText_quoted]
  rw [front] at scanned ⊢
  rw [value?, skip_of_not_isBlank rfl]
  simp only [skip_of_not_isBlank (show isBlank 0x22 = false from rfl)]
  change (members? depth _).map _ = _
  rw [scanned]
  rfl

/-! ## Members -/

/-- A member is its name, a colon and its value. -/
theorem members?_named
    (depth : Nat)
    (name : String)
    (rest : Bytes) :
    members? (depth + 1) (Bytes.ofText (quoted name) ++ 0x3a :: rest) =
      (value? depth rest).bind fun found =>
        match skip found.2 with
        | 0x7d :: rest => some ([(body name, found.1)], rest)
        | 0x2c :: rest =>
            (members? depth rest).bind fun others =>
              some ((body name, found.1) :: others.1, others.2)
        | _ => none := by
  have front : Bytes.ofText (quoted name) ++ 0x3a :: rest =
      0x22 :: (body name ++ 0x22 :: 0x3a :: rest) := by
    simp [ofText_quoted]
  have colon : skip (0x3a :: rest) = 0x3a :: rest :=
    skip_of_not_isBlank rfl rest
  rw [front, members?, skip_of_not_isBlank rfl]
  simp only [stringBody?_body, Option.bind_eq_bind, Option.bind_some, colon]
  rfl

/-- The last member of an object is followed by its brace. -/
theorem members?_last
    {depth : Nat}
    {rest after : Bytes}
    {member : Json}
    (scanned : value? depth rest = some (member, 0x7d :: after))
    (name : String) :
    members? (depth + 1) (Bytes.ofText (quoted name) ++ 0x3a :: rest) =
      some ([(body name, member)], after) := by
  have brace : skip (0x7d :: after) = 0x7d :: after :=
    skip_of_not_isBlank rfl after
  rw [members?_named, scanned, Option.bind_some, brace]
  rfl

/-- Any other member is followed by a comma and more members. -/
theorem members?_more
    {depth : Nat}
    {rest more after : Bytes}
    {member : Json}
    {others : List (Bytes × Json)}
    (scanned : value? depth rest = some (member, 0x2c :: more))
    (further : members? depth more = some (others, after))
    (name : String) :
    members? (depth + 1) (Bytes.ofText (quoted name) ++ 0x3a :: rest) =
      some ((body name, member) :: others, after) := by
  have comma : skip (0x2c :: more) = 0x2c :: more :=
    skip_of_not_isBlank rfl more
  rw [members?_named, scanned, Option.bind_some, comma]
  change (members? depth more).bind _ = _
  rw [further]
  rfl

/-! ## Records -/

/-- An object with nothing after it is a document. -/
theorem parse?_object
    {name : String}
    {rest : Bytes}
    {found : List (Bytes × Json)}
    (scanned : ∀ depth,
      members? (depth + 3) (Bytes.ofText (quoted name) ++ rest) =
        some (found, [])) :
    parse? (0x7b :: (Bytes.ofText (quoted name) ++ rest)) =
      some (.object found) := by
  rcases Nat.exists_eq_add_of_le'
    (show 3 ≤ (0x7b :: (Bytes.ofText (quoted name) ++ rest)).length by
    simp [ofText_quoted]
    omega) with ⟨depth, deep⟩
  rw [parse?, deep, value?_object (scanned depth)]
  rfl

end Json

namespace Catalog

open Json

theorem Queue.record_eq (queue : Queue) :
    queue.record =
      0x7b ::
        (Bytes.ofText (quoted "creator") ++ 0x3a ::
          (Bytes.ofText (quoted queue.creator) ++ [0x7d])) := by
  have opening : Bytes.ofText "\x7b\"creator\":" =
      0x7b :: (Bytes.ofText (quoted "creator") ++ [0x3a]) := by decide +kernel
  have closing : Bytes.ofText "\x7d" = [0x7d] := rfl
  rw [Queue.record, Bytes.ofText_append, Bytes.ofText_append, opening, closing]
  simp

/-- The record of a queue reads back. -/
theorem Queue.ofRecord?_record (queue : Queue) :
    Queue.ofRecord? queue.name queue.record = some queue := by
  have scanned : ∀ depth,
      members? (depth + 3)
          (Bytes.ofText (quoted "creator") ++ 0x3a ::
            (Bytes.ofText (quoted queue.creator) ++ [0x7d])) =
        some ([(body "creator", .string (body queue.creator))], []) :=
    fun depth => members?_last (value?_quoted (depth + 1) queue.creator [0x7d])
      "creator"
  rw [Queue.ofRecord?, queue.record_eq, parse?_object scanned]
  simp [fields?, bodyText?_body, text?]

theorem Topic.record_eq (topic : Topic) :
    topic.record =
      0x7b ::
        (Bytes.ofText (quoted "partitions") ++ 0x3a ::
          (literal topic.partitions.toNat ++ 0x2c ::
            (Bytes.ofText (quoted "creator") ++ 0x3a ::
              (Bytes.ofText (quoted topic.creator) ++ [0x7d])))) := by
  have opening : Bytes.ofText "\x7b\"partitions\":" =
      0x7b :: (Bytes.ofText (quoted "partitions") ++ [0x3a]) := by
    decide +kernel
  have middle : Bytes.ofText ",\"creator\":" =
      0x2c :: (Bytes.ofText (quoted "creator") ++ [0x3a]) := by decide +kernel
  have closing : Bytes.ofText "\x7d" = [0x7d] := rfl
  have number : Bytes.ofText (toString topic.partitions) =
      literal topic.partitions.toNat :=
    ofText_toString topic.partitions.toNat
  rw [Topic.record, Bytes.ofText_append, Bytes.ofText_append,
    Bytes.ofText_append, Bytes.ofText_append, opening, middle, closing, number]
  simp

/-- The record of a topic reads back. -/
theorem Topic.ofRecord?_record (topic : Topic) :
    Topic.ofRecord? topic.name topic.record = some topic := by
  have scanned : ∀ depth,
      members? (depth + 3)
          (Bytes.ofText (quoted "partitions") ++ 0x3a ::
            (literal topic.partitions.toNat ++ 0x2c ::
              (Bytes.ofText (quoted "creator") ++ 0x3a ::
                (Bytes.ofText (quoted topic.creator) ++ [0x7d])))) =
        some
          ([(body "partitions", .number (literal topic.partitions.toNat)),
              (body "creator", .string (body topic.creator))], []) := by
    intro depth
    have last :=
      members?_last (value?_quoted depth topic.creator [0x7d]) "creator"
    exact members?_more (value?_literal (depth + 1) topic.partitions.toNat _)
      last "partitions"
  rw [Topic.ofRecord?, topic.record_eq, parse?_object scanned]
  simp [fields?, bodyText?_body, text?, word32?_literal]

end Catalog

end MessageBroker
