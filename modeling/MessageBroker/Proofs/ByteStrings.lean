import MessageBroker.Bytes.Order

/-!
# Byte strings with parts

Keys are byte strings made of parts.  Two facts about their order carry every
scan: strings with a common front are ordered as what follows it, and whatever
lies between two strings with a common front has that front too.

The parts of a key are joined by colons.  When no part holds a colon, the joined
string determines its parts; it is enough to know this of one of two strings
with equally many parts, because the colons can be counted.
-/

namespace MessageBroker.Bytes

/-! ## Order -/

theorem append_lt_append_left_iff (front first second : Bytes) :
    front ++ first < front ++ second ↔ first < second := by
  induction front with
  | nil => rfl
  | cons byte rest step =>
      rw [List.cons_append, List.cons_append, List.cons_lt_cons_iff, step]
      constructor
      · rintro (less | ⟨_, less⟩)
        · exact absurd less (UInt8.lt_irrefl byte)
        · exact less
      · exact fun less => .inr ⟨rfl, less⟩

/-- Fronts of equal length are compared first. -/
theorem append_lt_append_iff
    {front front' : Bytes}
    (lengths : front.length = front'.length)
    (first second : Bytes) :
    front ++ first < front' ++ second ↔
      front < front' ∨ front = front' ∧ first < second := by
  induction front generalizing front' with
  | nil =>
      cases front' with
      | nil => simp
      | cons => simp at lengths
  | cons byte rest step =>
      cases front' with
      | nil => simp at lengths
      | cons byte' rest' =>
          have tails : rest.length = rest'.length := by simpa using lengths
          simp only [List.cons_append, List.cons_lt_cons_iff, step tails,
            List.cons.injEq]
          constructor
          · rintro (less | ⟨same, less | ⟨again, less⟩⟩)
            · exact .inl (.inl less)
            · exact .inl (.inr ⟨same, less⟩)
            · exact .inr ⟨⟨same, again⟩, less⟩
          · rintro ((less | ⟨same, less⟩) | ⟨⟨same, again⟩, less⟩)
            · exact .inl less
            · exact .inr ⟨same, .inl less⟩
            · exact .inr ⟨same, .inr ⟨again, less⟩⟩

/-- What lies between two strings with a common front has that front. -/
theorem between_append_iff {front low high key : Bytes} :
    ¬ key < front ++ low ∧ key < front ++ high ↔
      ∃ rest, key = front ++ rest ∧ ¬ rest < low ∧ rest < high := by
  constructor
  · rintro ⟨above, below⟩
    induction front generalizing key with
    | nil => exact ⟨key, rfl, above, below⟩
    | cons byte front step =>
        cases key with
        | nil => simp at above
        | cons byte' key =>
            rw [List.cons_append, List.cons_lt_cons_iff] at above below
            have same : byte' = byte := by
              rcases below with less | ⟨same, _⟩
              · exact absurd (.inl less) above
              · exact same
            subst same
            have tailAbove : ¬ key < front ++ low :=
              fun less => above (.inr ⟨rfl, less⟩)
            have tailBelow : key < front ++ high := by
              rcases below with less | ⟨_, less⟩
              · exact absurd less (UInt8.lt_irrefl byte')
              · exact less
            obtain ⟨rest, rfl, inside⟩ := step tailAbove tailBelow
            exact ⟨rest, rfl, inside⟩
  · rintro ⟨rest, rfl, above, below⟩
    exact ⟨fun less => above ((append_lt_append_left_iff _ _ _).1 less),
      (append_lt_append_left_iff _ _ _).2 below⟩

/-! ## Parts joined by colons -/

/-- The byte between two parts of a key. -/
def colon : UInt8 := 0x3a

/-- Parts with a colon between any two of them. -/
def joined : List Bytes → Bytes
  | [] => []
  | [part] => part
  | part :: next :: rest => part ++ colon :: joined (next :: rest)

theorem joined_concat
    {parts : List Bytes}
    (some : parts ≠ [])
    (last : Bytes) :
    joined (parts ++ [last]) = joined parts ++ colon :: last := by
  induction parts with
  | nil => exact absurd rfl some
  | cons part rest step =>
      cases rest with
      | nil => rfl
      | cons next rest =>
          have tail := step (by simp)
          rw [List.cons_append] at tail
          simp only [List.cons_append, joined, tail, List.append_assoc]

/-- There is one colon fewer than there are parts, and those that the parts
hold. -/
theorem count_joined
    {parts : List Bytes}
    (some : parts ≠ []) :
    (joined parts).count colon + 1 =
      parts.length + parts.flatten.count colon := by
  induction parts with
  | nil => exact absurd rfl some
  | cons part rest step =>
      cases rest with
      | nil => simp [joined]; omega
      | cons next rest =>
          have tail := step (by simp)
          simp only [joined, List.count_append, List.count_cons_self,
            List.flatten_cons, List.length_cons] at tail ⊢
          omega

/-- No part holds a colon. -/
def Apart (parts : List Bytes) : Prop :=
  ∀ part ∈ parts, colon ∉ part

theorem apart_iff_count {parts : List Bytes} :
    Apart parts ↔ parts.flatten.count colon = 0 := by
  rw [List.count_eq_zero, List.mem_flatten]
  constructor
  · rintro apart ⟨part, inside, held⟩
    exact apart part inside held
  · intro none part inside held
    exact none ⟨part, inside, held⟩

/-- Where a part without colons ends at a colon, another front of the same
string ends there too or goes on behind that colon. -/
theorem append_colon_cases
    {first second rest rest' : Bytes}
    (free : colon ∉ second)
    (same : first ++ colon :: rest = second ++ colon :: rest') :
    first = second ∧ rest = rest' ∨
    ∃ between, first = second ++ colon :: between ∧
      rest' = between ++ colon :: rest := by
  rcases List.append_eq_append_iff.1 same with ⟨more, whole, tails⟩ |
    ⟨more, whole, tails⟩
  · cases more with
    | nil =>
        exact .inl ⟨by rw [whole, List.append_nil], (List.cons.inj tails).2⟩
    | cons byte between =>
        rw [← (List.cons.inj tails).1] at whole
        exact absurd (by rw [whole]; simp) free
  · cases more with
    | nil =>
        exact .inl
          ⟨by rw [whole, List.append_nil], (List.cons.inj tails).2.symm⟩
    | cons byte between =>
        rw [← (List.cons.inj tails).1] at whole
        exact .inr ⟨between, whole, (List.cons.inj tails).2⟩

theorem append_colon_inj
    {first second rest rest' : Bytes}
    (firstFree : colon ∉ first)
    (secondFree : colon ∉ second)
    (same : first ++ colon :: rest = second ++ colon :: rest') :
    first = second ∧ rest = rest' := by
  rcases append_colon_cases secondFree same with equal | ⟨between, whole, _⟩
  · exact equal
  · exact absurd (by rw [whole]; simp) firstFree

private theorem joined_inj_of_apart
    {first second : List Bytes}
    (firstApart : Apart first)
    (secondApart : Apart second)
    (lengths : first.length = second.length)
    (same : joined first = joined second) :
    first = second := by
  induction first generalizing second with
  | nil => exact (List.length_eq_zero_iff.1 lengths.symm).symm
  | cons part rest step =>
      obtain ⟨part', rest', rfl⟩ :=
        List.exists_cons_of_length_eq_add_one lengths.symm
      have tails : rest.length = rest'.length := by simpa using lengths
      cases rest with
      | nil =>
          obtain rfl := List.length_eq_zero_iff.1 tails.symm
          rw [show part = part' from same]
      | cons next rest =>
          obtain ⟨next', rest', rfl⟩ :=
            List.exists_cons_of_length_eq_add_one tails.symm
          obtain ⟨heads, joins⟩ :=
            append_colon_inj (firstApart part List.mem_cons_self)
              (secondApart part' List.mem_cons_self) same
          rw [heads,
            step (fun part inside =>
              firstApart part (List.mem_cons_of_mem _ inside))
            (fun part inside =>
              secondApart part (List.mem_cons_of_mem _ inside)) tails joins]

/-- Equally many parts with the same joined string are the same, once those of
one side are free of colons: the other side has no colon to spare. -/
theorem joined_inj
    {first second : List Bytes}
    (apart : Apart second)
    (lengths : first.length = second.length)
    (same : joined first = joined second) :
    first = second := by
  by_cases none : second = []
  · subst none
    exact List.length_eq_zero_iff.1 lengths
  · have some : first ≠ [] := by
      rintro rfl
      exact none (List.length_eq_zero_iff.1 lengths.symm)
    have firstCount := count_joined some
    have secondCount := count_joined none
    rw [same] at firstCount
    rw [apart_iff_count.1 apart] at secondCount
    have firstApart : Apart first := apart_iff_count.2 (by omega)
    exact joined_inj_of_apart firstApart apart lengths same

end MessageBroker.Bytes
