/-!
# Ordered maps

A map is held as its list of entries in strictly increasing key order, so equal
maps are equal lists and a scan is a part of the list.

`get?_insert` and `get?_erase` say what the two changes do to every key;
`ext_get?` says that nothing but the values of keys distinguishes two maps.
-/

namespace MessageBroker

/-- A strict linear order. -/
class StrictOrder (key : Type) [LT key] : Prop where
  /-- Nothing is below itself. -/
  irrefl : ∀ first : key, ¬ first < first
  /-- Below is transitive. -/
  trans : ∀ {first second third : key}, first < second → second < third →
    first < third
  /-- Any two are comparable. -/
  trichotomy : ∀ first second : key, first < second ∨ first = second ∨
    second < first

/-- A map from keys to values, by key. -/
structure OrderedMap (key value : Type) [LT key] where
  /-- The entries, by key. -/
  entries : List (key × value)
  /-- Keys strictly increase. -/
  ordered : entries.Pairwise fun earlier later => earlier.1 < later.1

namespace OrderedMap

/-! ## Lists of entries -/

section Lists

variable {key value : Type} [DecidableEq key]

/-- Drop the entry with a key. -/
def drop (place : key) (entries : List (key × value)) : List (key × value) :=
  entries.filter fun entry => !decide (entry.1 = place)

/-- The value of a key in a list of entries. -/
def find? (place : key) : List (key × value) → Option value
  | [] => none
  | entry :: rest => if place = entry.1 then some entry.2 else find? place rest

theorem find?_drop
    (place sought : key)
    (entries : List (key × value)) :
    find? sought (drop place entries) =
      if sought = place then none else find? sought entries := by
  induction entries with
  | nil => simp [drop, find?]
  | cons head rest step =>
      rw [drop] at step
      rw [drop, List.filter_cons]
      by_cases dropped : head.1 = place
      · rw [if_neg (by simp [dropped]), step]
        by_cases same : sought = place
        · simp [same]
        · simp [find?, dropped, same]
      · rw [if_pos (by simp [dropped])]
        by_cases same : sought = head.1
        · have other : sought ≠ place := fun again => dropped (same ▸ again)
          simp only [find?, if_pos same, if_neg other]
        · simp only [find?, if_neg same, step]

end Lists

variable {key value : Type} [LT key]

theorem find?_eq_some_iff
    [DecidableEq key]
    [StrictOrder key]
    {entries : List (key × value)}
    (ordered : entries.Pairwise fun earlier later => earlier.1 < later.1)
    {place : key}
    {content : value} :
    find? place entries = some content ↔ (place, content) ∈ entries := by
  induction entries with
  | nil => simp [find?]
  | cons head rest step =>
      obtain ⟨below, tail⟩ := List.pairwise_cons.1 ordered
      by_cases same : place = head.1
      · subst same
        simp only [find?, if_pos, List.mem_cons]
        constructor
        · intro found
          cases found
          exact .inl rfl
        · rintro (found | later)
          · rw [← found]
          · exact absurd (below _ later) (StrictOrder.irrefl _)
      · simp only [find?, if_neg same, List.mem_cons, step tail]
        constructor
        · exact .inr
        · rintro (found | later)
          · exact absurd (congrArg Prod.fst found) same
          · exact later

/-- Two ordered lists with the same entries are the same list. -/
theorem eq_of_mem_iff
    [StrictOrder key]
    {first second : List (key × value)}
    (orderedFirst : first.Pairwise fun earlier later => earlier.1 < later.1)
    (orderedSecond : second.Pairwise fun earlier later => earlier.1 < later.1)
    (same : ∀ entry, entry ∈ first ↔ entry ∈ second) :
    first = second := by
  induction first generalizing second with
  | nil =>
      cases second with
      | nil => rfl
      | cons head rest =>
          exact absurd ((same head).2 List.mem_cons_self) (by simp)
  | cons head rest step =>
      cases second with
      | nil => exact absurd ((same head).1 List.mem_cons_self) (by simp)
      | cons head' rest' =>
          obtain ⟨below, tail⟩ := List.pairwise_cons.1 orderedFirst
          obtain ⟨below', tail'⟩ := List.pairwise_cons.1 orderedSecond
          have heads : head = head' := by
            rcases List.mem_cons.1 ((same head).1 List.mem_cons_self) with
              equal | later
            · exact equal
            · rcases List.mem_cons.1 ((same head').2 List.mem_cons_self) with
                equal | later'
              · exact equal.symm
              · exact absurd
                  (StrictOrder.trans (below _ later') (below' _ later))
                  (StrictOrder.irrefl _)
          subst heads
          congr 1
          apply step tail tail'
          intro entry
          constructor
          · intro inside
            rcases List.mem_cons.1
              ((same entry).1 (List.mem_cons_of_mem _ inside)) with
              equal | later
            · exact absurd (equal ▸ below _ inside) (StrictOrder.irrefl _)
            · exact later
          · intro inside
            rcases List.mem_cons.1
              ((same entry).2 (List.mem_cons_of_mem _ inside)) with
              equal | later
            · exact absurd (equal ▸ below' _ inside) (StrictOrder.irrefl _)
            · exact later

variable [DecidableEq key]

/-- Put an entry at its place, over the one with the same key. -/
def put
    [DecidableLT key]
    (place : key)
    (content : value) :
    List (key × value) → List (key × value)
  | [] => [(place, content)]
  | entry :: rest =>
      if place < entry.1 then (place, content) :: entry :: rest
      else if place = entry.1 then (place, content) :: rest
      else entry :: put place content rest

theorem mem_put
    [DecidableLT key]
    {place : key}
    {content : value}
    {entries : List (key × value)}
    {entry : key × value}
    (inside : entry ∈ put place content entries) :
    entry = (place, content) ∨ entry ∈ entries := by
  induction entries with
  | nil => simpa [put] using inside
  | cons head rest step =>
      unfold put at inside
      split at inside
      · simpa using inside
      · split at inside
        · rcases List.mem_cons.1 inside with rfl | inside
          · exact .inl rfl
          · exact .inr (List.mem_cons_of_mem _ inside)
        · rcases List.mem_cons.1 inside with rfl | inside
          · exact .inr List.mem_cons_self
          · rcases step inside with same | inside
            · exact .inl same
            · exact .inr (List.mem_cons_of_mem _ inside)

theorem ordered_put
    [DecidableLT key]
    [StrictOrder key]
    (place : key)
    (content : value)
    {entries : List (key × value)}
    (ordered : entries.Pairwise fun earlier later => earlier.1 < later.1) :
    (put place content entries).Pairwise fun earlier later =>
      earlier.1 < later.1 := by
  induction entries with
  | nil => simp [put]
  | cons head rest step =>
      obtain ⟨below, tail⟩ := List.pairwise_cons.1 ordered
      unfold put
      split
      · rename_i first
        refine List.pairwise_cons.2 ⟨?_, ordered⟩
        intro entry inside
        rcases List.mem_cons.1 inside with rfl | inside
        · exact first
        · exact StrictOrder.trans first (below entry inside)
      · rename_i notFirst
        split
        · rename_i same
          subst same
          exact List.pairwise_cons.2 ⟨below, tail⟩
        · rename_i different
          refine List.pairwise_cons.2 ⟨?_, step tail⟩
          intro entry inside
          rcases mem_put inside with rfl | inside
          · rcases StrictOrder.trichotomy place head.1 with less | same | more
            · exact absurd less notFirst
            · exact absurd same different
            · exact more
          · exact below entry inside

/-! ## The map -/

/-- The map without entries. -/
def empty : OrderedMap key value :=
  ⟨[], .nil⟩

/-- The value of a key. -/
def get? (map : OrderedMap key value) (place : key) : Option value :=
  find? place map.entries

/-- Give a key a value. -/
def insert
    [DecidableLT key]
    [StrictOrder key]
    (map : OrderedMap key value)
    (place : key)
    (content : value) :
    OrderedMap key value :=
  ⟨put place content map.entries, ordered_put place content map.ordered⟩

/-- Take a key's value away. -/
def erase (map : OrderedMap key value) (place : key) : OrderedMap key value :=
  ⟨drop place map.entries, map.ordered.filter _⟩

/-- The count of entries. -/
def size (map : OrderedMap key value) : Nat :=
  map.entries.length

/-! ## What the changes do to every key -/

theorem find?_put
    [DecidableLT key]
    (place : key)
    (content : value)
    (sought : key)
    (entries : List (key × value)) :
    find? sought (put place content entries) =
      if sought = place then some content else find? sought entries := by
  induction entries with
  | nil => rfl
  | cons head rest step =>
      unfold put
      split
      · simp [find?]
      · split
        · rename_i same
          subst same
          by_cases same : sought = head.1 <;> simp [find?, same]
        · rename_i different
          by_cases same : sought = head.1
          · have other : sought ≠ place := fun again => different (again ▸ same)
            simp only [find?, if_pos same, if_neg other]
          · simp only [find?, if_neg same, step]

theorem get?_insert
    [DecidableLT key]
    [StrictOrder key]
    (map : OrderedMap key value)
    (place : key)
    (content : value)
    (sought : key) :
    (map.insert place content).get? sought =
      if sought = place then some content else map.get? sought :=
  find?_put place content sought map.entries

theorem get?_erase
    (map : OrderedMap key value)
    (place sought : key) :
    (map.erase place).get? sought =
      if sought = place then none else map.get? sought :=
  find?_drop place sought map.entries

theorem mem_entries_iff
    [StrictOrder key]
    {map : OrderedMap key value}
    {place : key}
    {content : value} :
    (place, content) ∈ map.entries ↔ map.get? place = some content :=
  (find?_eq_some_iff map.ordered).symm

/-- Maps that agree on every key are equal. -/
theorem ext_get?
    [StrictOrder key]
    {first second : OrderedMap key value}
    (same : ∀ place, first.get? place = second.get? place) :
    first = second := by
  have lists : first.entries = second.entries := by
    apply eq_of_mem_iff first.ordered second.ordered
    intro entry
    rw [← find?_eq_some_iff first.ordered, ← find?_eq_some_iff second.ordered]
    rw [show find? entry.1 first.entries = find? entry.1 second.entries from
      same entry.1]
  cases first
  cases second
  cases lists
  rfl

end OrderedMap

end MessageBroker
