import Mathlib.Algebra.GroupWithZero.Nat
import MessageBroker.Proofs.LogReading

/-!
# Pages are as long as they may be

A page is a front of what it is taken from.  It has at most so many elements,
and more than one only where their sizes stay within the budget.  Among the
fronts with these two properties the page that a scan collects is the longest,
whatever the sizes are.

The image of a list has the fronts of the list, so a page of entries is a page
of the messages that they are the entries of.
-/

namespace MessageBroker

/-- An allowed front of a list, no shorter than any other. -/
structure LongestFront
    {α : Type}
    (Allowed : List α → Prop)
    (whole front : List α) :
    Prop where
  within : front <+: whole
  allowed : Allowed front
  longest : ∀ other, other <+: whole → Allowed other →
    other.length ≤ front.length

/-- A page of so many elements, whose sizes stay within the budget if there is
more than one. -/
def IsAffordable
    {α : Type}
    (size : α → Nat)
    (most : Nat)
    (budget : Option Nat)
    (page : List α) :
    Prop :=
  page.length ≤ most ∧
    ∀ bound, budget = some bound → 1 < page.length → (page.map size).sum ≤ bound

/-- A longest front of an image is the image of a longest front. -/
theorem LongestFront.of_map
    {α β : Type}
    {change : α → β}
    {Allowed : List β → Prop}
    {whole : List α}
    {page : List β}
    (longest : LongestFront Allowed (whole.map change) page) :
    ∃ front, page = front.map change ∧
      LongestFront (fun front => Allowed (front.map change)) whole front := by
  have image : page = (whole.take page.length).map change := by
    rw [List.map_take]
    exact List.prefix_iff_eq_take.1 longest.within
  refine ⟨whole.take page.length, image, List.take_prefix _ _,
    image ▸ longest.allowed, ?_⟩
  intro other within allowed
  have short := longest.longest (other.map change) (within.map change) allowed
  rw [image, List.length_map, List.length_map] at short
  exact short

section Affordable

variable {α : Type} {size : α → Nat} {most : Nat} {whole page : List α}

/-- The first element is affordable whatever its size. -/
theorem LongestFront.ne_nil
    {budget : Option Nat}
    (longest : LongestFront (IsAffordable size most budget) whole page)
    (positive : 0 < most)
    (more : whole ≠ []) :
    page ≠ [] := by
  obtain ⟨first, later, rfl⟩ := List.exists_cons_of_ne_nil more
  have one := longest.longest [first] (List.prefix_append [first] later)
    ⟨positive, fun _ _ several => absurd several (Nat.lt_irrefl 1)⟩
  exact List.ne_nil_of_length_pos one

/-- An affordable page ends where it has as many elements as it may, or where
the next one is beyond the budget. -/
theorem LongestFront.ends
    {budget : Nat}
    {next : α}
    {later : List α}
    (longest : LongestFront (IsAffordable size most (some budget)) whole page)
    (split : page ++ next :: later = whole) :
    most ≤ page.length ∨ budget < (page.map size).sum + size next := by
  by_contra neither
  obtain ⟨short, room⟩ := not_or.1 neither
  have front : page ++ [next] <+: whole :=
    ⟨later, by rw [← split, List.append_assoc, List.singleton_append]⟩
  have longer : (page ++ [next]).length = page.length + 1 := List.length_append
  have affordable : IsAffordable size most (some budget) (page ++ [next]) := by
    refine ⟨longer ▸ Nat.not_le.1 short, ?_⟩
    rintro bound ⟨⟩ _
    rw [List.map_append, List.sum_append, List.map_singleton,
      List.sum_singleton]
    exact Nat.not_lt.1 room
  have bound := longest.longest _ front affordable
  rw [longer] at bound
  exact Nat.not_succ_le_self _ bound

end Affordable

namespace Keyspace

/-- The stored size of an entry. -/
def valueSize (entry : Bytes × Bytes) : Nat :=
  entry.2.length

theorem whileWithin_sum
    {budget total : Nat}
    {entries : List (Bytes × Bytes)}
    (more : whileWithin budget total entries ≠ []) :
    total + ((whileWithin budget total entries).map valueSize).sum ≤
      budget := by
  induction entries generalizing total with
  | nil => exact absurd rfl more
  | cons entry rest step =>
      unfold whileWithin at more ⊢
      split
      · rename_i enough
        rw [List.map_cons, List.sum_cons, valueSize, ← Nat.add_assoc]
        by_cases last : whileWithin budget (total + entry.2.length) rest = []
        · rw [last]
          exact enough
        · exact step last
      · rename_i exceeds
        rw [if_neg exceeds] at more
        exact absurd rfl more

theorem length_le_whileWithin
    {budget total : Nat}
    {front entries : List (Bytes × Bytes)}
    (within : front <+: entries)
    (enough : front ≠ [] → total + (front.map valueSize).sum ≤ budget) :
    front.length ≤ (whileWithin budget total entries).length := by
  induction front generalizing total entries with
  | nil => exact Nat.zero_le _
  | cons entry front step =>
      obtain ⟨rest, rfl, inner⟩ := List.cons_prefix_iff.1 within
      have whole := enough (List.cons_ne_nil entry front)
      rw [List.map_cons, List.sum_cons, valueSize, ← Nat.add_assoc] at whole
      rw [whileWithin, if_pos (Nat.le_trans (Nat.le_add_right _ _) whole)]
      exact Nat.succ_le_succ (step inner fun _ => whole)

/-- The budget is used up: no longer front of the entries stays within it. -/
theorem fitting_longest
    (budget : Nat)
    (entries : List (Bytes × Bytes)) :
    LongestFront
      (fun page => 1 < page.length → (page.map valueSize).sum ≤ budget) entries
      (fitting budget entries) := by
  refine ⟨fitting_front budget entries, ?_, ?_⟩
  · cases entries with
    | nil => exact fun several => absurd several (Nat.not_lt_zero 1)
    | cons entry rest =>
        intro several
        rw [fitting, List.map_cons, List.sum_cons]
        exact whileWithin_sum
          (List.ne_nil_of_length_pos (Nat.lt_of_succ_lt_succ several))
  · intro other within enough
    cases other with
    | nil => exact Nat.zero_le _
    | cons entry front =>
        obtain ⟨rest, rfl, inner⟩ := List.cons_prefix_iff.1 within
        refine Nat.succ_le_succ (length_le_whileWithin inner fun more => ?_)
        have whole := enough (Nat.succ_lt_succ (List.length_pos_iff.2 more))
        rw [List.map_cons, List.sum_cons] at whole
        exact whole

/-- A page of entries is the longest affordable front of them. -/
theorem page_longest
    (most : Nat)
    (budget : Option Nat)
    (entries : List (Bytes × Bytes)) :
    LongestFront (IsAffordable valueSize most budget) entries
      (page most budget entries) := by
  have taken : ∀ other, other <+: entries → other.length ≤ most →
      other <+: entries.take most := by
    intro other within short
    rw [List.prefix_iff_eq_take.1 within]
    exact List.take_prefix_take_left short
  have count := length_page_le most budget entries
  refine ⟨page_front most budget entries, ⟨count, ?_⟩, ?_⟩
  · rintro bound rfl several
    exact (fitting_longest bound (entries.take most)).allowed several
  · rintro other within ⟨short, enough⟩
    have front := taken other within short
    cases budget with
    | none => exact front.length_le
    | some bound =>
        exact (fitting_longest bound (entries.take most)).longest other front
          (enough bound rfl)

end Keyspace

namespace Log

/-! ## Pages of messages -/

/-- The entry of a message. -/
def entryOf (message : Message) : Bytes × Bytes :=
  ((Key.message message.home message.offset).bytes,
    Record.version :: message.layout)

/-- The stored size of a message. -/
def storedSize (message : Message) : Nat :=
  1 + message.encodedSize

theorem valueSize_entryOf (message : Message) :
    Keyspace.valueSize (entryOf message) = storedSize message := by
  rw [entryOf, Keyspace.valueSize, List.length_cons, Message.length_layout,
    storedSize, Nat.add_comm]

theorem isAffordable_map_entryOf
    {most : Nat}
    {budget : Option Nat}
    {messages : List Message} :
    IsAffordable Keyspace.valueSize most budget (messages.map entryOf) ↔
      IsAffordable storedSize most budget messages := by
  have same : Keyspace.valueSize ∘ entryOf = storedSize :=
    funext valueSize_entryOf
  rw [IsAffordable, List.length_map, List.map_map, same, IsAffordable]

end Log

end MessageBroker
