import Mathlib.Data.List.Sort
import MessageBroker.Proofs.KeyOrder
import MessageBroker.Proofs.LogState

/-!
# Reading a log

The records of a window are the messages stored within it, in offset order, each
once.  In a sound store a read never fails, and its page is a front of them,
which is empty only where there are none.  How long the front is depends on the
counts and sizes that the read was given.
-/

namespace MessageBroker

namespace Keyspace

/-! ## Pages -/

theorem whileWithin_front
    (budget total : Nat)
    (entries : List (Bytes × Bytes)) :
    whileWithin budget total entries <+: entries := by
  induction entries generalizing total with
  | nil => exact List.prefix_refl []
  | cons entry rest step =>
      unfold whileWithin
      split
      · exact (List.prefix_cons_inj entry).2 (step _)
      · exact List.nil_prefix

theorem fitting_front
    (budget : Nat)
    (entries : List (Bytes × Bytes)) :
    fitting budget entries <+: entries := by
  cases entries with
  | nil => exact List.prefix_refl []
  | cons entry rest =>
      exact (List.prefix_cons_inj entry).2 (whileWithin_front _ _ rest)

theorem fitting_eq_nil_iff
    {budget : Nat}
    {entries : List (Bytes × Bytes)} :
    fitting budget entries = [] ↔ entries = [] := by
  cases entries <;> simp [fitting]

/-- The entries of a page: no more than `most`, and within the budget where
there is one. -/
def page
    (most : Nat)
    (budget : Option Nat)
    (entries : List (Bytes × Bytes)) :
    List (Bytes × Bytes) :=
  match budget with
  | some budget => fitting budget (entries.take most)
  | none => entries.take most

theorem page_front
    (most : Nat)
    (budget : Option Nat)
    (entries : List (Bytes × Bytes)) :
    page most budget entries <+: entries := by
  cases budget with
  | none => exact List.take_prefix most entries
  | some budget =>
      exact (fitting_front budget _).trans (List.take_prefix most entries)

theorem length_page_le
    (most : Nat)
    (budget : Option Nat)
    (entries : List (Bytes × Bytes)) :
    (page most budget entries).length ≤ most := by
  have short : (entries.take most).length ≤ most :=
    List.length_take_le most entries
  cases budget with
  | none => exact short
  | some budget => exact Nat.le_trans (fitting_front budget _).length_le short

theorem page_eq_nil_iff
    {most : Nat}
    (positive : 0 < most)
    {budget : Option Nat}
    {entries : List (Bytes × Bytes)} :
    page most budget entries = [] ↔ entries = [] := by
  have taken : entries.take most = [] ↔ entries = [] := by
    rw [List.take_eq_nil_iff, or_iff_right (Nat.ne_of_gt positive)]
  cases budget with
  | none => exact taken
  | some budget => exact fitting_eq_nil_iff.trans taken

end Keyspace

namespace Log

variable {keyspace : Keyspace} {ends : Ends}

/-! ## Windows -/

/-- An offset lies in a window. -/
def Window.Spans (window : Window) (offset : Offset) : Prop :=
  window.start ≤ offset ∧ ∀ stop, window.stop = some stop → offset < stop

theorem Window.not_spans_of_isEmpty
    {window : Window}
    (empty : window.isEmpty = true)
    (offset : Offset) :
    ¬ window.Spans offset := by
  obtain ⟨start, stop⟩ := window
  rintro ⟨least, below⟩
  cases stop with
  | none => cases empty
  | some stop =>
      have inverted : stop ≤ start := by simpa [isEmpty] using empty
      have under : offset < stop := below stop rfl
      exact UInt64.not_lt.2 (UInt64.le_trans inverted least) under

/-- The entries of a window are those of the partition's messages within it. -/
theorem Sound.mem_entries_iff
    (sound : Sound keyspace ends)
    {home : PartitionKey}
    {window : Window}
    {place content : Bytes} :
    (place, content) ∈ entries keyspace home window ↔
      ∃ offset, place = (Key.message home offset).bytes ∧
        window.Spans offset ∧
        keyspace.get? (Key.message home offset).bytes = some content := by
  unfold entries
  rw [Keyspace.mem_between_iff]
  constructor
  · rintro ⟨within, found⟩
    obtain ⟨key, plain, same⟩ := sound.legible place content found
    rw [same] at within found
    obtain ⟨offset, rfl, spans⟩ := (Key.window_iff plain).1 within
    exact ⟨offset, same, spans, found⟩
  · rintro ⟨offset, same, spans, found⟩
    rw [same]
    exact ⟨(Key.window_iff (sound.legible.isPlain found)).2
      ⟨offset, rfl, spans⟩, found⟩

/-! ## Records -/

/-- The messages of a partition within a window, in the order of their keys. -/
def records
    (keyspace : Keyspace)
    (home : PartitionKey)
    (window : Window) :
    List Message :=
  (entries keyspace home window).filterMap fun entry =>
    (Record.toMessage "read" entry.2).toOption

/-- The records of a window are the messages stored at its offsets. -/
theorem Sound.mem_records_iff
    (sound : Sound keyspace ends)
    {home : PartitionKey}
    {window : Window}
    {message : Message} :
    message ∈ records keyspace home window ↔
      message.home = home ∧ Contains keyspace message ∧
      window.Spans message.offset := by
  rw [records, List.mem_filterMap]
  constructor
  · rintro ⟨⟨place, content⟩, inside, read⟩
    obtain ⟨offset, _, spans, found⟩ := sound.mem_entries_iff.1 inside
    have recorded : record? keyspace home offset = some message := by
      rw [record?, found]
      exact read
    obtain ⟨held, homes, rfl⟩ := sound.contains_of_record recorded
    exact ⟨homes, held, spans⟩
  · rintro ⟨rfl, held, spans⟩
    obtain ⟨content, found, stored, _⟩ := sound.record_iff.1 held
    refine ⟨((Key.message message.home message.offset).bytes, content),
      sound.mem_entries_iff.2 ⟨_, rfl, spans, found⟩, ?_⟩
    rw [Record.toMessage_ofMessage stored]
    rfl

/-- The records of a window rise in offset. -/
theorem Sound.records_ordered
    (sound : Sound keyspace ends)
    (home : PartitionKey)
    (window : Window) :
    (records keyspace home window).Pairwise fun earlier later =>
      earlier.offset < later.offset := by
  have offset_of : ∀ entry ∈ entries keyspace home window, ∀ message,
      (Record.toMessage "read" entry.2).toOption = some message →
        entry.1 = (Key.message home message.offset).bytes := by
    rintro ⟨place, content⟩ inside message read
    obtain ⟨offset, same, _, found⟩ := sound.mem_entries_iff.1 inside
    have recorded : record? keyspace home offset = some message := by
      rw [record?, found]
      exact read
    rw [same, (sound.contains_of_record recorded).2.2]
  rw [records, List.pairwise_filterMap]
  refine (Keyspace.between_ordered keyspace _ _).imp_of_mem ?_
  intro earlier later insideEarlier insideLater rises message readMessage
    message' readMessage'
  rw [offset_of _ insideEarlier message readMessage,
    offset_of _ insideLater message' readMessage'] at rises
  exact Key.message_bytes_lt_iff.1 rises

/-- A list is that of the records of a window when it rises and has the same
members. -/
theorem Sound.eq_records
    (sound : Sound keyspace ends)
    {home : PartitionKey}
    {window : Window}
    {listed : List Message}
    (ordered : listed.Pairwise fun earlier later =>
      earlier.offset < later.offset)
    (same : ∀ message, message ∈ listed ↔
      message ∈ records keyspace home window) :
    listed = records keyspace home window := by
  have antisymm : Std.Antisymm fun earlier later : Message =>
      earlier.offset < later.offset :=
    ⟨fun _ _ less more => absurd more (UInt64.lt_asymm less)⟩
  have irrefl : Std.Irrefl fun earlier later : Message =>
      earlier.offset < later.offset :=
    ⟨fun _ => UInt64.lt_irrefl _⟩
  exact ordered.eq_of_mem_iff (sound.records_ordered home window) same

/-- The records of a window are those of two windows that lie end to end. -/
theorem Sound.records_split
    (sound : Sound keyspace ends)
    {home : PartitionKey}
    {start middle finish : Offset}
    (before : start ≤ middle)
    (after : middle ≤ finish) :
    records keyspace home ⟨start, some finish⟩ =
      records keyspace home ⟨start, some middle⟩ ++
        records keyspace home ⟨middle, some finish⟩ := by
  symm
  apply sound.eq_records
  · refine List.pairwise_append.2
      ⟨sound.records_ordered home _, sound.records_ordered home _, ?_⟩
    intro earlier first later second
    rcases sound.mem_records_iff.1 first with ⟨_, _, _, below⟩
    rcases sound.mem_records_iff.1 second with ⟨_, _, least, _⟩
    exact UInt64.lt_of_lt_of_le (below middle rfl) least
  · intro message
    rw [List.mem_append, sound.mem_records_iff, sound.mem_records_iff,
      sound.mem_records_iff, ← and_or_left, ← and_or_left]
    refine and_congr Iff.rfl (and_congr Iff.rfl ?_)
    simp only [Window.Spans, Option.some.injEq, forall_eq',
      UInt64.lt_iff_toNat_lt, UInt64.le_iff_toNat_le] at before after ⊢
    omega

/-! ## Reads -/

/-- Every stored value of a window reads. -/
theorem Sound.reads
    (sound : Sound keyspace ends)
    {home : PartitionKey}
    {window : Window}
    {entry : Bytes × Bytes}
    (inside : entry ∈ entries keyspace home window) :
    ∃ message, Record.toMessage "read" entry.2 = .ok message := by
  obtain ⟨_, _, _, found⟩ := sound.mem_entries_iff.1 inside
  obtain ⟨message, stored, _⟩ := sound.stored _ _ _ found
  exact ⟨message, Record.toMessage_ofMessage stored "read"⟩

theorem Sound.mapM_entries
    (sound : Sound keyspace ends)
    {home : PartitionKey}
    {window : Window}
    {page : List (Bytes × Bytes)}
    (inside : ∀ entry ∈ page, entry ∈ entries keyspace home window) :
    (page.mapM fun entry => Record.toMessage "read" entry.2) =
      .ok
        (page.filterMap fun entry =>
          (Record.toMessage "read" entry.2).toOption) := by
  induction page with
  | nil => rfl
  | cons entry rest step =>
      obtain ⟨message, read⟩ := sound.reads (inside entry List.mem_cons_self)
      have tail :=
        step fun other later => inside other (List.mem_cons_of_mem _ later)
      refine mapM_cons_eq_ok_iff.2 ⟨message, _, read, tail, ?_⟩
      rw [List.filterMap_cons, read]
      rfl

theorem read_eq_page
    (keyspace : Keyspace)
    (home : PartitionKey)
    (window : Window)
    (most : Nat)
    (budget : Option Nat) :
    read keyspace home window most budget =
      if most = 0 ∨ window.isEmpty then .ok []
      else (Keyspace.page most budget (entries keyspace home window)).mapM
        fun entry => Record.toMessage "read" entry.2 := by
  cases budget <;> rfl

theorem Sound.entries_eq_nil
    (sound : Sound keyspace ends)
    (home : PartitionKey)
    {window : Window}
    (empty : window.isEmpty = true) :
    entries keyspace home window = [] := by
  apply List.eq_nil_iff_forall_not_mem.2
  rintro ⟨place, content⟩ inside
  obtain ⟨offset, _, spans, _⟩ := sound.mem_entries_iff.1 inside
  exact Window.not_spans_of_isEmpty empty offset spans

theorem Sound.records_eq_nil
    (sound : Sound keyspace ends)
    (home : PartitionKey)
    {window : Window}
    (empty : window.isEmpty = true) :
    records keyspace home window = [] := by
  rw [records, sound.entries_eq_nil home empty, List.filterMap_nil]

/-- There are no records between an offset and itself. -/
theorem Sound.records_self
    (sound : Sound keyspace ends)
    {home : PartitionKey}
    (start : Offset) :
    records keyspace home ⟨start, some start⟩ = [] :=
  sound.records_eq_nil home (by simp [Window.isEmpty])

/-- A read decodes a page of the window's entries; where it looks at none, that
page is empty. -/
theorem Sound.read_eq_mapM
    (sound : Sound keyspace ends)
    (home : PartitionKey)
    (window : Window)
    (most : Nat)
    (budget : Option Nat) :
    read keyspace home window most budget =
      (Keyspace.page most budget (entries keyspace home window)).mapM
        fun entry => Record.toMessage "read" entry.2 := by
  rw [read_eq_page]
  split
  · rename_i nothing
    have none : Keyspace.page most budget (entries keyspace home window) =
        [] := by
      rcases nothing with rfl | empty
      · exact List.length_eq_zero_iff.1
          (Nat.le_zero.1 (Keyspace.length_page_le 0 budget _))
      · have front :=
          Keyspace.page_front most budget (entries keyspace home window)
        rw [sound.entries_eq_nil home empty] at front ⊢
        exact List.prefix_nil.1 front
    rw [none]
    rfl
  · rfl

/-- A read never fails and gives a front of the window's records, at least one
where it may. -/
theorem Sound.read_eq
    (sound : Sound keyspace ends)
    (home : PartitionKey)
    (window : Window)
    (most : Nat)
    (budget : Option Nat) :
    ∃ page, read keyspace home window most budget = .ok page ∧
      page <+: records keyspace home window ∧
      page.length ≤ most ∧
      (0 < most → page = [] → records keyspace home window = []) := by
  have front := Keyspace.page_front most budget (entries keyspace home window)
  have short :=
    Keyspace.length_page_le most budget (entries keyspace home window)
  rw [sound.read_eq_mapM, sound.mapM_entries fun entry inside =>
    front.subset inside]
  refine ⟨_, rfl, front.filterMap _,
    Nat.le_trans (List.length_filterMap_le _ _) short, fun positive empty => ?_⟩
  have none : Keyspace.page most budget (entries keyspace home window) =
      [] := by
    apply List.eq_nil_iff_forall_not_mem.2
    intro entry inside
    obtain ⟨message, shown⟩ := sound.reads (front.subset inside)
    exact List.not_mem_nil
      (empty ▸ List.mem_filterMap.2 ⟨entry, inside, by rw [shown]; rfl⟩)
  rw [records, (Keyspace.page_eq_nil_iff positive).1 none, List.filterMap_nil]

end Log

end MessageBroker
