import MessageBroker.Proofs.LogChronicle
import MessageBroker.Proofs.LogPages

/-!
# Reading what a chronicle says

A window of a partition has the messages that the chronicle has at its offsets,
in offset order.  A scan of a described store finds their entries and nothing
else, so a read gives the longest front of them that may be given, each message
as it was first written.
-/

namespace MessageBroker

namespace Log

instance
    (window : Window)
    (offset : Offset) :
    Decidable (window.Spans offset) :=
  inferInstanceAs
    (Decidable (window.start ≤ offset ∧ ∀ stop ∈ window.stop, offset < stop))

namespace Chronicle

/-- The messages of a partition within a window, by offset. -/
def within
    (chronicle : Chronicle)
    (home : PartitionKey)
    (window : Window) :
    List Message :=
  ((chronicle.log home).entries.filter fun entry =>
      decide (window.Spans entry.1)).map Prod.snd

variable {chronicle : Chronicle} {store : Store}

/-- What a chronicle has at an offset is a message of that partition and
offset. -/
theorem Describes.home_offset
    (describes : chronicle.Describes store)
    {home : PartitionKey}
    {offset : Offset}
    {message : Message}
    (found : (chronicle.log home).get? offset = some message) :
    message.home = home ∧ message.offset = offset :=
  (describes.sound.contains_of_record
    ((describes.record home offset).trans found)).2

theorem Describes.mem_within_iff
    (describes : chronicle.Describes store)
    {home : PartitionKey}
    {window : Window}
    {message : Message} :
    message ∈ chronicle.within home window ↔
      (chronicle.log home).get? message.offset = some message ∧
      window.Spans message.offset := by
  simp only [within, List.mem_map, List.mem_filter, decide_eq_true_iff,
    Prod.exists, OrderedMap.mem_entries_iff]
  constructor
  · rintro ⟨offset, _, ⟨found, spans⟩, rfl⟩
    obtain ⟨_, rfl⟩ := describes.home_offset found
    exact ⟨found, spans⟩
  · rintro ⟨found, spans⟩
    exact ⟨message.offset, message, ⟨found, spans⟩, rfl⟩

theorem Describes.within_ordered
    (describes : chronicle.Describes store)
    (home : PartitionKey)
    (window : Window) :
    (chronicle.within home window).Pairwise fun earlier later =>
      earlier.offset < later.offset := by
  rw [within, List.pairwise_map]
  refine ((chronicle.log home).ordered.filter _).imp_of_mem ?_
  intro earlier later insideEarlier insideLater rises
  have offset_of : ∀ entry ∈ (chronicle.log home).entries,
      entry.2.offset = entry.1 :=
    fun entry inside =>
      (describes.home_offset (OrderedMap.mem_entries_iff.1 inside)).2
  rw [offset_of _ (List.mem_filter.1 insideEarlier).1,
    offset_of _ (List.mem_filter.1 insideLater).1]
  exact rises

/-! ## Entries -/

/-- A scan of a window finds the entries of the chronicle's messages.  Both
lists rise in their keys, so they are one as soon as they have the same
entries. -/
theorem Describes.entries_eq
    (describes : chronicle.Describes store)
    (home : PartitionKey)
    (window : Window) :
    entries store.keyspace home window =
      (chronicle.within home window).map entryOf := by
  have home_of : ∀ message ∈ chronicle.within home window,
      message.home = home :=
    fun message inside =>
      (describes.home_offset (describes.mem_within_iff.1 inside).1).1
  have ordered : ((chronicle.within home window).map entryOf).Pairwise
      fun earlier later => earlier.1 < later.1 := by
    rw [List.pairwise_map]
    refine (describes.within_ordered home window).imp_of_mem ?_
    intro earlier later insideEarlier insideLater rises
    simp only [entryOf, home_of _ insideEarlier, home_of _ insideLater]
    exact Key.message_bytes_lt_iff.2 rises
  apply OrderedMap.eq_of_mem_iff (Keyspace.between_ordered _ _ _) ordered
  rintro ⟨place, content⟩
  rw [List.mem_map]
  constructor
  · intro inside
    obtain ⟨offset, rfl, spans, found⟩ :=
      describes.sound.mem_entries_iff.1 inside
    obtain ⟨message, stored, rfl, rfl, named⟩ :=
      describes.sound.stored _ _ _ found
    have recorded :=
      describes.sound.record_iff.2 ⟨content, found, stored, rfl, rfl, named⟩
    rw [describes.record] at recorded
    refine ⟨message, describes.mem_within_iff.2 ⟨recorded, spans⟩, ?_⟩
    rw [entryOf, (Record.ofMessage_eq_ok_iff.1 stored).2]
  · rintro ⟨message, inside, same⟩
    cases same
    obtain ⟨recorded, spans⟩ := describes.mem_within_iff.1 inside
    rw [← describes.record] at recorded
    obtain ⟨content, found, stored, homes, _⟩ :=
      describes.sound.record_iff.1 recorded
    rw [← (Record.ofMessage_eq_ok_iff.1 stored).2]
    exact describes.sound.mem_entries_iff.2 ⟨message.offset, homes ▸ rfl, spans,
      found⟩

/-- The entries of messages of a window read back. -/
theorem Describes.mapM_entryOf
    (describes : chronicle.Describes store)
    {home : PartitionKey}
    {window : Window}
    {messages : List Message}
    (inside : ∀ message ∈ messages, message ∈ chronicle.within home window) :
    ((messages.map entryOf).mapM fun entry => Record.toMessage "read" entry.2) =
      .ok messages := by
  induction messages with
  | nil => rfl
  | cons message rest step =>
      obtain ⟨recorded, _⟩ :=
        describes.mem_within_iff.1 (inside message List.mem_cons_self)
      rw [← describes.record] at recorded
      obtain ⟨content, _, stored, _⟩ := describes.sound.record_iff.1 recorded
      rw [(Record.ofMessage_eq_ok_iff.1 stored).2] at stored
      exact mapM_cons_eq_ok_iff.2
        ⟨message, rest, Record.toMessage_ofMessage stored "read",
        step fun other later => inside other (List.mem_cons_of_mem _ later),
        rfl⟩

/-! ## Reads -/

/-- A read gives the longest affordable front of the chronicle's messages. -/
theorem Describes.read_eq
    (describes : chronicle.Describes store)
    (home : PartitionKey)
    (window : Window)
    (most : Nat)
    (budget : Option Nat) :
    ∃ page, read store.keyspace home window most budget = .ok page ∧
      LongestFront (IsAffordable storedSize most budget)
        (chronicle.within home window) page := by
  have longest :=
    Keyspace.page_longest most budget (entries store.keyspace home window)
  rw [describes.entries_eq] at longest
  obtain ⟨page, image, front⟩ := longest.of_map
  refine ⟨page, ?_, ?_⟩
  · rw [Sound.read_eq_mapM describes.sound, describes.entries_eq, image]
    exact describes.mapM_entryOf fun message inside =>
      front.within.subset inside
  · simp only [isAffordable_map_entryOf] at front
    exact front

/-- After any operations, failing ones included, a read gives the messages that
were first written at the offsets of its window, in offset order: the longest
front of them with at most `most` messages whose stored sizes stay within the
budget, and the first whatever its size. -/
theorem reads_first_writes
    (ids : IdSource)
    (operations : List Operation)
    (plain : ∀ operation ∈ operations, operation.IsPlain)
    (home : PartitionKey)
    (window : Window)
    (most : Nat)
    (budget : Option Nat) :
    let keyspace := ((History.start ids).run operations).store.keyspace
    let chronicle := (Chronicle.start ids).run operations
    ∃ page, read keyspace home window most budget = .ok page ∧
      LongestFront (IsAffordable storedSize most budget)
        (chronicle.within home window) page ∧
      page.Pairwise (fun earlier later => earlier.offset < later.offset) ∧
      ∀ message ∈ page, message.home = home ∧
        window.Spans message.offset ∧
        (chronicle.log home).get? message.offset = some message := by
  intro keyspace chronicle
  have describes :
      chronicle.Describes ((History.start ids).run operations).store :=
    (Describes.start ids).run plain
  obtain ⟨page, done, longest⟩ := describes.read_eq home window most budget
  refine ⟨page, done, longest, ?_, fun message inside => ?_⟩
  · exact (describes.within_ordered home window).sublist longest.within.sublist
  · obtain ⟨recorded, spans⟩ :=
      describes.mem_within_iff.1 (longest.within.subset inside)
    exact ⟨(describes.home_offset recorded).1, spans, recorded⟩

/-- Two topics, one of which begins like the other, with a hole and an offset
that is written twice. -/
def neighbours : List Operation :=
  [.place { topic := "t", offset := 3 },
    .place { topic := "t", offset := 10, payload := [1] },
    .place { topic := "t", offset := 10, payload := [2] },
    .append { topic := "t" }, .append { topic := "t1" },
    .place { topic := "t1", offset := 10 }]

theorem reads_first_writes_neighbours :
    (∀ operation ∈ neighbours, operation.IsPlain) ∧
    ∃ page,
      read ((History.start (.series 0)).run neighbours).store.keyspace ⟨"t", 0⟩
          ⟨4, none⟩ 5 (some 85) =
        .ok page ∧
      page.map (fun message => (message.offset, message.payload)) =
        [(10, [1]), (11, [])] := by
  have plain : ∀ operation ∈ neighbours, operation.IsPlain := by decide
  obtain ⟨page, done, _⟩ :=
    reads_first_writes (.series 0) neighbours plain ⟨"t", 0⟩ ⟨4, none⟩ 5
      (some 85)
  refine ⟨plain, page, done, ?_⟩
  have shown : ((read
          ((History.start (.series 0)).run neighbours).store.keyspace ⟨"t", 0⟩
          ⟨4, none⟩ 5 (some 85)).toOption.map
        fun page => page.map fun message => (message.offset, message.payload)) =
      some [(10, [1]), (11, [])] := by
    decide +kernel
  rw [done] at shown
  exact Option.some.inj shown

end Chronicle

end Log

end MessageBroker
