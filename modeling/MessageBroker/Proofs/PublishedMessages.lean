import MessageBroker.Proofs.Broadcasts

/-!
# Stores that hold what was published

A store carries what was published when each of its partitions holds just the
messages published there, numbered from zero in the order of publishing.  Then
the next offset is the count of them, what is stored from an offset on is what
was published from that number on, and one message more at the end is carried
along.
-/

namespace MessageBroker

/-- The messages of a partition, in order. -/
def messagesIn
    (home : PartitionKey)
    (published : List Message) :
    List Message :=
  published.filter (·.home = home)

theorem messagesIn_append
    (home : PartitionKey)
    (first second : List Message) :
    messagesIn home (first ++ second) =
      messagesIn home first ++ messagesIn home second :=
  List.filter_append ..

theorem messagesIn_concat
    (home : PartitionKey)
    (published : List Message)
    (message : Message) :
    messagesIn home (published ++ [message]) =
      messagesIn home published ++
        if message.home = home then [message] else [] := by
  rw [messagesIn_append]
  congr 1
  simp [messagesIn, List.filter_cons]

namespace Store

/-- A sound store holds just what was published. -/
structure Carries (store : Store) (published : List Message) : Prop where
  sound : store.Sound
  record : ∀ home offset, Log.record? store.keyspace home offset =
    (messagesIn home published)[offset.toNat]?

variable {store after : Store} {published : List Message} {home : PartitionKey}

theorem Carries.empty (ids : IdSource) : (Store.empty ids).Carries [] where
  sound := .empty ids
  record _ _ := rfl

theorem Carries.holds_iff
    (carries : store.Carries published)
    (home : PartitionKey)
    (offset : Offset) :
    Log.Holds store.keyspace home offset ↔
      offset.toNat < (messagesIn home published).length := by
  rw [Log.Sound.holds_iff carries.sound, carries.record,
    ← Option.isSome_iff_exists]
  simp

/-- The next offset of a partition is the count of what was published there. -/
theorem Carries.toNat_next
    (carries : store.Carries published)
    (home : PartitionKey) :
    (store.next home).toNat = (messagesIn home published).length := by
  have ended := carries.sound.ended home
  have holds := carries.holds_iff home
  unfold Store.next Ends.next
  cases known : store.ends.get? home with
  | none =>
      rw [known] at ended
      have nothing := fun some => ended 0 ((holds 0).2 some)
      exact (Nat.eq_zero_of_not_pos nothing).symm
  | some next =>
      rw [known] at ended
      obtain ⟨⟨last, held, follows⟩, above⟩ := ended
      have counted := (holds last).1 held
      refine Nat.le_antisymm (follows ▸ counted)
        (Nat.le_of_not_lt fun more => ?_)
      exact UInt64.lt_irrefl next (above next ((holds next).2 more))

/-- The messages of a partition are numbered in the order of publishing. -/
theorem Carries.numbered
    (carries : store.Carries published)
    {index : Nat}
    {message : Message}
    (found : (messagesIn home published)[index]? = some message) :
    message.offset.toNat = index := by
  obtain ⟨few, _⟩ := List.getElem?_eq_some_iff.1 found
  rw [← carries.toNat_next] at few
  have place : (UInt64.ofNat index).toNat = index :=
    UInt64.toNat_ofNat_of_lt' (Nat.lt_trans few (UInt64.toNat_lt _))
  have recorded := carries.record home (.ofNat index)
  rw [place, found] at recorded
  obtain ⟨_, _, offset⟩ := Log.Sound.contains_of_record carries.sound recorded
  rw [offset, place]

/-- A store that has the same records carries the same. -/
theorem Carries.of_grows
    (carries : store.Carries published)
    (grows : Grows (fun _ => False) store after) :
    after.Carries published :=
  ⟨grows.sound, fun home offset =>
    (grows.record_eq home offset).trans (carries.record home offset)⟩

/-- A store that gains a message at the end of its partition carries it. -/
theorem Carries.gain
    (carries : store.Carries published)
    {message : Message}
    (ends : message.offset.toNat = (messagesIn message.home published).length)
    (gains : Gains message store after) :
    after.Carries (published ++ [message]) := by
  refine ⟨gains.sound, fun home offset => ?_⟩
  rw [gains.record, carries.record, messagesIn_concat]
  by_cases place : home = message.home
  · subst place
    rw [if_pos rfl]
    by_cases last : offset = message.offset
    · rw [if_pos ⟨rfl, last⟩, last, ends,
        List.getElem?_append_right (Nat.le_refl _), Nat.sub_self]
      rfl
    · have apart : offset.toNat ≠ (messagesIn message.home published).length :=
        fun same => last (UInt64.toNat_inj.1 (same.trans ends.symm))
      rw [if_neg fun same => last same.2, List.getElem?_append]
      split
      · rfl
      · rw [List.getElem?_eq_none (by omega),
          List.getElem?_eq_none (by simp; omega)]
  · rw [if_neg fun same => place same.1, if_neg fun same => place same.symm,
      List.append_nil]

theorem home_of_mem_messagesIn
    {message : Message}
    (inside : message ∈ messagesIn home published) :
    message.home = home :=
  of_decide_eq_true (List.mem_filter.1 inside).2

/-- What is stored from an offset on is what was published from that number
on. -/
theorem Carries.records_eq
    (carries : store.Carries published)
    (home : PartitionKey)
    (start : Offset) :
    Log.records store.keyspace home { start := start } =
      (messagesIn home published).drop start.toNat := by
  have whole : ∀ {index : Nat} {message : Message},
      ((messagesIn home published).drop start.toNat)[index]? = some message →
        (messagesIn home published)[start.toNat + index]? = some message :=
    fun found => List.getElem?_drop ▸ found
  symm
  apply Log.Sound.eq_records carries.sound
  · refine List.pairwise_iff_getElem.2 fun earlier later few many less => ?_
    have first := carries.numbered (whole (List.getElem?_eq_getElem few))
    have second := carries.numbered (whole (List.getElem?_eq_getElem many))
    rw [UInt64.lt_iff_toNat_lt, first, second]
    exact Nat.add_lt_add_left less _
  · intro message
    rw [Log.Sound.mem_records_iff carries.sound, List.mem_iff_getElem?]
    constructor
    · rintro ⟨index, found⟩
      have among := whole found
      have number := carries.numbered among
      have own : message.home = home :=
        home_of_mem_messagesIn (List.mem_of_getElem? among)
      refine ⟨own, ?_, ?_, nofun⟩
      · rw [Log.Contains, carries.record, own, number]
        exact among
      · rw [UInt64.le_iff_toNat_le, number]
        exact Nat.le_add_right _ _
    · rintro ⟨rfl, held, least, _⟩
      rw [Log.Contains, carries.record] at held
      rw [UInt64.le_iff_toNat_le] at least
      refine ⟨message.offset.toNat - start.toNat, ?_⟩
      rw [List.getElem?_drop, Nat.add_sub_cancel' least]
      exact held

/-- A read from an offset on brings a front of what was published from that
number on, and nothing only where there is nothing more. -/
theorem Carries.read
    (carries : store.Carries published)
    (home : PartitionKey)
    (start : Offset)
    (most : Nat) :
    ∃ batch, Log.read store.keyspace home { start := start } most = .ok batch ∧
      batch <+: (messagesIn home published).drop start.toNat ∧
      batch.length ≤ most ∧
      (0 < most → batch = [] →
        (messagesIn home published).length ≤ start.toNat) := by
  rcases Log.Sound.read_eq carries.sound home { start := start } most none with
    ⟨batch, done, front, short, some⟩
  rw [carries.records_eq] at front some
  exact ⟨batch, done, front, short, fun positive empty =>
    List.drop_eq_nil_iff.1 (some positive empty)⟩

/-- Right behind the last message of such a front lies the number that it
reaches. -/
theorem Carries.next_of_front
    (carries : store.Carries published)
    {start : Nat}
    {batch : List Message}
    (front : batch <+: (messagesIn home published).drop start)
    (some : batch ≠ []) :
    ∃ next,
      (batch.getLast?.bind fun last => last.offset.next?) = Option.some next ∧
      next.toNat = start + batch.length := by
  rcases List.eq_nil_or_concat batch with rfl | ⟨earlier, last, rfl⟩
  · exact absurd rfl some
  rw [List.concat_eq_append] at front ⊢
  have place : (messagesIn home published)[start + earlier.length]? =
      Option.some last := by
    rcases front with ⟨rest, whole⟩
    rw [← List.getElem?_drop, ← whole, List.append_assoc,
      List.getElem?_append_right (Nat.le_refl _), Nat.sub_self]
    rfl
  have number := carries.numbered place
  have held : Log.Contains store.keyspace last := by
    have own : last.home = home :=
      home_of_mem_messagesIn (List.mem_of_getElem? place)
    rw [Log.Contains, carries.record, own, number]
    exact place
  have room := carries.sound.room_after held
  refine ⟨.ofNat (last.offset.toNat + 1), ?_, ?_⟩
  · rw [List.getLast?_concat]
    exact Offset.next?_eq_some_iff.2 (UInt64.toNat_ofNat_of_lt' room)
  · rw [UInt64.toNat_ofNat_of_lt' room, number, List.length_append]
    rfl

end Store

end MessageBroker
