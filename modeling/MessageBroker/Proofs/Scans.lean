import MessageBroker.Keyspace.Record
import MessageBroker.Proofs.KeyRanges

/-!
# Scans of a keyspace

A scan lists what the keyspace holds at the keys that it looks at, in key order,
so it is known once the values of those keys are: two keyspaces that agree on
them give the same list.  A legible keyspace has no keys but those of plain
records; there a change of one record is a change of one key.
-/

namespace MessageBroker

namespace Keyspace

/-! ## Lists that scans give -/

theorem mem_withStem_iff
    {keyspace : Keyspace}
    {stem : String}
    {place content : Bytes} :
    (place, content) ∈ keyspace.withStem stem ↔
      Bytes.ofText stem <+: place ∧ keyspace.get? place = some content := by
  rw [withStem, List.mem_filter, OrderedMap.mem_entries_iff,
    List.isPrefixOf_iff_prefix]
  exact and_comm

theorem withStem_ordered
    (keyspace : Keyspace)
    (stem : String) :
    (keyspace.withStem stem).Pairwise fun earlier later =>
      earlier.1 < later.1 :=
  keyspace.ordered.filter _

theorem nodup_withStem
    (keyspace : Keyspace)
    (stem : String) :
    (keyspace.withStem stem).Nodup := by
  refine (withStem_ordered keyspace stem).imp ?_
  rintro earlier later rises rfl
  exact List.lt_irrefl _ rises

/-- A scan of a stem knows no more than the values of the keys that have it. -/
theorem withStem_congr
    {first second : Keyspace}
    {stem : String}
    (same : ∀ place, Bytes.ofText stem <+: place →
      first.get? place = second.get? place) :
    first.withStem stem = second.withStem stem := by
  apply OrderedMap.eq_of_mem_iff (withStem_ordered first stem)
    (withStem_ordered second stem)
  rintro ⟨place, content⟩
  rw [mem_withStem_iff, mem_withStem_iff]
  constructor
  · rintro ⟨stemmed, found⟩
    exact ⟨stemmed, by rw [← same place stemmed, found]⟩
  · rintro ⟨stemmed, found⟩
    exact ⟨stemmed, by rw [same place stemmed, found]⟩

/-- A longer stem picks out a part of what a shorter one does. -/
theorem filter_withStem
    (keyspace : Keyspace)
    (stem more : String) :
    (keyspace.withStem stem).filter
        (fun entry => (Bytes.ofText (stem ++ more)).isPrefixOf entry.1) =
      keyspace.withStem (stem ++ more) := by
  rw [withStem, List.filter_filter, withStem]
  refine List.filter_congr fun entry _ => ?_
  rw [Bool.eq_iff_iff, Bool.and_eq_true, List.isPrefixOf_iff_prefix,
    List.isPrefixOf_iff_prefix]
  refine and_iff_left_of_imp fun longer => ?_
  rw [Bytes.ofText_append] at longer
  exact (List.prefix_append _ _).trans longer

/-- A scan does not see changes outside of its stem. -/
theorem withStem_insert_other
    {keyspace : Keyspace}
    {stem : String}
    {place : Bytes}
    (outside : ¬ Bytes.ofText stem <+: place)
    (content : Bytes) :
    withStem (keyspace.insert place content) stem = keyspace.withStem stem := by
  apply withStem_congr
  intro place' stemmed
  rw [OrderedMap.get?_insert, if_neg]
  rintro rfl
  exact outside stemmed

theorem withStem_erase_other
    {keyspace : Keyspace}
    {stem : String}
    {place : Bytes}
    (outside : ¬ Bytes.ofText stem <+: place) :
    withStem (keyspace.erase place) stem = keyspace.withStem stem := by
  apply withStem_congr
  intro place' stemmed
  rw [OrderedMap.get?_erase, if_neg]
  rintro rfl
  exact outside stemmed

/-- A key beyond all others with its stem is scanned last. -/
theorem withStem_insert_last
    {keyspace : Keyspace}
    {stem : String}
    {place : Bytes}
    (stemmed : Bytes.ofText stem <+: place)
    (last : ∀ entry ∈ keyspace.withStem stem, entry.1 < place)
    (content : Bytes) :
    withStem (keyspace.insert place content) stem =
      keyspace.withStem stem ++ [(place, content)] := by
  have ordered : (keyspace.withStem stem ++ [(place, content)]).Pairwise
      fun earlier later => earlier.1 < later.1 := by
    refine List.pairwise_append.2 ⟨withStem_ordered keyspace stem,
      List.pairwise_singleton _ _, ?_⟩
    intro entry inside added same
    rw [List.mem_singleton.1 same]
    exact last entry inside
  apply OrderedMap.eq_of_mem_iff (withStem_ordered _ stem) ordered
  rintro ⟨place', content'⟩
  rw [mem_withStem_iff, OrderedMap.get?_insert, List.mem_append,
    mem_withStem_iff, List.mem_singleton, Prod.mk.injEq]
  by_cases same : place' = place
  · subst same
    rw [if_pos rfl, Option.some.injEq]
    constructor
    · exact fun found => .inr ⟨rfl, found.2.symm⟩
    · rintro (⟨_, found⟩ | ⟨_, found⟩)
      · exact absurd (last _ (mem_withStem_iff.2 ⟨stemmed, found⟩))
          (List.lt_irrefl _)
      · exact ⟨stemmed, found.symm⟩
  · rw [if_neg same]
    constructor
    · exact .inl
    · rintro (found | ⟨again, _⟩)
      · exact found
      · exact absurd again same

/-- The first key of a scan is the least with its stem. -/
theorem not_lt_of_withStem
    {keyspace : Keyspace}
    {stem : String}
    {place content : Bytes}
    {rest : List (Bytes × Bytes)}
    (scan : keyspace.withStem stem = (place, content) :: rest)
    {other : Bytes}
    (stemmed : Bytes.ofText stem <+: other)
    (held : (keyspace.get? other).isSome) :
    ¬ other < place := by
  intro before
  have ordered := withStem_ordered keyspace stem
  rw [scan, List.pairwise_cons] at ordered
  rcases Option.isSome_iff_exists.1 held with ⟨value, found⟩
  have among := mem_withStem_iff.2 ⟨stemmed, found⟩
  rw [scan] at among
  rcases List.mem_cons.1 among with same | later
  · cases same
    exact List.lt_irrefl _ before
  · exact List.lt_asymm before (ordered.1 _ later)

/-- Without the first key of a scan, the rest is scanned. -/
theorem withStem_erase_head
    {keyspace : Keyspace}
    {stem : String}
    {place content : Bytes}
    {rest : List (Bytes × Bytes)}
    (scan : keyspace.withStem stem = (place, content) :: rest) :
    withStem (keyspace.erase place) stem = rest := by
  have ordered := withStem_ordered keyspace stem
  rw [scan, List.pairwise_cons] at ordered
  apply OrderedMap.eq_of_mem_iff (withStem_ordered _ stem) ordered.2
  rintro ⟨place', content'⟩
  have whole : (place', content') ∈ keyspace.withStem stem ↔
      (place', content') = (place, content) ∨ (place', content') ∈ rest := by
    rw [scan, List.mem_cons]
  rw [mem_withStem_iff] at whole
  rw [mem_withStem_iff, OrderedMap.get?_erase]
  by_cases same : place' = place
  · subst same
    rw [if_pos rfl]
    constructor
    · rintro ⟨_, ⟨⟩⟩
    · exact fun inside => absurd (ordered.1 _ inside) (List.lt_irrefl _)
  · rw [if_neg same, whole]
    constructor
    · rintro (head | inside)
      · exact absurd (congrArg Prod.fst head) same
      · exact inside
    · exact .inr

/-! ## How long scans are -/

/-- Without a key that it shows, a scan is shorter by one. -/
theorem length_withStem_erase
    (keyspace : Keyspace)
    (stem : String)
    (place : Bytes) :
    (withStem (keyspace.erase place) stem).length +
        (if Bytes.ofText stem <+: place ∧ (keyspace.get? place).isSome then 1
        else 0) =
      (keyspace.withStem stem).length := by
  split
  · rename_i shown
    obtain ⟨stemmed, present⟩ := shown
    obtain ⟨content, found⟩ := Option.isSome_iff_exists.1 present
    have gone : (place, content) ∉ withStem (keyspace.erase place) stem := by
      rw [mem_withStem_iff, OrderedMap.get?_erase, if_pos rfl]
      rintro ⟨_, ⟨⟩⟩
    have distinct :
        ((place, content) :: withStem (keyspace.erase place) stem).Nodup :=
      List.nodup_cons.2 ⟨gone, nodup_withStem _ stem⟩
    refine ((List.perm_ext_iff_of_nodup distinct (nodup_withStem _ stem)).2
      ?_).length_eq
    rintro ⟨place', content'⟩
    rw [List.mem_cons, mem_withStem_iff, mem_withStem_iff,
      OrderedMap.get?_erase, Prod.mk.injEq]
    by_cases same : place' = place
    · subst same
      simp [stemmed, found, eq_comm]
    · simp [same]
  · rename_i hidden
    rw [Nat.add_zero, withStem_congr]
    intro place' stemmed
    rw [OrderedMap.get?_erase]
    split
    · rename_i same
      subst same
      exact (Option.not_isSome_iff_eq_none.1 fun present =>
        hidden ⟨stemmed, present⟩).symm
    · rfl

/-- With a key that is new, a scan that shows it is longer by one. -/
theorem length_withStem_insert
    (keyspace : Keyspace)
    (stem : String)
    (place content : Bytes) :
    (withStem (keyspace.insert place content) stem).length =
      (keyspace.withStem stem).length +
        if Bytes.ofText stem <+: place ∧ keyspace.get? place = none then 1
        else 0 := by
  have without : OrderedMap.erase (keyspace.insert place content) place =
      keyspace.erase place := by
    apply OrderedMap.ext_get?
    intro sought
    rw [OrderedMap.get?_erase, OrderedMap.get?_erase, OrderedMap.get?_insert]
    split <;> rfl
  have after := length_withStem_erase (keyspace.insert place content) stem place
  have before := length_withStem_erase keyspace stem place
  rw [without, OrderedMap.get?_insert, if_pos rfl] at after
  by_cases stemmed : Bytes.ofText stem <+: place
  · cases found : keyspace.get? place <;> simp [stemmed, found]
      at after before ⊢ <;> omega
  · simp [stemmed] at after before ⊢
    omega

/-! ## Windows of keys -/

theorem mem_between_iff
    {keyspace : Keyspace}
    {start stop place content : Bytes} :
    (place, content) ∈ keyspace.between start stop ↔
      (¬ place < start ∧ place < stop) ∧
      keyspace.get? place = some content := by
  rw [between, List.mem_filter, OrderedMap.mem_entries_iff, Bool.and_eq_true,
    decide_eq_true_iff, decide_eq_true_iff]
  exact and_comm

theorem between_ordered
    (keyspace : Keyspace)
    (start stop : Bytes) :
    (keyspace.between start stop).Pairwise fun earlier later =>
      earlier.1 < later.1 :=
  keyspace.ordered.filter _

/-! ## Legible keyspaces -/

/-- Every key is that of a plain record. -/
def Legible (keyspace : Keyspace) : Prop :=
  ∀ place content, keyspace.get? place = some content →
    ∃ key : Key, key.IsPlain ∧ place = key.bytes

theorem Legible.empty : Legible OrderedMap.empty := by
  intro place content found
  cases found

theorem Legible.insert
    {keyspace : Keyspace}
    (legible : keyspace.Legible)
    {key : Key}
    (plain : key.IsPlain)
    (content : Bytes) :
    Legible (keyspace.insert key.bytes content) := by
  intro place content' found
  rw [OrderedMap.get?_insert] at found
  split at found
  · rename_i same
    exact ⟨key, plain, same⟩
  · exact legible place content' found

theorem Legible.erase
    {keyspace : Keyspace}
    (legible : keyspace.Legible)
    (gone : Bytes) :
    Legible (keyspace.erase gone) := by
  intro place content found
  rw [OrderedMap.get?_erase] at found
  split at found
  · cases found
  · exact legible place content found

/-- What a legible keyspace holds under a record's key, it holds under a plain
one. -/
theorem Legible.isPlain
    {keyspace : Keyspace}
    (legible : keyspace.Legible)
    {key : Key}
    {content : Bytes}
    (found : keyspace.get? key.bytes = some content) :
    key.IsPlain := by
  obtain ⟨key', plain, same⟩ := legible key.bytes content found
  exact Key.eq_of_bytes plain same ▸ plain

theorem get?_insert_key
    (keyspace : Keyspace)
    {key : Key}
    (plain : key.IsPlain)
    (content : Bytes)
    (sought : Key) :
    (keyspace.insert key.bytes content).get? sought.bytes =
      if sought = key then some content else keyspace.get? sought.bytes := by
  rw [OrderedMap.get?_insert]
  by_cases same : sought = key
  · rw [if_pos same, if_pos (by rw [same])]
  · rw [if_neg same, if_neg fun bytes => same (Key.eq_of_bytes plain bytes)]

theorem get?_erase_key
    (keyspace : Keyspace)
    {key : Key}
    (plain : key.IsPlain)
    (sought : Key) :
    (keyspace.erase key.bytes).get? sought.bytes =
      if sought = key then none else keyspace.get? sought.bytes := by
  rw [OrderedMap.get?_erase]
  by_cases same : sought = key
  · rw [if_pos same, if_pos (by rw [same])]
  · rw [if_neg same, if_neg fun bytes => same (Key.eq_of_bytes plain bytes)]

end Keyspace

end MessageBroker
