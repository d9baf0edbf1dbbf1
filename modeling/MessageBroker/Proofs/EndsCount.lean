import MessageBroker.Proofs.LogState

/-!
# Counting the ends anew

The ends of all partitions can be counted from the keys of the stored messages
alone.  In a sound store the count never fails and gives the ends that the node
remembers: the greatest offset of each partition is found by one pass over the
keys, and it has a successor because an end lies above it.
-/

namespace MessageBroker

namespace Ends

/-! ## The greatest of some offsets -/

/-- The greatest offset of a kind, or that there is none of it. -/
def Greatest (kind : Offset → Prop) : Option Offset → Prop
  | none => ∀ offset, ¬ kind offset
  | some greatest => kind greatest ∧ ∀ offset, kind offset → offset ≤ greatest

theorem Greatest.unique
    {kind : Offset → Prop}
    {first second : Option Offset}
    (isFirst : Greatest kind first)
    (isSecond : Greatest kind second) :
    first = second := by
  cases first with
  | none =>
      cases second with
      | none => rfl
      | some other => exact absurd isSecond.1 (isFirst other)
  | some one =>
      cases second with
      | none => exact absurd isFirst.1 (isSecond one)
      | some other =>
          rw [UInt64.le_antisymm (isSecond.2 one isFirst.1)
            (isFirst.2 other isSecond.1)]

theorem Greatest.congr
    {kind other : Offset → Prop}
    {found : Option Offset}
    (greatest : Greatest kind found)
    (same : ∀ offset, other offset ↔ kind offset) :
    Greatest other found := by
  rwa [show other = kind from funext fun offset => propext (same offset)]

/-- Among at most one offset, that one is the greatest. -/
theorem greatest_only (end? : Option Offset) :
    Greatest (fun next => end? = some next) end? := by
  cases end? with
  | none =>
      intro next found
      cases found
  | some last =>
      refine ⟨rfl, ?_⟩
      rintro next ⟨⟩
      exact UInt64.le_refl _

/-- With one more offset, the greatest is the old one or that one. -/
theorem Greatest.raise
    {kind : Offset → Prop}
    {found : Option Offset}
    (greatest : Greatest kind found)
    (added : Offset) :
    Greatest (fun offset => kind offset ∨ offset = added)
      (some (raised found added)) := by
  cases found with
  | none =>
      refine ⟨.inr rfl, ?_⟩
      rintro offset (held | rfl)
      · exact absurd held (greatest offset)
      · exact UInt64.le_refl _
  | some current =>
      obtain ⟨held, above⟩ := greatest
      unfold raised
      dsimp only
      split
      · rename_i less
        refine ⟨.inr rfl, ?_⟩
        rintro offset (inside | rfl)
        · exact UInt64.le_trans (above offset inside) (UInt64.le_of_lt less)
        · exact UInt64.le_refl _
      · rename_i notLess
        refine ⟨.inl held, ?_⟩
        rintro offset (inside | rfl)
        · exact above offset inside
        · exact UInt64.not_lt.1 notLess

/-! ## One pass over the places -/

/-- The greatest offset of a partition in a list of places, or that there is
none. -/
def GreatestIn
    (places : List (PartitionKey × Offset))
    (home : PartitionKey) :
    Option Offset → Prop
  | none => ∀ offset, (home, offset) ∉ places
  | some greatest =>
      (home, greatest) ∈ places ∧ ∀ offset, (home, offset) ∈ places →
        offset ≤ greatest

theorem greatestIn_iff
    {places : List (PartitionKey × Offset)}
    {home : PartitionKey}
    {found : Option Offset} :
    GreatestIn places home found ↔
      Greatest (fun offset => (home, offset) ∈ places) found := by
  cases found <;> rfl

/-- Raising an end to one more place keeps it the greatest. -/
theorem GreatestIn.raise
    {places : List (PartitionKey × Offset)}
    {ends : Ends}
    (greatest : ∀ home, GreatestIn places home (ends.get? home))
    (home : PartitionKey)
    (offset : Offset)
    (sought : PartitionKey) :
    GreatestIn (places ++ [(home, offset)]) sought
      ((ends.raise home offset).get? sought) := by
  have known := greatestIn_iff.1 (greatest sought)
  rw [Log.get?_raise, greatestIn_iff]
  by_cases same : sought = home
  · rw [if_pos same, ← same]
    exact (known.raise offset).congr fun other => by simp
  · rw [if_neg same]
    exact known.congr fun other => by simp [same]

/-- One pass over a list of places finds the greatest offset of every
partition. -/
theorem greatestIn_foldl
    (later : List (PartitionKey × Offset))
    {places : List (PartitionKey × Offset)}
    {ends : Ends}
    (greatest : ∀ home, GreatestIn places home (ends.get? home))
    (home : PartitionKey) :
    GreatestIn (places ++ later) home
      ((later.foldl (fun found place => found.raise place.1 place.2) ends).get?
        home) := by
  induction later generalizing places ends with
  | nil =>
      rw [List.append_nil]
      exact greatest home
  | cons place rest step =>
      rw [List.foldl_cons, List.append_cons]
      exact step (GreatestIn.raise greatest place.1 place.2)

/-- Successors are found for a whole list of ends when each has one. -/
theorem foldlM_addSuccessor
    {entries : List (PartitionKey × Offset)}
    (start : Ends)
    (ordered : entries.Pairwise fun earlier later => earlier.1 < later.1)
    (room : ∀ entry ∈ entries, ∃ next,
      Log.successor entry.1 entry.2 = .ok next) :
    ∃ finish : Ends, entries.foldlM addSuccessor start = .ok finish ∧
      ∀ home, finish.get? home =
        match OrderedMap.find? home entries with
        | some offset => (Log.successor home offset).toOption
        | none => start.get? home := by
  induction entries generalizing start with
  | nil => exact ⟨start, rfl, fun home => rfl⟩
  | cons entry rest step =>
      obtain ⟨place, offset⟩ := entry
      obtain ⟨below, tail⟩ := List.pairwise_cons.1 ordered
      obtain ⟨next, succeeds⟩ := room _ List.mem_cons_self
      obtain ⟨finish, done, found⟩ := step (start.insert place next) tail
        fun entry inside => room entry (List.mem_cons_of_mem _ inside)
      refine ⟨finish, ?_, fun home => ?_⟩
      · rw [List.foldlM_cons, addSuccessor, succeeds]
        exact done
      · rw [found, OrderedMap.get?_insert]
        by_cases same : home = place
        · subst same
          have absent : OrderedMap.find? home rest = none := by
            cases inside : OrderedMap.find? home rest with
            | none => rfl
            | some offset' =>
                have later := (OrderedMap.find?_eq_some_iff tail).1 inside
                exact absurd (below _ later) (StrictOrder.irrefl _)
          simp only [absent, OrderedMap.find?, if_pos, succeeds]
          rfl
        · simp only [OrderedMap.find?, if_neg same]

end Ends

namespace Log

variable {keyspace : Keyspace} {ends : Ends}

theorem Sound.mem_places_iff
    (sound : Sound keyspace ends)
    {home : PartitionKey}
    {offset : Offset} :
    (home, offset) ∈
        (keyspace.withStem Key.messages).filterMap
          (fun entry => Key.readMessage? entry.1) ↔
      Holds keyspace home offset := by
  rw [List.mem_filterMap]
  constructor
  · rintro ⟨⟨place, content⟩, inside, read⟩
    obtain ⟨stemmed, found⟩ := Keyspace.mem_withStem_iff.1 inside
    obtain ⟨key, plain, rfl⟩ := sound.legible place content found
    obtain ⟨home', offset', rfl⟩ := Key.messages_prefix_iff.1 stemmed
    have free : ':' ∉ home'.topic.toList :=
      plain home'.topic (by simp [Key.names])
    rw [Key.readMessage?_message free] at read
    cases read
    exact Option.isSome_iff_exists.2 ⟨content, found⟩
  · intro held
    obtain ⟨content, found⟩ := Option.isSome_iff_exists.1 held
    have free : ':' ∉ home.topic.toList :=
      sound.legible.isPlain found home.topic (by simp [Key.names])
    exact ⟨((Key.message home offset).bytes, content),
      Keyspace.mem_withStem_iff.2
        ⟨Key.messages_prefix_iff.2 ⟨home, offset, rfl⟩, found⟩,
      Key.readMessage?_message free offset⟩

/-- What a count finds for a partition is the greatest offset that it holds. -/
theorem Sound.stored_get?
    (sound : Sound keyspace ends)
    (home : PartitionKey) :
    match (Ends.stored keyspace).get? home with
    | none => ∀ offset, ¬ Holds keyspace home offset
    | some last =>
        Holds keyspace home last ∧ ∀ offset, Holds keyspace home offset →
            offset ≤ last := by
  have start : ∀ home,
      Ends.GreatestIn [] home ((OrderedMap.empty : Ends).get? home) := by
    intro home offset inside
    cases inside
  have pass := Ends.greatestIn_foldl ((keyspace.withStem Key.messages).filterMap
    (fun entry => Key.readMessage? entry.1)) start home
  rw [List.nil_append] at pass
  change Ends.GreatestIn _ home ((Ends.stored keyspace).get? home) at pass
  cases found : (Ends.stored keyspace).get? home with
  | none =>
      rw [found] at pass
      exact fun offset held => pass offset (sound.mem_places_iff.2 held)
  | some last =>
      rw [found] at pass
      obtain ⟨inside, above⟩ := pass
      exact ⟨sound.mem_places_iff.1 inside,
        fun offset held => above offset (sound.mem_places_iff.2 held)⟩

/-- The end of a partition is the successor of its greatest offset. -/
theorem Sound.successor_stored
    (sound : Sound keyspace ends)
    {home : PartitionKey}
    {last : Offset}
    (found : (Ends.stored keyspace).get? home = some last) :
    ∃ next, ends.get? home = some next ∧ successor home last = .ok next := by
  have highest := sound.stored_get? home
  rw [found] at highest
  obtain ⟨held, above⟩ := highest
  have ended := sound.ended home
  cases remembered : ends.get? home with
  | none =>
      rw [remembered] at ended
      exact absurd held (ended last)
  | some next =>
      rw [remembered] at ended
      obtain ⟨greatest, heldGreatest, most, follows⟩ := ended.exists_greatest
      have same : greatest = last :=
        UInt64.le_antisymm (above greatest heldGreatest) (most last held)
      subst same
      exact ⟨next, rfl, successor_eq_ok_iff.2 follows⟩

/-- A partition without a greatest offset has no end. -/
theorem Sound.get?_eq_none_of_stored
    (sound : Sound keyspace ends)
    {home : PartitionKey}
    (found : (Ends.stored keyspace).get? home = none) :
    ends.get? home = none := by
  have nothing := sound.stored_get? home
  rw [found] at nothing
  have ended := sound.ended home
  cases remembered : ends.get? home with
  | none => rfl
  | some next =>
      rw [remembered] at ended
      obtain ⟨last, held, _⟩ := ended.exists_greatest
      exact absurd held (nothing last)

/-- In a sound store the ends can be counted anew, and the count changes
nothing. -/
theorem Sound.rebuild (sound : Sound keyspace ends) :
    Ends.rebuild keyspace = .ok ends := by
  have room : ∀ entry ∈ (Ends.stored keyspace).entries,
      ∃ next, successor entry.1 entry.2 = .ok next := by
    intro entry inside
    obtain ⟨next, _, succeeds⟩ :=
      sound.successor_stored (OrderedMap.mem_entries_iff.1 inside)
    exact ⟨next, succeeds⟩
  obtain ⟨finish, done, found⟩ :=
    Ends.foldlM_addSuccessor .empty (Ends.stored keyspace).ordered room
  rw [Ends.rebuild, done]
  congr 1
  apply OrderedMap.ext_get?
  intro home
  rw [found]
  cases known : OrderedMap.find? home (Ends.stored keyspace).entries with
  | some last =>
      obtain ⟨next, remembered, succeeds⟩ := sound.successor_stored known
      rw [remembered]
      simp only [succeeds]
      rfl
  | none =>
      rw [sound.get?_eq_none_of_stored known]
      rfl

end Log

end MessageBroker
