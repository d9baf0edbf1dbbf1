import MessageBroker.Proofs.MessageForm
import MessageBroker.Proofs.Scans
import MessageBroker.Store

/-!
# What a store's logs hold

The log of a partition is kept three times: as the keys of its messages, as one
counter, and as one remembered end.  A store is sound when the three agree: a
partition with messages has a counter that is one more than the greatest of
their offsets, a partition without any has none, and the remembered ends are the
counters.

Placing a message keeps a store sound, writes only where nothing was, and
changes no other partition.  Appending is placing at the next offset, so it
needs no argument of its own.
-/

namespace MessageBroker

/-- The greater of an end, where there is one, and a candidate. -/
def Ends.raised (current? : Option Offset) (candidate : Offset) : Offset :=
  match current? with
  | some current => if current < candidate then candidate else current
  | none => candidate

namespace Log

/-- Whether a partition holds a message at an offset. -/
def Holds
    (keyspace : Keyspace)
    (home : PartitionKey)
    (offset : Offset) :
    Prop :=
  (keyspace.get? (Key.message home offset).bytes).isSome

instance
    (keyspace : Keyspace)
    (home : PartitionKey)
    (offset : Offset) :
    Decidable (Holds keyspace home offset) :=
  inferInstanceAs (Decidable (_ = true))

/-- The message of a partition at an offset. -/
def record?
    (keyspace : Keyspace)
    (home : PartitionKey)
    (offset : Offset) :
    Option Message :=
  (keyspace.get? (Key.message home offset).bytes).bind fun value =>
    (Record.toMessage "read" value).toOption

/-- A message is stored at its own place. -/
def Contains (keyspace : Keyspace) (message : Message) : Prop :=
  record? keyspace message.home message.offset = some message

/-- The end of a partition is one more than the greatest offset that it holds,
and there is none where it holds no message. -/
def EndsAt (keyspace : Keyspace) (home : PartitionKey) : Option Offset → Prop
  | none => ∀ offset, ¬ Holds keyspace home offset
  | some next =>
      (∃ last, Holds keyspace home last ∧ next.toNat = last.toNat + 1) ∧
        ∀ offset, Holds keyspace home offset → offset < next

/-- The messages, the counters and the remembered ends of all partitions
agree. -/
structure Sound (keyspace : Keyspace) (ends : Ends) : Prop where
  legible : keyspace.Legible
  stored : ∀ home offset value,
    keyspace.get? (Key.message home offset).bytes = some value →
    ∃ message, Record.ofMessage message = .ok value ∧
      message.home = home ∧
      message.offset = offset ∧
      message.id ≠ .nil
  counter : ∀ home, keyspace.get? (Key.nextOffset home).bytes =
    (ends.get? home).map Record.ofCounter
  ended : ∀ home, EndsAt keyspace home (ends.get? home)

theorem Sound.empty : Sound .empty .empty where
  legible := .empty
  stored := by
    intro home offset value found
    cases found
  counter _ := rfl
  ended := by
    intro home offset held
    cases held

variable {keyspace : Keyspace} {ends : Ends}

/-! ## Records -/

theorem Sound.record_iff
    (sound : Sound keyspace ends)
    {home : PartitionKey}
    {offset : Offset}
    {message : Message} :
    record? keyspace home offset = some message ↔
      ∃ value, keyspace.get? (Key.message home offset).bytes = some value ∧
        Record.ofMessage message = .ok value ∧
        message.home = home ∧
        message.offset = offset ∧
        message.id ≠ .nil := by
  rw [record?, Option.bind_eq_some_iff]
  constructor
  · rintro ⟨value, found, read⟩
    obtain ⟨message', stored, homes, offsets, named⟩ := sound.stored _ _ _ found
    rw [Record.toMessage_ofMessage stored] at read
    cases read
    exact ⟨value, found, stored, homes, offsets, named⟩
  · rintro ⟨value, found, stored, _⟩
    refine ⟨value, found, ?_⟩
    rw [Record.toMessage_ofMessage stored]
    rfl

theorem Sound.holds_iff
    (sound : Sound keyspace ends)
    {home : PartitionKey}
    {offset : Offset} :
    Holds keyspace home offset ↔
      ∃ message, record? keyspace home offset = some message := by
  constructor
  · intro held
    obtain ⟨value, found⟩ := Option.isSome_iff_exists.1 held
    obtain ⟨message, stored, facts⟩ := sound.stored _ _ _ found
    exact ⟨message, sound.record_iff.2 ⟨value, found, stored, facts⟩⟩
  · rintro ⟨message, found⟩
    obtain ⟨value, held, _⟩ := sound.record_iff.1 found
    exact Option.isSome_iff_exists.2 ⟨value, held⟩

/-- Whatever is found at a place belongs there. -/
theorem Sound.contains_of_record
    (sound : Sound keyspace ends)
    {home : PartitionKey}
    {offset : Offset}
    {message : Message}
    (found : record? keyspace home offset = some message) :
    Contains keyspace message ∧ message.home = home ∧
    message.offset = offset := by
  obtain ⟨_, _, _, rfl, rfl, _⟩ := sound.record_iff.1 found
  exact ⟨found, rfl, rfl⟩

theorem Sound.id_ne_nil
    (sound : Sound keyspace ends)
    {message : Message}
    (held : Contains keyspace message) :
    message.id ≠ .nil := by
  obtain ⟨_, _, _, _, _, named⟩ := sound.record_iff.1 held
  exact named

/-- Stored messages are of topics without colons. -/
theorem Sound.free_of_record
    (sound : Sound keyspace ends)
    {home : PartitionKey}
    {offset : Offset}
    {message : Message}
    (found : record? keyspace home offset = some message) :
    ':' ∉ home.topic.toList := by
  obtain ⟨value, held, _⟩ := sound.record_iff.1 found
  exact sound.legible.isPlain held home.topic (by simp [Key.names])

theorem message_isPlain
    {home : PartitionKey}
    (free : ':' ∉ home.topic.toList)
    (offset : Offset) :
    (Key.message home offset).IsPlain :=
  (Key.message home offset).isPlain_of_name rfl free

theorem nextOffset_isPlain
    {home : PartitionKey}
    (free : ':' ∉ home.topic.toList) :
    (Key.nextOffset home).IsPlain :=
  (Key.nextOffset home).isPlain_of_name rfl free

/-! ## Ends -/

theorem successor_eq_ok_iff
    {home : PartitionKey}
    {offset next : Offset} :
    successor home offset = .ok next ↔ next.toNat = offset.toNat + 1 := by
  rw [← Offset.next?_eq_some_iff, successor]
  cases offset.next? <;> simp

theorem get?_raise
    (ends : Ends)
    (home : PartitionKey)
    (candidate : Offset)
    (sought : PartitionKey) :
    (ends.raise home candidate).get? sought =
      if sought = home then some (Ends.raised (ends.get? home) candidate)
      else ends.get? sought := by
  unfold Ends.raise Ends.raised
  cases known : ends.get? home with
  | none => rw [OrderedMap.get?_insert]
  | some current =>
      dsimp only
      split
      · rw [OrderedMap.get?_insert]
      · by_cases same : sought = home
        · rw [if_pos same, same, known]
        · rw [if_neg same]

theorem EndsAt.lt_of_holds
    {home : PartitionKey}
    {end? : Option Offset}
    {offset : Offset}
    (ended : EndsAt keyspace home end?)
    (held : Holds keyspace home offset) :
    offset < end?.getD 0 := by
  cases end? with
  | none => exact absurd held (ended offset)
  | some next => exact ended.2 offset held

/-- The offset before an end is the greatest one in use. -/
theorem EndsAt.exists_greatest
    {home : PartitionKey}
    {next : Offset}
    (ended : EndsAt keyspace home (some next)) :
    ∃ last, Holds keyspace home last ∧
      (∀ offset, Holds keyspace home offset → offset ≤ last) ∧
      next.toNat = last.toNat + 1 := by
  obtain ⟨⟨last, held, follows⟩, above⟩ := ended
  refine ⟨last, held, fun offset other => ?_, follows⟩
  have below := UInt64.lt_iff_toNat_lt.1 (above offset other)
  rw [follows] at below
  exact UInt64.le_iff_toNat_le.2 (Nat.le_of_lt_succ below)

/-- The partitions that have a counter are those that hold messages. -/
theorem Sound.isSome_counter_iff
    (sound : Sound keyspace ends)
    (home : PartitionKey) :
    (keyspace.get? (Key.nextOffset home).bytes).isSome ↔
      ∃ offset, Holds keyspace home offset := by
  have ended := sound.ended home
  rw [sound.counter home, Option.isSome_map]
  cases known : ends.get? home with
  | none =>
      rw [known] at ended
      constructor
      · intro present
        exact absurd present Bool.false_ne_true
      · rintro ⟨offset, held⟩
        exact absurd held (ended offset)
  | some next =>
      rw [known] at ended
      obtain ⟨last, held, _⟩ := ended.exists_greatest
      exact ⟨fun _ => ⟨last, held⟩, fun _ => rfl⟩

theorem EndsAt.congr
    {after : Keyspace}
    {home : PartitionKey}
    {end? : Option Offset}
    (ended : EndsAt keyspace home end?)
    (same : ∀ offset, Holds after home offset ↔ Holds keyspace home offset) :
    EndsAt after home end? := by
  cases end? with
  | none => exact fun offset held => ended offset ((same offset).1 held)
  | some next =>
      obtain ⟨⟨last, held, follows⟩, above⟩ := ended
      exact ⟨⟨last, (same last).2 held, follows⟩,
        fun offset held => above offset ((same offset).1 held)⟩

/-- With one more offset in use, the end is the greater of the old one and the
one after it. -/
theorem EndsAt.raise
    {after : Keyspace}
    {home : PartitionKey}
    {offset next : Offset}
    (ended : EndsAt keyspace home (ends.get? home))
    (follows : next.toNat = offset.toNat + 1)
    (holds : ∀ other, Holds after home other ↔
      Holds keyspace home other ∨ other = offset) :
    EndsAt after home ((ends.raise home next).get? home) := by
  have below : offset < next := by
    rw [UInt64.lt_iff_toNat_lt]
    omega
  rw [get?_raise, if_pos rfl]
  cases known : ends.get? home with
  | none =>
      rw [known] at ended
      refine ⟨⟨offset, (holds offset).2 (.inr rfl), follows⟩,
        fun other held => ?_⟩
      rcases (holds other).1 held with held | rfl
      · exact absurd held (ended other)
      · exact below
  | some current =>
      rw [known] at ended
      obtain ⟨⟨last, held, succeeds⟩, above⟩ := ended
      unfold Ends.raised
      dsimp only
      split
      · rename_i less
        refine ⟨⟨offset, (holds offset).2 (.inr rfl), follows⟩,
          fun other held => ?_⟩
        rcases (holds other).1 held with held | rfl
        · have under := above other held
          rw [UInt64.lt_iff_toNat_lt] at less under ⊢
          omega
        · exact below
      · rename_i notLess
        refine ⟨⟨last, (holds last).2 (.inl held), succeeds⟩,
          fun other held => ?_⟩
        rcases (holds other).1 held with held | rfl
        · exact above other held
        · rw [UInt64.lt_iff_toNat_lt] at below notLess ⊢
          omega

/-- The next offset is what the counter of the partition says. -/
theorem nextOffset_of_counter
    {home : PartitionKey}
    {end? : Option Offset}
    (counter : keyspace.get?
      (Key.nextOffset home).bytes = end?.map Record.ofCounter)
    (operation : String) :
    nextOffset keyspace operation home = .ok (end?.getD 0) := by
  rw [nextOffset, Keyspace.counter, Keyspace.counter?, counter]
  cases end? with
  | none => rfl
  | some next =>
      simp only [Option.map_some, Record.toCounter_ofCounter]
      rfl

theorem Sound.nextOffset_eq
    (sound : Sound keyspace ends)
    (operation : String)
    (home : PartitionKey) :
    nextOffset keyspace operation home = .ok ((ends.get? home).getD 0) :=
  nextOffset_of_counter (sound.counter home) operation

end Log

end MessageBroker
