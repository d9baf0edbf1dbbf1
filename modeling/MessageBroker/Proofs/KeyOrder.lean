import MessageBroker.Proofs.KeyRanges

/-!
# The order of keys

Within one partition the keys of messages stand in the order of their offsets,
and within one queue the keys of waiting messages in the order of their
generations, up to the greatest number there is.

No other record stands among them.  A range of a partition's keys, or all keys
with the stem of a queue, are the keys of that partition or that queue alone,
whatever the names of the scan itself.  Records of a kind that no such scan
looks for cannot be met at all, so their names may hold colons; only the names
of messages, waiting messages and deliveries must not.
-/

namespace MessageBroker

/-- A byte string lies from one up to but not including another. -/
def Bytes.Within (start stop place : Bytes) : Prop :=
  ¬ place < start ∧ place < stop

instance (start stop place : Bytes) :
    Decidable (Bytes.Within start stop place) :=
  inferInstanceAs (Decidable (¬ place < start ∧ place < stop))

namespace Key

/-! ## Numbers -/

theorem message_bytes_lt_iff
    {home : PartitionKey}
    {first second : Offset} :
    (message home first).bytes < (message home second).bytes ↔
      first < second := by
  rw [bytes_message, bytes_message, Bytes.append_lt_append_left_iff,
    longDigits_lt_iff]

theorem pending_bytes
    (queue : String)
    (generation : UInt64) :
    (pending queue generation).bytes =
      Bytes.ofText (pendingOf queue) ++
        Bytes.ofText (longDigits generation) := by
  simp [bytes, text]

theorem pending_bytes_lt_iff
    {queue : String}
    {first second : UInt64} :
    (pending queue first).bytes < (pending queue second).bytes ↔
      first < second := by
  rw [pending_bytes, pending_bytes, Bytes.append_lt_append_left_iff,
    longDigits_lt_iff]

/-! ## Scanned records -/

/-- There are scans for the records of this kind that one partition or one queue
has. -/
def IsScanned : Key → Prop
  | .message .. | .pending .. | .expiry .. => True
  | _ => False

/-- Every scan of a partition or a queue looks for keys with one of three
letters. -/
theorem isScanned_iff {key : Key} :
    key.IsScanned ↔
      key.letter = 0x6d ∨ key.letter = 0x71 ∨ key.letter = 0x66 := by
  cases key <;> simp [IsScanned, letter]

variable {key : Key}

/-- What a scan meets by its stem is plain. -/
theorem isPlain_of_stemmed
    (plain : key.IsScanned → key.IsPlain)
    {initial : UInt8}
    (scanned : initial = 0x6d ∨ initial = 0x71 ∨ initial = 0x66)
    {rest : Bytes}
    (stemmed : initial :: rest <+: key.bytes) :
    key.IsPlain := by
  apply plain
  rw [isScanned_iff, letter_of_stem stemmed]
  exact scanned

/-- The keys within a window of a partition are those of its messages there. -/
theorem within_window_iff
    (plain : key.IsScanned → key.IsPlain)
    (home : PartitionKey)
    (window : Log.Window) :
    Bytes.Within (message home window.start).bytes
        (match window.stop with
          | some stop => (message home stop).bytes
          | none => Bytes.ofText (Fields.rangeEnd (messagesOf home)))
        key.bytes ↔
      ∃ offset, key = message home offset ∧ window.start ≤ offset ∧
        ∀ stop, window.stop = some stop → offset < stop := by
  constructor
  · intro within
    obtain ⟨rest, same, _⟩ := between_window_iff.1 within
    have stemmed : Bytes.ofText (messagesOf home) <+: key.bytes :=
      ⟨rest, same.symm⟩
    rw [ofText_messagesOf] at stemmed
    exact (window_iff (isPlain_of_stemmed plain (.inl rfl) stemmed)).1 within
  · intro selected
    obtain ⟨offset, rfl, _⟩ := id selected
    exact (window_iff (plain trivial)).2 selected

/-- The keys with the stem of a queue's waiting messages are theirs. -/
theorem pendingOf_front_iff
    (plain : key.IsScanned → key.IsPlain)
    {queue : String} :
    Bytes.ofText (pendingOf queue) <+: key.bytes ↔
      ∃ generation, key = pending queue generation := by
  constructor
  · intro stemmed
    obtain ⟨rest, same⟩ := id stemmed
    rw [ofText_pendingOf] at stemmed
    have own := isPlain_of_stemmed plain (.inr (.inl rfl)) stemmed
    obtain ⟨generation, equal, _⟩ := (pendingOf_prefix_iff own).1 same.symm
    exact ⟨generation, equal⟩
  · rintro ⟨generation, rfl⟩
    exact ⟨_, (pending_bytes queue generation).symm⟩

/-- The keys with the stem of a queue's deliveries are theirs. -/
theorem expiriesOf_front_iff
    (plain : key.IsScanned → key.IsPlain)
    {queue : String} :
    Bytes.ofText (expiriesOf queue) <+: key.bytes ↔
      ∃ id, key = expiry queue id := by
  constructor
  · intro stemmed
    obtain ⟨rest, same⟩ := id stemmed
    rw [ofText_expiriesOf] at stemmed
    have own := isPlain_of_stemmed plain (.inr (.inr rfl)) stemmed
    obtain ⟨id, equal, _⟩ := (expiriesOf_prefix_iff own).1 same.symm
    exact ⟨id, equal⟩
  · rintro ⟨id, rfl⟩
    exact ⟨Bytes.ofText id.text, by simp [bytes, text]⟩

/-! ## Ranges -/

/-- A range of a partition's keys selects that partition's messages with offsets
in the range, and a queue's stem selects that queue's waiting messages or
deliveries; both leave out every other record, of the same kind under another
name or number as of any other kind under whatever names.  Messages of a
partition are in the order of their offsets, waiting messages of a queue in that
of their generations. -/
theorem ranges_select_own :
    (∀ key : Key, (key.IsScanned → key.IsPlain) →
      (∀ home start,
        Bytes.Within (message home start).bytes
            (Bytes.ofText (Fields.rangeEnd (messagesOf home))) key.bytes ↔
          ∃ offset, key = message home offset ∧ start ≤ offset) ∧
      (∀ home start stop,
        Bytes.Within (message home start).bytes (message home stop).bytes
            key.bytes ↔
          ∃ offset, key = message home offset ∧ start ≤ offset ∧
            offset < stop) ∧
      (∀ queue, Bytes.ofText (pendingOf queue) <+: key.bytes ↔
        ∃ generation, key = pending queue generation) ∧
      ∀ queue, Bytes.ofText (expiriesOf queue) <+: key.bytes ↔
        ∃ id, key = expiry queue id) ∧
    (∀ home first second,
      (message home first).bytes < (message home second).bytes ↔
        first < second) ∧
    ∀ queue first second,
      (pending queue first).bytes < (pending queue second).bytes ↔
        first < second := by
  refine ⟨fun key plain => ⟨?upward, ?window, ?waiting, ?delivered⟩, ?offsets,
    ?generations⟩
  case upward =>
    intro home start
    have selects := within_window_iff plain home ⟨start, none⟩
    simpa using selects
  case window =>
    intro home start stop
    have selects := within_window_iff plain home ⟨start, some stop⟩
    simpa using selects
  case waiting => exact fun _ => pendingOf_front_iff plain
  case delivered => exact fun _ => expiriesOf_front_iff plain
  case offsets => exact fun _ _ _ => message_bytes_lt_iff
  case generations => exact fun _ _ _ => pending_bytes_lt_iff

/-- The partition of a topic, and that of a longer name with the same front. -/
theorem ranges_select_own_neighbours :
    let home : PartitionKey := ⟨"ab", 0⟩
    let last := message home (.ofNat (UInt64.size - 1))
    let stop := Bytes.ofText (Fields.rangeEnd (messagesOf home))
    let longer := message ⟨"abc", 0⟩ 9
    let position := cursor "g:q:ab" ⟨"m:ab", 0⟩
    (last.IsScanned → last.IsPlain) ∧
    (longer.IsScanned → longer.IsPlain) ∧
    (position.IsScanned → position.IsPlain) ∧
    Bytes.Within (message home 9).bytes stop last.bytes ∧
    ¬ Bytes.Within (message home 9).bytes stop longer.bytes ∧
    ¬ Bytes.Within (message home 9).bytes stop position.bytes ∧
    (message home 9).bytes < (message home 10).bytes := by
  intro home last stop longer position
  obtain ⟨selects, offsets, _⟩ := ranges_select_own
  have lastPlain : last.IsScanned → last.IsPlain :=
    fun _ => last.isPlain_of_name rfl (by decide)
  have longerPlain : longer.IsScanned → longer.IsPlain :=
    fun _ => longer.isPlain_of_name rfl (by decide)
  have unscanned : position.IsScanned → position.IsPlain := False.elim
  refine ⟨lastPlain, longerPlain, unscanned, ?_, ?_, ?_,
    (offsets home 9 10).2 (by decide)⟩
  · exact ((selects last lastPlain).1 home 9).2 ⟨_, rfl, by decide⟩
  · intro within
    obtain ⟨offset, same, _⟩ := ((selects longer longerPlain).1 home 9).1 within
    exact absurd (Key.message.inj same).1 (by decide)
  · intro within
    obtain ⟨offset, same, _⟩ := ((selects position unscanned).1 home 9).1 within
    exact Key.noConfusion same

end Key

end MessageBroker
