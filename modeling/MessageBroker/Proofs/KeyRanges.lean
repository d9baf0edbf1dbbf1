import MessageBroker.Keyspace
import MessageBroker.Log
import MessageBroker.Proofs.KeyLayout

/-!
# What a scan can meet

A scan looks at keys with a stem, or at keys between two others.  Among plain
keys, a stem of a partition or of a queue picks out that partition's or that
queue's records of one kind, and a window picks out the messages of one
partition whose offsets lie in it.  Nothing is asked of the names that the scan
itself is for: a stem with a colon to spare meets no plain key.
-/

namespace MessageBroker.Key

/-! ## Stems -/

/-- A plain key with a stem that leaves one part open is the parts of the stem
and that one. -/
theorem bytes_eq_stem_iff
    {key : Key}
    (plain : key.IsPlain)
    {initial : UInt8}
    {front : List Bytes}
    (some : front ≠ [])
    (count : key.letter = initial → key.parts.length = front.length + 1)
    {stem rest : Bytes}
    (layout : stem = Bytes.joined ([initial] :: front) ++ [Bytes.colon]) :
    key.bytes = stem ++ rest ↔
      key.letter = initial ∧ key.parts = front ++ [rest] := by
  have joined : stem ++ rest =
      Bytes.joined ([initial] :: (front ++ [rest])) := by
    rw [layout, List.append_assoc, List.singleton_append,
      ← Bytes.joined_concat (List.cons_ne_nil _ _), List.cons_append]
  constructor
  · intro same
    have letters : key.letter = initial := by
      rw [bytes_eq_cons, layout] at same
      cases front with
      | nil => exact absurd rfl some
      | cons => exact (List.cons.inj same).1
    rw [joined, bytes_eq_joined] at same
    have fields :=
      Bytes.joined_inj (apart_of_isPlain plain) (by simp [count letters])
        same.symm
    exact ⟨letters, (List.cons.inj fields).2.symm⟩
  · rintro ⟨letters, fields⟩
    rw [joined, bytes_eq_joined, letters, fields]

theorem ofText_messagesOf (home : PartitionKey) :
    Bytes.ofText (messagesOf home) =
      Bytes.joined
          [[0x6d], Bytes.ofText home.topic,
            Bytes.ofText (partitionDigits home.partition)] ++
        [Bytes.colon] := by
  have front : Bytes.ofText messages = [0x6d, Bytes.colon] := by decide
  have separator : Bytes.ofText ":" = [Bytes.colon] := by decide
  simp [messagesOf, front, separator, Bytes.joined]

theorem bytes_message
    (home : PartitionKey)
    (offset : Offset) :
    (message home offset).bytes =
      Bytes.ofText (messagesOf home) ++ Bytes.ofText (longDigits offset) := by
  simp [bytes, text]

/-- The plain keys with the stem of a partition are those of its messages. -/
theorem messagesOf_prefix_iff
    {key : Key}
    (plain : key.IsPlain)
    {home : PartitionKey}
    {rest : Bytes} :
    key.bytes = Bytes.ofText (messagesOf home) ++ rest ↔
      ∃ offset, key = message home offset ∧
        rest = Bytes.ofText (longDigits offset) := by
  have count : key.letter = 0x6d → key.parts.length = 2 + 1 := by
    cases key <;> simp [letter, parts]
  rw [bytes_eq_stem_iff plain (by simp) count (ofText_messagesOf home)]
  constructor
  · rintro ⟨letters, fields⟩
    cases key with
    | message home' offset =>
        obtain ⟨topics, partitions, numbers⟩ : _ ∧ _ ∧ _ := by
          simpa [parts] using fields
        have homes : (message home' offset) = message home offset :=
          eq_of_parts rfl (by simp [parts, topics, partitions])
        exact ⟨offset, homes, numbers.symm⟩
    | _ => simp [letter] at letters
  · rintro ⟨offset, rfl, digits⟩
    simp [letter, parts, digits]

theorem ofText_pendingOf (queue : String) :
    Bytes.ofText (pendingOf queue) =
      Bytes.joined [[0x71], Bytes.ofText queue] ++ [Bytes.colon] := by
  have front : Bytes.ofText "q:" = [0x71, Bytes.colon] := by decide
  have separator : Bytes.ofText ":" = [Bytes.colon] := by decide
  simp [pendingOf, front, separator, Bytes.joined]

/-- The plain keys with the stem of a queue's waiting messages are theirs. -/
theorem pendingOf_prefix_iff
    {key : Key}
    (plain : key.IsPlain)
    {queue : String}
    {rest : Bytes} :
    key.bytes = Bytes.ofText (pendingOf queue) ++ rest ↔
      ∃ generation, key = pending queue generation ∧
        rest = Bytes.ofText (longDigits generation) := by
  have count : key.letter = 0x71 → key.parts.length = 1 + 1 := by
    cases key <;> simp [letter, parts]
  rw [bytes_eq_stem_iff plain (by simp) count (ofText_pendingOf queue)]
  constructor
  · rintro ⟨letters, fields⟩
    cases key with
    | pending queue' generation =>
        obtain ⟨names, numbers⟩ : _ ∧ _ := by simpa [parts] using fields
        have queues : pending queue' generation = pending queue generation :=
          eq_of_parts rfl (by simp [parts, names])
        exact ⟨generation, queues, numbers.symm⟩
    | _ => simp [letter] at letters
  · rintro ⟨generation, rfl, digits⟩
    simp [letter, parts, digits]

theorem ofText_expiriesOf (queue : String) :
    Bytes.ofText (expiriesOf queue) =
      Bytes.joined [[0x66], Bytes.ofText queue] ++ [Bytes.colon] := by
  have front : Bytes.ofText expiries = [0x66, Bytes.colon] := by decide
  have separator : Bytes.ofText ":" = [Bytes.colon] := by decide
  simp [expiriesOf, front, separator, Bytes.joined]

/-- The plain keys with the stem of a queue's expiries are theirs. -/
theorem expiriesOf_prefix_iff
    {key : Key}
    (plain : key.IsPlain)
    {queue : String}
    {rest : Bytes} :
    key.bytes = Bytes.ofText (expiriesOf queue) ++ rest ↔
      ∃ id, key = expiry queue id ∧ rest = Bytes.ofText id.text := by
  have count : key.letter = 0x66 → key.parts.length = 1 + 1 := by
    cases key <;> simp [letter, parts]
  rw [bytes_eq_stem_iff plain (by simp) count (ofText_expiriesOf queue)]
  constructor
  · rintro ⟨letters, fields⟩
    cases key with
    | expiry queue' id =>
        obtain ⟨names, ids⟩ : _ ∧ _ := by simpa [parts] using fields
        have queues : expiry queue' id = expiry queue id :=
          eq_of_parts rfl (by simp [parts, names])
        exact ⟨id, queues, ids.symm⟩
    | _ => simp [letter] at letters
  · rintro ⟨id, rfl, text⟩
    simp [letter, parts, text]

/-- A stem that begins with a letter belongs to keys of that letter. -/
theorem letter_of_stem
    {key : Key}
    {initial : UInt8}
    {rest : Bytes}
    (stemmed : initial :: rest <+: key.bytes) :
    key.letter = initial := by
  rw [bytes_eq_cons, List.cons_prefix_cons] at stemmed
  exact stemmed.1.symm

/-- The keys of one kind are those that start with its letter and a colon. -/
theorem front_iff
    {key : Key}
    {initial : UInt8}
    {front : Bytes}
    (layout : front = [initial, Bytes.colon]) :
    front <+: key.bytes ↔ key.letter = initial := by
  rw [layout, bytes_eq_cons]
  constructor
  · rintro ⟨rest, same⟩
    exact (List.cons.inj same).1.symm
  · rintro rfl
    exact ⟨_, rfl⟩

/-- The keys whose first two bytes are those of message keys are the message
keys. -/
theorem messages_prefix_iff {key : Key} :
    Bytes.ofText messages <+: key.bytes ↔
      ∃ home offset, key = message home offset := by
  rw [front_iff (by decide : Bytes.ofText messages = [0x6d, Bytes.colon])]
  cases key <;> simp [letter]

/-- The keys whose first two bytes are those of expiry keys are the expiry
keys. -/
theorem expiries_prefix_iff {key : Key} :
    Bytes.ofText expiries <+: key.bytes ↔
      ∃ queue id, key = expiry queue id := by
  rw [front_iff (by decide : Bytes.ofText expiries = [0x66, Bytes.colon])]
  cases key <;> simp [letter]

/-- No other record has the key of an expiry. -/
theorem bytes_ne_of_stemmed
    {key : Key}
    {place : Bytes}
    (stemmed : Bytes.ofText expiries <+: place)
    (different : key.letter ≠ 0x66) :
    key.bytes ≠ place := by
  rintro rfl
  exact different
    ((front_iff (by decide : Bytes.ofText expiries = [0x66, Bytes.colon])).1
      stemmed)

/-! ## Windows -/

theorem rangeEnd_append_colon (front : String) :
    Fields.rangeEnd (front ++ ":") = front ++ ";" := by
  have raised : Fields.raised ':' = ';' := by decide
  apply String.toList_inj.1
  simp [Fields.rangeEnd, raised]

theorem ofText_rangeEnd_messagesOf (home : PartitionKey) :
    Bytes.ofText (Fields.rangeEnd (messagesOf home)) =
      Bytes.joined
          [[0x6d], Bytes.ofText home.topic,
            Bytes.ofText (partitionDigits home.partition)] ++ [0x3b] := by
  have front : Bytes.ofText messages = [0x6d, Bytes.colon] := by decide
  have separator : Bytes.ofText ":" = [Bytes.colon] := by decide
  have last : Bytes.ofText ";" = [0x3b] := by decide
  rw [messagesOf, rangeEnd_append_colon]
  simp [front, separator, last, Bytes.joined]

private theorem colon_of_between
    {rest low : Bytes}
    (above : ¬ rest < Bytes.colon :: low)
    (below : rest < [0x3b]) :
    ∃ tail, rest = Bytes.colon :: tail ∧ ¬ tail < low := by
  cases rest with
  | nil => simp at above
  | cons byte tail =>
      rw [List.cons_lt_cons_iff] at above below
      have same : byte = Bytes.colon := by
        have small : byte < 0x3b := by simpa using below
        have large : ¬ byte < Bytes.colon := fun less => above (.inl less)
        rw [UInt8.lt_iff_toNat_lt] at small large
        have low : Bytes.colon.toNat = 58 := rfl
        have high : (0x3b : UInt8).toNat = 59 := rfl
        exact UInt8.toNat_inj.1 (by omega)
      subst same
      exact ⟨tail, rfl, fun less => above (.inr ⟨rfl, less⟩)⟩

/-- The byte strings between two bounds of a window have the stem of the
partition, and what follows it lies between the digits of the bounds. -/
theorem between_window_iff
    {place : Bytes}
    {home : PartitionKey}
    {window : Log.Window} :
    ¬ place < (message home window.start).bytes ∧
        (place < match window.stop with
          | some stop => (message home stop).bytes
          | none => Bytes.ofText (Fields.rangeEnd (messagesOf home))) ↔
      ∃ rest, place = Bytes.ofText (messagesOf home) ++ rest ∧
        ¬ rest < Bytes.ofText (longDigits window.start) ∧
        ∀ stop, window.stop = some stop →
            rest < Bytes.ofText (longDigits stop) := by
  obtain ⟨start, stop⟩ := window
  cases stop with
  | some stop =>
      dsimp only
      rw [bytes_message, bytes_message, Bytes.between_append_iff]
      simp only [Option.some.injEq, forall_eq']
  | none =>
      dsimp only
      rw [bytes_message, ofText_messagesOf, ofText_rangeEnd_messagesOf,
        List.append_assoc, Bytes.between_append_iff]
      constructor
      · rintro ⟨rest, same, above, below⟩
        obtain ⟨tail, rfl, least⟩ := colon_of_between above below
        refine ⟨tail, ?_, least, by rintro _ ⟨⟩⟩
        rw [same, List.append_assoc]
        rfl
      · rintro ⟨rest, same, above, _⟩
        refine ⟨Bytes.colon :: rest, ?_, ?_, ?_⟩
        · rw [same, List.append_assoc]
          rfl
        · rw [List.singleton_append, List.cons_lt_cons_iff]
          rintro (less | ⟨_, less⟩)
          · exact UInt8.lt_irrefl _ less
          · exact above less
        · rw [List.cons_lt_cons_iff]
          exact .inl (by decide)

/-- The plain keys between two bounds of a window are those of the partition's
messages within it. -/
theorem window_iff
    {key : Key}
    (plain : key.IsPlain)
    {home : PartitionKey}
    {window : Log.Window} :
    ¬ key.bytes < (message home window.start).bytes ∧
        (key.bytes < match window.stop with
          | some stop => (message home stop).bytes
          | none => Bytes.ofText (Fields.rangeEnd (messagesOf home))) ↔
      ∃ offset, key = message home offset ∧ window.start ≤ offset ∧
        ∀ stop, window.stop = some stop → offset < stop := by
  have order : ∀ offset,
      ¬ Bytes.ofText (longDigits offset) <
          Bytes.ofText (longDigits window.start) ↔
        window.start ≤ offset := by
    intro offset
    rw [longDigits_lt_iff, UInt64.not_lt]
  rw [between_window_iff]
  constructor
  · rintro ⟨rest, same, above, below⟩
    obtain ⟨offset, rfl, digits⟩ := (messagesOf_prefix_iff plain).1 same
    rw [digits] at above below
    exact ⟨offset, rfl, (order offset).1 above,
      fun stop bounded => longDigits_lt_iff.1 (below stop bounded)⟩
  · rintro ⟨offset, rfl, above, below⟩
    exact ⟨Bytes.ofText (longDigits offset), bytes_message home offset,
      (order offset).2 above,
      fun stop bounded => longDigits_lt_iff.2 (below stop bounded)⟩

end MessageBroker.Key
