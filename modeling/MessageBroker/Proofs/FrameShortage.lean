import MessageBroker.Proofs.FrameForm

/-!
# When a reader asks for more bytes

A reader says that bytes are missing when what it was given is no whole frame
yet.  It says the same of a whole frame whose fields want more bytes than the
body has.  The frame ends where its length says, so no byte that follows it
makes up for them.

Everything else that is wrong with a frame is said to be wrong.  Messages that
end too early are among it, because they have an error of their own.
-/

namespace MessageBroker

namespace Frame

/-- An attempt that stops because bytes are missing. -/
def RunsShort {Value : Type} (attempt : Except FrameError Value) : Prop :=
  ∃ needed found, attempt = .error (.incomplete needed found)

/-- There is no length of so many bytes at the front, or one of at most `most`
with fewer bytes after it than it says. -/
def CutOff (width most : Nat) (bytes : Bytes) : Prop :=
  bytes.length < width ∨
  ∃ size rest, size ≤ most ∧
    bytes = Bytes.littleEndian width size ++ rest ∧
    rest.length < size

/-- The bytes are no whole frame yet. -/
def Partial (bytes : Bytes) : Prop :=
  CutOff headerSize maxBody bytes

/-- At the front of the bytes stands a whole frame with a body of some kind. -/
def Leads (Kind : Bytes → Prop) (bytes : Bytes) : Prop :=
  ∃ body rest, Kind body ∧ body.length ≤ maxBody ∧
    bytes = Bytes.littleEndian headerSize body.length ++ body ++ rest

variable {Value Result : Type} {Kind : Bytes → Prop} {bytes : Bytes}
  {width : Nat}

theorem not_partial_of_leads (leads : Leads Kind bytes) : ¬ Partial bytes := by
  have bodies : maxBody < Bytes.capacity headerSize := by decide
  obtain ⟨body, rest, _, small, rfl⟩ := leads
  rintro (short | ⟨size, following, few, same, missing⟩)
  · simp only [List.length_append, Bytes.length_littleEndian] at short
    omega
  · rw [List.append_assoc] at same
    obtain ⟨headers, rfl⟩ := List.append_inj same (by simp)
    have lengths := congrArg Bytes.value headers
    rw [Bytes.value_littleEndian, Bytes.value_littleEndian,
      Nat.mod_eq_of_lt (by omega), Nat.mod_eq_of_lt (by omega)] at lengths
    rw [List.length_append] at missing
    omega

/-- What holds of parts of frames and of bytes that a frame of some kind leads
holds of parts of frames alone where no such frame leads. -/
theorem partial_only_iff
    {Short : Prop}
    (short : Short ↔ Partial bytes ∨ Leads Kind bytes) :
    (Short ↔ Partial bytes) ↔ ¬ Leads Kind bytes := by
  constructor
  · intro same leads
    exact not_partial_of_leads leads (same.1 (short.2 (.inr leads)))
  · intro others
    rw [short]
    exact or_iff_left others

theorem Leads.append
    (leads : Leads Kind bytes)
    (more : Bytes) :
    Leads Kind (bytes ++ more) := by
  obtain ⟨body, rest, holds, small, rfl⟩ := leads
  exact ⟨body, rest ++ more, holds, small, by simp only [List.append_assoc]⟩

theorem Leads.ne_nil (leads : Leads Kind bytes) : bytes ≠ [] := by
  obtain ⟨body, rest, _, _, rfl⟩ := leads
  apply List.ne_nil_of_length_pos
  simp only [List.length_append, Bytes.length_littleEndian, headerSize]
  omega

/-! ## Steps of readers -/

theorem not_runsShort_ok (value : Value) : ¬ RunsShort (.ok value) := by
  rintro ⟨_, _, ⟨⟩⟩

theorem runsShort_bind_iff
    {attempt : Except FrameError Value}
    {next : Value → Except FrameError Result} :
    RunsShort (attempt >>= next) ↔
      RunsShort attempt ∨
      ∃ found, attempt = .ok found ∧ RunsShort (next found) := by
  cases attempt with
  | error fault =>
      constructor
      · rintro ⟨needed, found, ⟨⟩⟩
        exact .inl ⟨needed, found, rfl⟩
      · rintro (⟨needed, found, ⟨⟩⟩ | ⟨_, ⟨⟩, _⟩)
        exact ⟨needed, found, rfl⟩
  | ok found =>
      constructor
      · exact fun short => .inr ⟨found, rfl, short⟩
      · rintro (short | ⟨_, ⟨⟩, short⟩)
        · exact absurd short (not_runsShort_ok found)
        · exact short

theorem runsShort_map_iff
    {attempt : Except FrameError Value}
    {change : Value → Result} :
    RunsShort (attempt.map change) ↔ RunsShort attempt := by
  cases attempt with
  | error fault => simp [RunsShort, Except.map]
  | ok found => simp [RunsShort, Except.map]

theorem runsShort_ensure_iff {needed : Nat} :
    RunsShort (ensure needed bytes) ↔ bytes.length < needed := by
  unfold ensure
  split
  · rename_i missing
    exact iff_of_true ⟨_, _, rfl⟩ missing
  · rename_i enough
    exact iff_of_false (not_runsShort_ok ()) enough

theorem runsShort_take_iff {needed : Nat} :
    RunsShort (take needed bytes) ↔ bytes.length < needed := by
  rw [← Bytes.split?_eq_none_iff, take]
  cases Bytes.split? needed bytes with
  | none => exact iff_of_true ⟨_, _, rfl⟩ rfl
  | some parts =>
      exact iff_of_false (not_runsShort_ok parts) (Option.some_ne_none parts)

theorem word?_eq_none_iff :
    bytes.word? width = none ↔ bytes.length < width := by
  rw [← Bytes.split?_eq_none_iff, Bytes.word?, Option.map_eq_none_iff]

theorem runsShort_word_iff :
    RunsShort (word width bytes) ↔ bytes.length < width := by
  rw [← word?_eq_none_iff, word]
  cases bytes.word? width with
  | none => exact iff_of_true ⟨_, _, rfl⟩ rfl
  | some read =>
      exact iff_of_false (not_runsShort_ok read) (Option.some_ne_none read)

/-- A word that is all there leaves it to what follows whether bytes are
missing. -/
theorem not_runsShort_word_bind
    {next : Nat × Bytes → Except FrameError Result}
    (enough : width ≤ bytes.length)
    (later : ∀ number rest, rest.length = bytes.length - width →
      ¬ RunsShort (next (number, rest))) :
    ¬ RunsShort (word width bytes >>= next) := by
  rw [runsShort_bind_iff, runsShort_word_iff]
  rintro (missing | ⟨⟨number, rest⟩, read, short⟩)
  · exact Nat.not_lt_of_le enough missing
  · obtain ⟨_, rfl⟩ := word_eq_ok_iff.1 read
    exact later number rest (by simp) short

/-- A text runs short where its length, or what the length says, is cut off. -/
theorem runsShort_text_iff {field : String} :
    RunsShort (Frame.text field width bytes) ↔
      CutOff width (Message.maxLength width) bytes := by
  have most : ∀ size, size < Bytes.capacity width ↔
      size ≤ Message.maxLength width := by
    intro size
    have positive := Message.capacity_pos width
    rw [Message.maxLength]
    omega
  unfold Frame.text CutOff
  rw [runsShort_bind_iff, runsShort_word_iff]
  refine or_congr_right ⟨?_, ?_⟩
  · rintro ⟨⟨size, rest⟩, read, short⟩
    obtain ⟨small, rfl⟩ := word_eq_ok_iff.1 read
    rcases runsShort_bind_iff.1 short with cut | ⟨⟨content, after⟩, _, short⟩
    · exact ⟨size, rest, (most size).1 small, rfl, runsShort_take_iff.1 cut⟩
    · dsimp only at short
      split at short
      · exact absurd short (not_runsShort_ok _)
      · obtain ⟨_, _, ⟨⟩⟩ := short
  · rintro ⟨size, rest, small, rfl, missing⟩
    exact ⟨(size, rest), word_eq_ok_iff.2 ⟨(most size).2 small, rfl⟩,
      runsShort_bind_iff.2 (.inl (runsShort_take_iff.2 missing))⟩

/-- Messages that end too early are undecodable, and nobody waits for their
rest. -/
theorem not_runsShort_messages
    (read : List Message)
    (count : Nat)
    (bytes : Bytes) :
    ¬ RunsShort (messages read count bytes) := by
  induction count generalizing read bytes with
  | zero => exact not_runsShort_ok _
  | succ count step =>
      unfold messages
      split
      · exact step _ _
      · rintro ⟨_, _, ⟨⟩⟩

theorem runsShort_batch_iff : RunsShort (batch bytes) ↔ bytes.length < 4 := by
  unfold batch
  rw [runsShort_bind_iff, runsShort_word_iff]
  refine or_iff_left ?_
  rintro ⟨⟨count, rest⟩, _, short⟩
  exact not_runsShort_messages [] count rest short

/-! ## Whole frames -/

/-- Looking for a frame runs short on a part of one, and on one without a
body. -/
theorem runsShort_find_iff :
    RunsShort (find bytes) ↔ Partial bytes ∨ Leads (· = []) bytes := by
  have bodies : maxBody < Bytes.capacity headerSize := by decide
  constructor
  · intro short
    unfold find at short
    split at short
    · rename_i header
      exact .inl (.inl (word?_eq_none_iff.1 header))
    · rename_i size following header
      obtain ⟨_, rfl⟩ := Bytes.word?_eq_some_iff.1 header
      split at short
      · obtain ⟨_, _, ⟨⟩⟩ := short
      · rename_i small
        split at short
        · rename_i zero
          subst zero
          exact .inr ⟨[], following, rfl, Nat.zero_le _, by simp⟩
        · rename_i positive
          split at short
          · exact absurd short (not_runsShort_ok _)
          · rename_i none
            refine .inl
              (.inr ⟨size, following, Nat.le_of_not_lt small, rfl, ?_⟩)
            apply Bytes.split?_eq_none_iff.1
            cases cut : Bytes.split? size following with
            | none => rfl
            | some parts =>
                obtain ⟨front, rest⟩ := parts
                obtain ⟨rfl, rfl⟩ := Bytes.split?_eq_some_iff.1 cut
                cases front with
                | nil => exact absurd rfl positive
                | cons tag fields => exact absurd cut (none tag fields rest)
  · have header : ∀ size following, size ≤ maxBody →
        Bytes.word? headerSize
            (Bytes.littleEndian headerSize size ++ following) =
          some (size, following) :=
      fun size following small =>
        Bytes.word?_eq_some_iff.2 ⟨Nat.lt_of_le_of_lt small bodies, rfl⟩
    rintro ((short | ⟨size, following, small, rfl, missing⟩) |
      ⟨_, rest, rfl, none, rfl⟩)
    · simp only [find, word?_eq_none_iff.2 short]
      exact ⟨_, _, rfl⟩
    · have cut := Bytes.split?_eq_none_iff.2 missing
      simp only [find, header size following small,
        if_neg (Nat.not_lt_of_le small), if_neg (Nat.ne_zero_of_lt missing),
        cut]
      exact ⟨_, _, rfl⟩
    · rw [List.append_assoc, List.nil_append]
      simp only [find, header _ rest none]
      exact ⟨_, _, rfl⟩

/-- Reading runs short on a part of a frame, and on a whole frame whose body
does. -/
theorem runsShort_decode_iff
    {ofFields : UInt8 → Bytes → Except FrameError Value}
    (empty : Kind [])
    (fields : ∀ tag fields, RunsShort (ofFields tag fields) ↔
      Kind (tag :: fields)) :
    RunsShort (do
        let found ← find bytes
        return (← ofFields found.tag found.fields, found.rest)) ↔
      Partial bytes ∨ Leads Kind bytes := by
  rw [runsShort_bind_iff, runsShort_find_iff, or_assoc]
  refine or_congr_right ⟨?_, ?_⟩
  · rintro (⟨_, rest, rfl, small, same⟩ | ⟨⟨tag, content, rest⟩, found, short⟩)
    · exact ⟨[], rest, empty, small, same⟩
    · obtain ⟨small, rfl⟩ := find_eq_ok_iff.1 found
      rcases runsShort_bind_iff.1 short with short | ⟨value, _, short⟩
      · exact ⟨tag :: content, rest, (fields tag content).1 short, small, rfl⟩
      · exact absurd short (not_runsShort_ok _)
  · rintro ⟨body, rest, kind, small, rfl⟩
    cases body with
    | nil => exact .inl ⟨[], rest, rfl, small, rfl⟩
    | cons tag content =>
        refine .inr ⟨⟨tag, content, rest⟩, find_eq_ok_iff.2 ⟨small, rfl⟩, ?_⟩
        exact runsShort_bind_iff.2 (.inl ((fields tag content).2 kind))

end Frame

/-! ## Requests -/

namespace Request

/-- The bodies of requests that want more bytes than they have. -/
inductive Short : Bytes → Prop where
  /-- There is no tag. -/
  | empty : Short []
  /-- A batch is without its count. -/
  | count {fields : Bytes} (missing : fields.length < 4) : Short (1 :: fields)
  /-- The topic of a window is cut off. -/
  | topic
      {fields : Bytes}
      (cut : Frame.CutOff 2 65535 fields) :
      Short (2 :: fields)
  /-- A window is without some of its bounds. -/
  | bounds {topic : String} {rest : Bytes} (fits : topic.utf8ByteSize ≤ 65535)
      (missing : rest.length < windowSize) :
      Short (2 :: (Message.prefixed 2 (Bytes.ofText topic) ++ rest))

/-- The bounds are counted before the first of them is read, so neither of them
runs short itself. -/
theorem runsShort_readRange_iff {fields : Bytes} :
    Frame.RunsShort (readRange fields) ↔
      Frame.CutOff 2 65535 fields ∨
      ∃ topic rest, topic.utf8ByteSize ≤ 65535 ∧
        fields = Message.prefixed 2 (Bytes.ofText topic) ++ rest ∧
        rest.length < windowSize := by
  unfold readRange
  rw [Frame.runsShort_bind_iff, Frame.runsShort_text_iff]
  refine or_congr_right ⟨?_, ?_⟩
  · rintro ⟨⟨topic, rest⟩, read, short⟩
    obtain ⟨small, rfl⟩ := Frame.text_eq_ok_iff.1 read
    rcases Frame.runsShort_bind_iff.1 short with missing | ⟨⟨⟩, enough, short⟩
    · exact ⟨topic, rest, Nat.le_of_lt_succ small, rfl,
        Frame.runsShort_ensure_iff.1 missing⟩
    · have counted := Frame.ensure_eq_ok_iff.1 enough
      unfold windowSize at counted
      refine absurd short ?_
      refine Frame.not_runsShort_word_bind (by omega)
        fun partition afterPartition first => ?_
      refine Frame.not_runsShort_word_bind (by omega)
        fun start afterStart second => ?_
      refine Frame.not_runsShort_word_bind (by omega)
        fun bounded afterBounded third => ?_
      exact Frame.not_runsShort_word_bind (by omega) fun stop _ _ =>
        Frame.not_runsShort_ok _
  · rintro ⟨topic, rest, fits, rfl, missing⟩
    exact ⟨(topic, rest), Frame.text_eq_ok_iff.2 ⟨Nat.lt_succ_of_le fits, rfl⟩,
      Frame.runsShort_bind_iff.2 (.inl (Frame.runsShort_ensure_iff.2 missing))⟩

theorem runsShort_ofFields_iff
    (tag : UInt8)
    (fields : Bytes) :
    Frame.RunsShort (ofFields tag fields) ↔ Short (tag :: fields) := by
  constructor
  · intro short
    unfold ofFields at short
    split at short
    · rename_i batch
      subst batch
      exact .count
        (Frame.runsShort_batch_iff.1 (Frame.runsShort_map_iff.1 short))
    · split at short
      · rename_i window
        subst window
        rcases runsShort_readRange_iff.1 short with cut |
          ⟨topic, rest, fits, rfl, missing⟩
        · exact .topic cut
        · exact .bounds fits missing
      · split at short
        · exact absurd short (Frame.not_runsShort_ok _)
        · obtain ⟨_, _, ⟨⟩⟩ := short
  · intro short
    cases short with
    | count missing =>
        exact Frame.runsShort_map_iff.2 (Frame.runsShort_batch_iff.2 missing)
    | topic cut => exact runsShort_readRange_iff.2 (.inl cut)
    | bounds fits missing =>
        exact runsShort_readRange_iff.2 (.inr ⟨_, _, fits, rfl, missing⟩)

/-- A reader of requests asks for more bytes on a part of a frame and on a whole
frame that is short. -/
theorem runsShort_decode_iff {bytes : Bytes} :
    Frame.RunsShort (decode bytes) ↔
      Frame.Partial bytes ∨ Frame.Leads Short bytes :=
  Frame.runsShort_decode_iff .empty runsShort_ofFields_iff

end Request

/-! ## Responses -/

namespace Response

/-- The bodies of responses that want more bytes than they have. -/
inductive Short : Bytes → Prop where
  /-- There is no tag. -/
  | empty : Short []
  /-- An acknowledgement is without some of its counts. -/
  | counts {fields : Bytes} (missing : fields.length < 8) : Short (64 :: fields)
  /-- A batch is without its count. -/
  | count {fields : Bytes} (missing : fields.length < 4) : Short (65 :: fields)
  /-- The words of a failure are cut off. -/
  | words
      {fields : Bytes}
      (cut : Frame.CutOff 4 4294967295 fields) :
      Short (127 :: fields)

theorem runsShort_readAck_iff {fields : Bytes} :
    Frame.RunsShort (readAck fields) ↔ fields.length < 8 := by
  unfold readAck
  rw [Frame.runsShort_bind_iff, Frame.runsShort_ensure_iff]
  refine or_iff_left ?_
  rintro ⟨⟨⟩, counted, short⟩
  have enough := Frame.ensure_eq_ok_iff.1 counted
  refine Frame.not_runsShort_word_bind (by omega)
    (fun applied rest left => ?_) short
  exact Frame.not_runsShort_word_bind (by omega) fun duplicates _ _ =>
    Frame.not_runsShort_ok _

theorem runsShort_ofFields_iff
    (tag : UInt8)
    (fields : Bytes) :
    Frame.RunsShort (ofFields tag fields) ↔ Short (tag :: fields) := by
  constructor
  · intro short
    unfold ofFields at short
    split at short
    · rename_i ack
      subst ack
      exact .counts (runsShort_readAck_iff.1 short)
    · split at short
      · rename_i batch
        subst batch
        exact .count
          (Frame.runsShort_batch_iff.1 (Frame.runsShort_map_iff.1 short))
      · split at short
        · exact absurd short (Frame.not_runsShort_ok _)
        · split at short
          · rename_i failure
            subst failure
            exact .words
              (Frame.runsShort_text_iff.1 (Frame.runsShort_map_iff.1 short))
          · obtain ⟨_, _, ⟨⟩⟩ := short
  · intro short
    cases short with
    | counts missing => exact runsShort_readAck_iff.2 missing
    | count missing =>
        exact Frame.runsShort_map_iff.2 (Frame.runsShort_batch_iff.2 missing)
    | words cut =>
        exact Frame.runsShort_map_iff.2 (Frame.runsShort_text_iff.2 cut)

/-- A reader of responses asks for more bytes on a part of a frame and on a
whole frame that is short. -/
theorem runsShort_decode_iff {bytes : Bytes} :
    Frame.RunsShort (decode bytes) ↔
      Frame.Partial bytes ∨ Frame.Leads Short bytes :=
  Frame.runsShort_decode_iff .empty runsShort_ofFields_iff

end Response

end MessageBroker
