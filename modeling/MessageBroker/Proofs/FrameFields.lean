import Mathlib.Algebra.GroupWithZero.Nat
import MessageBroker.Frame
import MessageBroker.Proofs.ExactForm

/-!
# What frames and their fields accept

Each reader of a frame accepts just the bytes that its writer writes, whatever
follows them.  So a frame is found exactly where one was enclosed, and a batch
reads back exactly where its count and its messages were written one after the
other.
-/

namespace MessageBroker.Frame

variable {bytes rest : Bytes} {width : Nat}

/-! ## Words and texts -/

theorem word_eq_ok_iff {number : Nat} :
    word width bytes = .ok (number, rest) ↔
      number < Bytes.capacity width ∧
      bytes = Bytes.littleEndian width number ++ rest := by
  rw [← Bytes.word?_eq_some_iff, word]
  cases bytes.word? width <;> simp

theorem take_eq_ok_iff
    {needed : Nat}
    {content : Bytes} :
    take needed bytes = .ok (content, rest) ↔
      content.length = needed ∧ bytes = content ++ rest := by
  rw [← Bytes.split?_eq_some_iff, take]
  cases Bytes.split? needed bytes <;> simp

theorem text_eq_ok_iff {field text : String} :
    Frame.text field width bytes = .ok (text, rest) ↔
      text.utf8ByteSize < Bytes.capacity width ∧
      bytes = Message.prefixed width (Bytes.ofText text) ++ rest := by
  constructor
  · intro read
    obtain ⟨⟨size, following⟩, counted, afterSize⟩ := bind_eq_ok_iff.1 read
    obtain ⟨⟨content, after⟩, cut, spells⟩ := bind_eq_ok_iff.1 afterSize
    obtain ⟨small, rfl⟩ := word_eq_ok_iff.1 counted
    obtain ⟨rfl, rfl⟩ := take_eq_ok_iff.1 cut
    dsimp only at spells
    split at spells
    · rename_i text' spelled
      cases spells
      obtain rfl := Bytes.toText?_eq_some_iff.1 spelled
      exact ⟨Bytes.length_ofText text ▸ small, (List.append_assoc _ _ _).symm⟩
    · cases spells
  · rintro ⟨small, rfl⟩
    rw [← Bytes.length_ofText] at small
    have counted :
        word width (Message.prefixed width (Bytes.ofText text) ++ rest) =
          .ok ((Bytes.ofText text).length, Bytes.ofText text ++ rest) :=
      word_eq_ok_iff.2 ⟨small, List.append_assoc _ _ _⟩
    have cut : take (Bytes.ofText text).length (Bytes.ofText text ++ rest) =
        .ok (Bytes.ofText text, rest) := take_eq_ok_iff.2 ⟨rfl, rfl⟩
    rw [Frame.text, counted, ok_bind]
    simp only [cut, ok_bind, Bytes.toText?_ofText]
    rfl

theorem ensure_eq_ok_iff {needed : Nat} :
    ensure needed bytes = .ok () ↔ needed ≤ bytes.length := by
  unfold ensure
  split
  · rename_i short
    simp [Nat.not_le_of_lt short]
  · rename_i enough
    simp [Nat.le_of_not_lt enough]

/-! ## Batches -/

theorem checkBatch_eq_ok_iff {batch : List Message} :
    checkBatch batch = .ok () ↔ ∀ message ∈ batch, message.Fits := by
  induction batch with
  | nil => simp [checkBatch]
  | cons message others step =>
      rw [checkBatch, List.forall_mem_cons, ← Message.checkLengths_eq_ok_iff,
        ← step]
      cases message.checkLengths <;> simp

/-- The size of a batch is four bytes and the sizes of its messages. -/
theorem batchSize_eq (batch : List Message) :
    batchSize batch = 4 + (batch.map Message.encodedSize).sum := by
  have added : ∀ start,
      batch.foldl (fun size message => size + message.encodedSize) start =
        start + (batch.map Message.encodedSize).sum := by
    induction batch with
    | nil => simp
    | cons message others step =>
        intro start
        rw [List.foldl_cons, step, List.map_cons, List.sum_cons, Nat.add_assoc]
  exact added 4

theorem length_batchLayout (batch : List Message) :
    (batchLayout batch).length = batchSize batch := by
  rw [batchSize_eq, batchLayout, List.length_append, Bytes.length_littleEndian,
    List.length_flatMap]
  simp only [Message.length_layout]

/-- A batch has no more messages than bytes. -/
theorem length_le_batchSize (batch : List Message) :
    batch.length ≤ batchSize batch := by
  rw [batchSize_eq]
  induction batch with
  | nil => simp
  | cons message others step =>
      have some : 0 < message.encodedSize := by
        unfold Message.encodedSize Message.overhead
        omega
      rw [List.length_cons, List.map_cons, List.sum_cons]
      omega

/-- Messages are read one after the other, each where the one before it ends. -/
theorem messages_eq_ok_iff
    {read batch : List Message}
    {count : Nat} :
    messages read count bytes = .ok batch ↔
      ∃ later rest, batch = read.reverse ++ later ∧
        later.length = count ∧
        (∀ message ∈ later, message.Fits) ∧
        bytes = later.flatMap Message.layout ++ rest := by
  induction count generalizing read bytes with
  | zero =>
      rw [messages, Except.ok.injEq]
      constructor
      · rintro rfl
        exact ⟨[], bytes, by simp⟩
      · rintro ⟨later, rest, rfl, none, _⟩
        rw [List.length_eq_zero_iff.1 none, List.append_nil]
  | succ count step =>
      rw [messages]
      constructor
      · intro done
        split at done
        · rename_i message following decoded
          obtain ⟨fits, rfl⟩ := Message.decode_eq_ok_iff.1 decoded
          obtain ⟨later, rest, rfl, counted, fitting, rfl⟩ := step.1 done
          refine ⟨message :: later, rest,
            by simp, by simp [counted], ?_, by simp⟩
          exact List.forall_mem_cons.2 ⟨fits, fitting⟩
        · cases done
      · rintro ⟨later, rest, rfl, counted, fitting, rfl⟩
        cases later with
        | nil => cases counted
        | cons message later =>
            obtain ⟨fits, fitting⟩ := List.forall_mem_cons.1 fitting
            have decoded : Message.decode
                ((message :: later).flatMap Message.layout ++ rest) =
                  .ok (message, later.flatMap Message.layout ++ rest) :=
              Message.decode_eq_ok_iff.2 ⟨fits, by simp⟩
            rw [decoded]
            exact step.2
              ⟨later, rest, by simp, Nat.succ.inj counted, fitting, rfl⟩

theorem batch_eq_ok_iff {found : List Message} :
    batch bytes = .ok found ↔
      found.length < Bytes.capacity 4 ∧
      (∀ message ∈ found, message.Fits) ∧
      ∃ rest, bytes = batchLayout found ++ rest := by
  constructor
  · intro read
    obtain ⟨⟨count, following⟩, counted, listed⟩ := bind_eq_ok_iff.1 read
    obtain ⟨small, rfl⟩ := word_eq_ok_iff.1 counted
    obtain ⟨later, rest, rfl, rfl, fitting, rfl⟩ := messages_eq_ok_iff.1 listed
    exact ⟨small, fitting, rest, (List.append_assoc _ _ _).symm⟩
  · rintro ⟨small, fitting, rest, rfl⟩
    have counted : word 4 (batchLayout found ++ rest) =
        .ok (found.length, found.flatMap Message.layout ++ rest) :=
      word_eq_ok_iff.2 ⟨small, List.append_assoc _ _ _⟩
    rw [batch, counted, ok_bind]
    exact messages_eq_ok_iff.2 ⟨found, rest, rfl, rfl, fitting, rfl⟩

/-! ## Whole frames -/

theorem enclose_eq_ok_iff
    {tag : UInt8}
    {size : Nat}
    {fields : Unit → Bytes}
    {frame : Bytes} :
    enclose tag size fields = .ok frame ↔
      size + 1 ≤ maxBody ∧
      frame = Bytes.littleEndian headerSize (size + 1) ++ tag :: fields () := by
  unfold enclose
  split
  · rename_i large
    simp [Nat.not_le_of_lt large]
  · rename_i small
    simp [Nat.le_of_not_lt small, eq_comm]

/-- A frame is found exactly where its length, its tag and its fields stand. -/
theorem find_eq_ok_iff
    {tag : UInt8}
    {fields : Bytes} :
    find bytes = .ok ⟨tag, fields, rest⟩ ↔
      fields.length + 1 ≤ maxBody ∧
      bytes =
        Bytes.littleEndian headerSize (fields.length + 1) ++ tag :: fields ++
          rest := by
  have bodies : maxBody < Bytes.capacity headerSize := by decide
  unfold find
  constructor
  · intro found
    split at found
    · cases found
    · rename_i size following header
      obtain ⟨_, rfl⟩ := Bytes.word?_eq_some_iff.1 header
      split at found
      · cases found
      · rename_i small
        split at found
        · cases found
        · split at found
          · rename_i tag' fields' rest' cut
            obtain ⟨long, rfl⟩ := Bytes.split?_eq_some_iff.1 cut
            cases found
            rw [List.length_cons] at long
            subst long
            exact ⟨Nat.le_of_not_lt small, (List.append_assoc _ _ _).symm⟩
          · cases found
  · rintro ⟨small, rfl⟩
    have header : Bytes.word? headerSize
          (Bytes.littleEndian headerSize (fields.length + 1) ++ tag :: fields ++
            rest) =
        some (fields.length + 1, tag :: fields ++ rest) :=
      Bytes.word?_eq_some_iff.2 ⟨Nat.lt_of_le_of_lt small bodies,
        List.append_assoc _ _ _⟩
    have cut : Bytes.split? (fields.length + 1) (tag :: fields ++ rest) =
        some (tag :: fields, rest) := Bytes.split?_eq_some_iff.2 ⟨rfl, rfl⟩
    simp only [header, if_neg (Nat.not_lt_of_le small),
      if_neg (Nat.succ_ne_zero _), cut]

end MessageBroker.Frame
