import MessageBroker.Proofs.MessageForm

/-!
# The one byte form of a message

A message has a byte form exactly when its fields fit their lengths, and then
only one: bytes read as the message exactly when they begin with that form, and
what follows it is left.

A form that is cut short is told from one that is wrong.  Every reader here is
steady: of bytes that lack an end it reads what it would read off the whole, or
it says that they are cut short.  Steady readers make up steady readers, so this
passes from the fields to the message.
-/

namespace MessageBroker.Message

/-! ## What readers accept -/

section Accepting

variable {bytes rest : Bytes} {field : Field} {width : Nat}

theorem required_eq_ok_iff
    {α : Type}
    {fault : DecodeError}
    {sought : Option α}
    {found : α} :
    required fault sought = .ok found ↔ sought = some found := by
  cases sought <;> simp [required]

theorem readId_eq_ok_iff {id : MessageId} :
    readId bytes = .ok (id, rest) ↔ bytes = id.bytes ++ rest := by
  constructor
  · intro read
    unfold readId at read
    split at read
    · cases read
      exact (List.take_append_drop 16 bytes).symm
    · cases read
  · rintro rfl
    exact readId_append id rest

theorem readContent_eq_ok_iff {content : Bytes} :
    readContent field width bytes = .ok (content, rest) ↔
      content.length < Bytes.capacity width ∧
      bytes = prefixed width content ++ rest := by
  constructor
  · intro read
    obtain ⟨⟨size, following⟩, word, cut⟩ := bind_eq_ok_iff.1 read
    obtain ⟨small, rfl⟩ := Bytes.word?_eq_some_iff.1 (required_eq_ok_iff.1 word)
    obtain ⟨rfl, rfl⟩ := Bytes.split?_eq_some_iff.1 (required_eq_ok_iff.1 cut)
    exact ⟨small, (List.append_assoc _ _ _).symm⟩
  · rintro ⟨small, rfl⟩
    exact readContent_prefixed small rest

theorem readText_eq_ok_iff {text : String} :
    readText field width bytes = .ok (text, rest) ↔
      text.utf8ByteSize < Bytes.capacity width ∧
      bytes = prefixed width (Bytes.ofText text) ++ rest := by
  constructor
  · intro read
    obtain ⟨⟨content, following⟩, contained, read⟩ := bind_eq_ok_iff.1 read
    obtain ⟨text', spelled, same⟩ := bind_eq_ok_iff.1 read
    cases same
    obtain ⟨small, rfl⟩ := readContent_eq_ok_iff.1 contained
    obtain rfl := Bytes.toText?_eq_some_iff.1 (required_eq_ok_iff.1 spelled)
    exact ⟨Bytes.length_ofText text ▸ small, rfl⟩
  · rintro ⟨small, rfl⟩
    exact readText_prefixed small rest

/-- Bytes read as a message exactly when its fields fit and they begin with its
fields. -/
theorem decode_eq_ok_iff {message : Message} :
    decode bytes = .ok (message, rest) ↔
      message.Fits ∧ bytes = message.layout ++ rest := by
  constructor
  · intro read
    obtain ⟨⟨id, afterId⟩, readsId, read⟩ := bind_eq_ok_iff.1 read
    obtain ⟨⟨topic, afterTopic⟩, readsTopic, read⟩ := bind_eq_ok_iff.1 read
    obtain ⟨⟨partition, afterPartition⟩, readsPartition, read⟩ :=
      bind_eq_ok_iff.1 read
    obtain ⟨⟨offset, afterOffset⟩, readsOffset, read⟩ := bind_eq_ok_iff.1 read
    obtain ⟨⟨key, afterKey⟩, readsKey, read⟩ := bind_eq_ok_iff.1 read
    obtain ⟨⟨producer, afterProducer⟩, readsProducer, read⟩ :=
      bind_eq_ok_iff.1 read
    obtain ⟨⟨payload, afterPayload⟩, readsPayload, read⟩ :=
      bind_eq_ok_iff.1 read
    cases read
    obtain rfl := readId_eq_ok_iff.1 readsId
    obtain ⟨topicSmall, rfl⟩ := readText_eq_ok_iff.1 readsTopic
    obtain ⟨partitionSmall, rfl⟩ :=
      Bytes.word?_eq_some_iff.1 (required_eq_ok_iff.1 readsPartition)
    obtain ⟨offsetSmall, rfl⟩ :=
      Bytes.word?_eq_some_iff.1 (required_eq_ok_iff.1 readsOffset)
    obtain ⟨keySmall, rfl⟩ := readText_eq_ok_iff.1 readsKey
    obtain ⟨producerSmall, rfl⟩ := readText_eq_ok_iff.1 readsProducer
    obtain ⟨payloadSmall, rfl⟩ := readContent_eq_ok_iff.1 readsPayload
    refine ⟨⟨Nat.le_pred_of_lt topicSmall, Nat.le_pred_of_lt keySmall,
      Nat.le_pred_of_lt producerSmall, Nat.le_pred_of_lt payloadSmall⟩, ?_⟩
    have partitionKept : (UInt32.ofNat partition).toNat = partition :=
      UInt32.toNat_ofNat_of_lt partitionSmall
    have offsetKept : (UInt64.ofNat offset).toNat = offset :=
      UInt64.toNat_ofNat_of_lt offsetSmall
    simp only [layout, partitionKept, offsetKept, List.append_assoc]
  · rintro ⟨fits, rfl⟩
    exact decode_layout fits rest

end Accepting

/-- A stored message that reads has fields that fit. -/
theorem fits_of_toMessage
    {operation : String}
    {value : Bytes}
    {message : Message}
    (reads : Record.toMessage operation value = .ok message) :
    message.Fits := by
  unfold Record.toMessage at reads
  split at reads
  · cases reads
  · split at reads
    · split at reads
      · rename_i found rest decoded
        cases reads
        exact (decode_eq_ok_iff.1 decoded).1
      · cases reads
    · cases reads

/-! ## Bytes cut short -/

/-- Of bytes without their end, a reader reads what it reads off the whole, or
it says that they are cut short. -/
def Steady {α : Type} (read : Bytes → Except DecodeError (α × Bytes)) : Prop :=
  ∀ front tail found rest, read (front ++ tail) = .ok (found, rest) →
    (∃ left, read front = .ok (found, left) ∧ rest = left ++ tail) ∨
      ∃ field, read front = .error (.truncated field)

section Steadiness

variable {α β : Type}

/-- A reader that looks at nothing is steady. -/
theorem Steady.give (attempt : Except DecodeError α) :
    Steady fun bytes => attempt.map fun found => (found, bytes) := by
  intro front tail found rest read
  obtain ⟨found', succeeds, same⟩ := map_eq_ok_iff.1 read
  cases same
  exact .inl ⟨front, map_eq_ok_iff.2 ⟨found, succeeds, rfl⟩, rfl⟩

/-- Two steady readers, one after the other, are one. -/
theorem Steady.bind
    {first : Bytes → Except DecodeError (α × Bytes)}
    {next : α × Bytes → Except DecodeError (β × Bytes)}
    (steady : Steady first)
    (steadyNext : ∀ found, Steady fun bytes => next (found, bytes)) :
    Steady fun bytes => first bytes >>= next := by
  intro front tail found rest read
  obtain ⟨⟨middle, following⟩, readsFirst, readsNext⟩ := bind_eq_ok_iff.1 read
  rcases steady front tail middle following readsFirst with ⟨left, reads, rfl⟩ |
    ⟨field, short⟩
  · simp only [reads, ok_bind]
    exact steadyNext middle left tail found rest readsNext
  · refine .inr ⟨field, ?_⟩
    simp only [short]
    rfl

/-- A reader that takes a count of bytes off the front is steady. -/
theorem Steady.split
    (field : Field)
    (count : Nat) :
    Steady fun bytes =>
      required (.truncated field) (Bytes.split? count bytes) := by
  intro front tail found rest read
  obtain ⟨long, whole⟩ := Bytes.split?_eq_some_iff.1 (required_eq_ok_iff.1 read)
  by_cases enough : count ≤ front.length
  · obtain ⟨left, rfl⟩ : found <+: front :=
      List.prefix_of_prefix_length_le ⟨rest, whole.symm⟩ ⟨tail, rfl⟩
        (long ▸ enough)
    rw [List.append_assoc] at whole
    have cut : Bytes.split? count (found ++ left) = some (found, left) :=
      Bytes.split?_eq_some_iff.2 ⟨long, rfl⟩
    exact .inl ⟨left, required_eq_ok_iff.2 cut,
      (List.append_cancel_left whole).symm⟩
  · have short : Bytes.split? count front = none :=
      Bytes.split?_eq_none_iff.2 (Nat.lt_of_not_le enough)
    refine .inr ⟨field, ?_⟩
    simp only [short, required]

theorem Steady.word
    (field : Field)
    (width : Nat) :
    Steady fun bytes =>
      required (.truncated field) (Bytes.word? width bytes) := by
  have parts :
      (fun bytes => required (.truncated field) (Bytes.word? width bytes)) =
        fun bytes =>
          required (.truncated field) (Bytes.split? width bytes) >>=
            fun parts =>
              (Except.ok (Bytes.value parts.1)).map fun number =>
                (number, parts.2) := by
    funext bytes
    rw [Bytes.word?]
    cases Bytes.split? width bytes <;> rfl
  rw [parts]
  exact .bind (.split field width) fun content =>
    .give (.ok (Bytes.value content))

theorem Steady.readContent
    (field : Field)
    (width : Nat) :
    Steady (readContent field width) :=
  .bind (.word field width) fun size => .split field size

theorem Steady.readText
    (field : Field)
    (width : Nat) :
    Steady (readText field width) := by
  refine .bind (.readContent field width) fun content => ?_
  exact .give (required (.invalidText field) (Bytes.toText? content))

theorem Steady.readId : Steady readId := by
  have parts : Message.readId =
      fun bytes =>
        required (.truncated .id) (Bytes.split? 16 bytes) >>=
          fun parts =>
            (required (.truncated .id) (MessageId.ofBytes? parts.1)).map
              fun id => (id, parts.2) := by
    funext bytes
    rw [Message.readId, Bytes.split?]
    split
    · rename_i sixteen
      simp only [required, ok_bind, MessageId.ofBytes?, dif_pos sixteen]
      rfl
    · rename_i short
      simp only [required]
      rfl
  rw [parts]
  exact .bind (.split .id 16) fun content =>
    .give (required _ (MessageId.ofBytes? content))

/-- Reading a message is steady. -/
theorem Steady.decode : Steady decode := by
  refine .bind .readId fun id => ?_
  refine .bind (.readText .topic 2) fun topic => ?_
  refine .bind (.word .offset 4) fun partition => ?_
  refine .bind (.word .offset 8) fun offset => ?_
  refine .bind (.readText .key 4) fun key => ?_
  refine .bind (.readText .producer 2) fun producer => ?_
  refine .bind (.readContent .payload 4) fun payload => ?_
  exact .give (.ok _)

end Steadiness

/-- A message's fields without their end are cut short. -/
theorem decode_front
    {message : Message}
    (fits : message.Fits)
    {front : Bytes}
    (within : front <+: message.layout)
    (strict : front ≠ message.layout) :
    ∃ field, decode front = .error (.truncated field) := by
  obtain ⟨tail, whole⟩ := within
  have read : decode (front ++ tail) = .ok (message, []) := by
    rw [whole]
    exact decode_eq_ok_iff.2 ⟨fits, (List.append_nil _).symm⟩
  rcases Steady.decode front tail message [] read with
    ⟨left, _, nothing⟩ | short
  · obtain ⟨_, rfl⟩ := List.append_eq_nil_iff.1 nothing.symm
    exact absurd (by simpa using whole) strict
  · exact short

/-! ## The form -/

theorem encode_eq_error_iff {message : Message} :
    (∃ oversized, message.encode = .error oversized) ↔ ¬ message.Fits := by
  constructor
  · rintro ⟨oversized, refused⟩ fits
    rw [encode_eq_ok_iff.2 ⟨fits, rfl⟩] at refused
    cases refused
  · intro unfit
    cases written : message.encode with
    | error oversized => exact ⟨oversized, rfl⟩
    | ok form => exact absurd (encode_eq_ok_iff.1 written).1 unfit

theorem write_run_eq_encode
    (message : Message)
    (buffer : Bytes) :
    message.write.run.run buffer =
      match message.encode with
      | .ok form => (.ok (), buffer ++ form)
      | .error oversized => (.error oversized, buffer) := by
  rw [write_run, encode_eq]
  cases message.checkLengths <;> rfl

/-- A message has a byte form exactly when its fields fit their lengths;
otherwise writing it leaves the buffer as it was.  Bytes read as the message
exactly when they begin with its form, whose size is known beforehand, and what
is cut off within the form is always reported as cut short. -/
theorem exact_form (message : Message) :
    (message.Fits ↔
      message.topic.utf8ByteSize ≤ 65535 ∧
      message.producer.utf8ByteSize ≤ 65535 ∧
      message.key.utf8ByteSize ≤ 4294967295 ∧
      message.payload.length ≤ 4294967295) ∧
    (∀ bytes rest, decode bytes = .ok (message, rest) ↔
      message.Fits ∧ ∃ form, message.encode = .ok form ∧ bytes = form ++ rest) ∧
    ((∃ oversized, message.encode = .error oversized) ↔ ¬ message.Fits) ∧
    (∀ buffer : Bytes, message.write.run.run buffer =
      match message.encode with
      | .ok form => (.ok (), buffer ++ form)
      | .error oversized => (.error oversized, buffer)) ∧
    ∀ form, message.encode = .ok form →
      form.length = message.encodedSize ∧
        ∀ front, front <+: form → front ≠ form →
          ∃ field, decode front = .error (.truncated field) := by
  refine ⟨fits_iff, fun bytes rest => ?_, encode_eq_error_iff,
    write_run_eq_encode message, ?_⟩
  · rw [decode_eq_ok_iff]
    constructor
    · rintro ⟨fits, whole⟩
      exact ⟨fits, message.layout, encode_eq_ok_iff.2 ⟨fits, rfl⟩, whole⟩
    · rintro ⟨fits, form, written, whole⟩
      exact ⟨fits, (encode_eq_ok_iff.1 written).2 ▸ whole⟩
  · intro form written
    obtain ⟨fits, rfl⟩ := encode_eq_ok_iff.1 written
    exact ⟨length_layout message, fun front => decode_front fits⟩

/-- A form cut within a letter of its topic. -/
theorem exact_form_cut_letter :
    let message : Message := { topic := "é" }
    let front := MessageId.nil.bytes ++ [2, 0, 0xc3]
    message.encode = .ok message.layout ∧
    front <+: message.layout ∧
    front ≠ message.layout ∧
    ∃ field, decode front = .error (.truncated field) := by
  intro message front
  have written : message.encode = .ok message.layout :=
    encode_eq_ok_iff.2 ⟨fits_iff.2 (by decide +kernel), rfl⟩
  have within : front <+: message.layout := by decide +kernel
  have strict : front ≠ message.layout := by decide +kernel
  exact ⟨written, within, strict,
    ((exact_form message).2.2.2.2 message.layout written).2 front within strict⟩

end MessageBroker.Message
