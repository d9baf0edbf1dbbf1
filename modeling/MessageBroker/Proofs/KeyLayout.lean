import Mathlib.Data.List.TakeWhile
import MessageBroker.Keyspace.Key
import MessageBroker.Proofs.Digits
import MessageBroker.Proofs.IdText

/-!
# Keys determine records

A key is the letter of its kind and its parts, joined by colons.  A key is plain
when its names hold no colon; then no part of it does.  A plain key shares its
byte string with no other key, plain or not: the letter gives the kind, the kind
gives the count of parts, and the parts give the record.
-/

namespace MessageBroker

theorem Fields.splitOnce?_append
    {separator : Char}
    {first : List Char}
    (free : separator ∉ first)
    (rest : List Char) :
    Fields.splitOnce? separator (first ++ separator :: rest) =
      some (first, rest) := by
  have before : ∀ character ∈ first, (character != separator) = true := by
    intro character inside
    exact bne_iff_ne.2 fun same => free (same ▸ inside)
  have drop : (first ++ separator :: rest).dropWhile (· != separator) =
      separator :: rest := by
    rw [List.dropWhile_append_of_pos before]
    simp
  have take : (first ++ separator :: rest).takeWhile (· != separator) =
      first := by
    rw [List.takeWhile_append_of_pos before]
    simp
  rw [Fields.splitOnce?, drop, take]

namespace Key

/-! ## Parts -/

/-- The letter of a key's kind. -/
def letter : Key → UInt8
  | .message .. => 0x6d
  | .nextOffset _ => 0x68
  | .pending .. => 0x71
  | .nextGeneration _ => 0x67
  | .expiry .. => 0x66
  | .body .. => 0x62
  | .topicRecord _ => 0x74
  | .queueRecord _ => 0x75
  | .cursor .. => 0x6f

/-- The parts of a key after its letter. -/
def parts : Key → List Bytes
  | .message home offset =>
      [Bytes.ofText home.topic, Bytes.ofText (partitionDigits home.partition),
        Bytes.ofText (longDigits offset)]
  | .nextOffset home =>
      [Bytes.ofText home.topic, Bytes.ofText (partitionDigits home.partition)]
  | .pending queue generation =>
      [Bytes.ofText queue, Bytes.ofText (longDigits generation)]
  | .nextGeneration queue => [Bytes.ofText queue]
  | .expiry queue id => [Bytes.ofText queue, Bytes.ofText id.text]
  | .body queue id => [Bytes.ofText queue, Bytes.ofText id.text]
  | .topicRecord name => [Bytes.ofText name]
  | .queueRecord name => [Bytes.ofText name]
  | .cursor group home =>
      [Bytes.ofText group, Bytes.ofText home.topic,
        Bytes.ofText (partitionDigits home.partition)]

/-- The names in a key. -/
def names : Key → List String
  | .message home _ => [home.topic]
  | .nextOffset home => [home.topic]
  | .pending queue _ => [queue]
  | .nextGeneration queue => [queue]
  | .expiry queue _ => [queue]
  | .body queue _ => [queue]
  | .topicRecord name => [name]
  | .queueRecord name => [name]
  | .cursor group home => [group, home.topic]

/-- No name in a key holds a colon. -/
def IsPlain (key : Key) : Prop :=
  ∀ name ∈ key.names, ':' ∉ name.toList

/-- A key with one name is plain when that name is. -/
theorem isPlain_of_name
    (key : Key)
    {name : String}
    (only : key.names = [name])
    (free : ':' ∉ name.toList) :
    key.IsPlain := by
  intro other inside
  rw [only, List.mem_singleton] at inside
  rw [inside]
  exact free

theorem bytes_eq_joined (key : Key) :
    key.bytes = Bytes.joined ([key.letter] :: key.parts) := by
  have separator : Bytes.ofText ":" = [Bytes.colon] := by decide
  cases key with
  | message home offset =>
      have front : Bytes.ofText messages = [0x6d, Bytes.colon] := by decide
      simp [bytes, text, messagesOf, front, separator, Bytes.joined, letter,
        parts]
  | nextOffset home =>
      have front : Bytes.ofText "h:" = [0x68, Bytes.colon] := by decide
      simp [bytes, text, front, separator, Bytes.joined, letter, parts]
  | pending queue generation =>
      have front : Bytes.ofText "q:" = [0x71, Bytes.colon] := by decide
      simp [bytes, text, pendingOf, front, separator, Bytes.joined, letter,
        parts]
  | nextGeneration queue =>
      have front : Bytes.ofText "g:" = [0x67, Bytes.colon] := by decide
      simp [bytes, text, front, Bytes.joined, letter, parts]
  | expiry queue id =>
      have front : Bytes.ofText expiries = [0x66, Bytes.colon] := by decide
      simp [bytes, text, expiriesOf, front, separator, Bytes.joined, letter,
        parts]
  | body queue id =>
      have front : Bytes.ofText "b:" = [0x62, Bytes.colon] := by decide
      simp [bytes, text, front, separator, Bytes.joined, letter, parts]
  | topicRecord name =>
      have front : Bytes.ofText topics = [0x74, Bytes.colon] := by decide
      simp [bytes, text, front, Bytes.joined, letter, parts]
  | queueRecord name =>
      have front : Bytes.ofText queues = [0x75, Bytes.colon] := by decide
      simp [bytes, text, front, Bytes.joined, letter, parts]
  | cursor group home =>
      have front : Bytes.ofText "o:" = [0x6f, Bytes.colon] := by decide
      simp [bytes, text, front, separator, Bytes.joined, letter, parts]

/-- The letter stands in front of a colon. -/
theorem bytes_eq_cons (key : Key) :
    key.bytes = key.letter :: Bytes.colon :: Bytes.joined key.parts := by
  rw [bytes_eq_joined]
  cases key <;> rfl

theorem apart_of_isPlain
    {key : Key}
    (plain : key.IsPlain) :
    Bytes.Apart ([key.letter] :: key.parts) := by
  have name : ∀ name ∈ key.names, Bytes.colon ∉ Bytes.ofText name :=
    fun name inside => Bytes.colon_not_mem_ofText (plain name inside)
  have digits : ∀ width number,
      Bytes.colon ∉ Bytes.ofText (Decimal.padded width number) :=
    Bytes.colon_not_mem_padded
  have id : ∀ id : MessageId, Bytes.colon ∉ Bytes.ofText id.text :=
    fun id => Bytes.colon_not_mem_ofText id.colon_not_mem_text
  have initial : Bytes.colon ∉ [key.letter] := by
    cases key <;> simp [letter, Bytes.colon]
  cases key <;>
    simp_all [Bytes.Apart, parts, names, partitionDigits, longDigits]

/-! ## The record of a key -/

theorem partition_fits (partition : Partition) :
    partition.toNat < Decimal.capacity 10 := by
  have bound := partition.toNat_lt
  simp only [Decimal.capacity]
  omega

theorem partitionDigits_inj {first second : Partition} :
    Bytes.ofText (partitionDigits first) =
        Bytes.ofText (partitionDigits second) ↔
      first = second := by
  rw [partitionDigits, partitionDigits,
    Bytes.padded_inj (partition_fits first) (partition_fits second)]
  exact UInt32.toNat_inj

theorem long_fits (number : UInt64) : number.toNat < Decimal.capacity 20 := by
  have bound := number.toNat_lt
  simp only [Decimal.capacity]
  omega

theorem longDigits_inj {first second : UInt64} :
    Bytes.ofText (longDigits first) = Bytes.ofText (longDigits second) ↔
      first = second := by
  rw [longDigits, longDigits,
    Bytes.padded_inj (long_fits first) (long_fits second)]
  exact UInt64.toNat_inj

theorem longDigits_lt_iff {first second : UInt64} :
    Bytes.ofText (longDigits first) < Bytes.ofText (longDigits second) ↔
      first < second := by
  rw [longDigits, longDigits,
    Bytes.padded_lt_padded_iff (long_fits first) (long_fits second)]
  exact UInt64.lt_iff_toNat_lt.symm

/-- How many parts follow the letter. -/
theorem length_parts_of_letter
    {first second : Key}
    (same : first.letter = second.letter) :
    first.parts.length = second.parts.length := by
  cases first <;> cases second <;> simp_all [letter, parts]

theorem eq_of_parts
    {first second : Key}
    (letters : first.letter = second.letter)
    (same : first.parts = second.parts) :
    first = second := by
  have names : ∀ {first second : String},
      Bytes.ofText first = Bytes.ofText second → first = second :=
    Bytes.ofText_injective
  have ids : ∀ {first second : MessageId},
      Bytes.ofText first.text = Bytes.ofText second.text → first = second :=
    fun same => MessageId.text_inj.1 (Bytes.ofText_injective same)
  have homes : ∀ {first second : PartitionKey},
      Bytes.ofText first.topic = Bytes.ofText second.topic →
      Bytes.ofText (partitionDigits first.partition) =
        Bytes.ofText (partitionDigits second.partition) → first = second := by
    rintro ⟨topic, partition⟩ ⟨topic', partition'⟩ topics partitions
    rw [show topic = topic' from names topics,
      show partition = partition' from partitionDigits_inj.1 partitions]
  cases first <;> cases second <;>
    simp only [letter, parts, List.cons.injEq, and_true, longDigits_inj]
      at letters same
  case message.message =>
      rw [homes same.1 same.2.1, same.2.2]
  case nextOffset.nextOffset =>
      rw [homes same.1 same.2]
  case pending.pending =>
      rw [names same.1, same.2]
  case nextGeneration.nextGeneration =>
      rw [names same]
  case expiry.expiry =>
      rw [names same.1, ids same.2]
  case body.body =>
      rw [names same.1, ids same.2]
  case topicRecord.topicRecord =>
      rw [names same]
  case queueRecord.queueRecord =>
      rw [names same]
  case cursor.cursor =>
      rw [names same.1, homes same.2.1 same.2.2]
  all_goals exact absurd letters (by decide)

theorem letter_eq_of_bytes
    {first second : Key}
    (same : first.bytes = second.bytes) :
    first.letter = second.letter := by
  rw [bytes_eq_cons, bytes_eq_cons] at same
  exact (List.cons.inj same).1

theorem bytes_ne_of_letter
    {first second : Key}
    (different : first.letter ≠ second.letter) :
    first.bytes ≠ second.bytes :=
  fun same => different (letter_eq_of_bytes same)

theorem joined_parts_of_bytes
    {first second : Key}
    (same : first.bytes = second.bytes) :
    Bytes.joined first.parts = Bytes.joined second.parts := by
  rw [bytes_eq_cons, bytes_eq_cons] at same
  exact (List.cons.inj (List.cons.inj same).2).2

/-- A plain key shares its byte string with no other key. -/
theorem eq_of_bytes
    {first second : Key}
    (plain : second.IsPlain)
    (same : first.bytes = second.bytes) :
    first = second := by
  have letters := letter_eq_of_bytes same
  apply eq_of_parts letters
  rw [bytes_eq_joined, bytes_eq_joined] at same
  have fields := Bytes.joined_inj (apart_of_isPlain plain)
    (by simp [length_parts_of_letter letters]) same
  exact (List.cons.inj fields).2

/-! ## Keys of logs

Numbers have a fixed count of digits, so the keys of a partition determine it
even where its topic holds colons. -/

theorem length_partitionDigits (partition : Partition) :
    (Bytes.ofText (partitionDigits partition)).length = 10 :=
  Bytes.length_ofText_padded 10 _

theorem length_longDigits (number : UInt64) :
    (Bytes.ofText (longDigits number)).length = 20 :=
  Bytes.length_ofText_padded 20 _

theorem nextOffset_bytes_inj {first second : PartitionKey} :
    (nextOffset first).bytes = (nextOffset second).bytes ↔ first = second := by
  refine ⟨fun same => ?_, fun same => by rw [same]⟩
  have tails := joined_parts_of_bytes same
  simp only [parts, Bytes.joined] at tails
  obtain ⟨topics, digits⟩ :=
    List.append_inj' tails (by simp [length_partitionDigits])
  have whole : nextOffset first = nextOffset second :=
    eq_of_parts rfl (by rw [parts, parts, topics, (List.cons.inj digits).2])
  exact nextOffset.inj whole

theorem message_bytes_inj
    {first second : PartitionKey}
    {offset offset' : Offset} :
    (message first offset).bytes = (message second offset').bytes ↔
      first = second ∧ offset = offset' := by
  refine ⟨fun same => ?_, fun ⟨homes, offsets⟩ => by rw [homes, offsets]⟩
  have tails := joined_parts_of_bytes same
  simp only [parts, Bytes.joined] at tails
  obtain ⟨topics, rests⟩ := List.append_inj' tails
    (by simp [length_partitionDigits, length_longDigits])
  obtain ⟨partitions, numbers⟩ := List.append_inj' (List.cons.inj rests).2
    (by simp [length_longDigits])
  have whole : message first offset = message second offset' :=
    eq_of_parts rfl
      (by rw [parts, parts, topics, partitions, (List.cons.inj numbers).2])
  exact message.inj whole

theorem message_bytes_ne_nextOffset
    (home other : PartitionKey)
    (offset : Offset) :
    (message home offset).bytes ≠ (nextOffset other).bytes :=
  bytes_ne_of_letter (by simp [letter])

/-! ## Keys of queues -/

theorem nextGeneration_bytes_inj {first second : String} :
    (nextGeneration first).bytes = (nextGeneration second).bytes ↔
      first = second := by
  refine ⟨fun same => ?_, fun same => by rw [same]⟩
  have tails := joined_parts_of_bytes same
  simp only [parts, Bytes.joined] at tails
  exact Bytes.ofText_injective tails

theorem pending_bytes_inj
    {first second : String}
    {generation generation' : UInt64} :
    (pending first generation).bytes = (pending second generation').bytes ↔
      first = second ∧ generation = generation' := by
  refine ⟨fun same => ?_, fun ⟨names, numbers⟩ => by rw [names, numbers]⟩
  have tails := joined_parts_of_bytes same
  simp only [parts, Bytes.joined] at tails
  rcases List.append_inj' tails (by simp [length_longDigits])
    with ⟨names, digits⟩
  have whole : pending first generation = pending second generation' :=
    eq_of_parts rfl (by rw [parts, parts, names, (List.cons.inj digits).2])
  exact pending.inj whole

/-- A delivery of a queue without colons has a body of its own. -/
theorem body_bytes_inj
    {first second : String}
    {id id' : MessageId}
    (free : ':' ∉ second.toList) :
    (body first id).bytes = (body second id').bytes ↔
      (first, id) = (second, id') := by
  refine ⟨fun same => ?_, fun same => by cases same; rfl⟩
  have plain := (body second id').isPlain_of_name rfl free
  cases eq_of_bytes plain same
  rfl

/-! ## Reading back -/

/-- The key of a message of a topic without colons reads back. -/
theorem readMessage?_message
    {home : PartitionKey}
    (free : ':' ∉ home.topic.toList)
    (offset : Offset) :
    readMessage? (message home offset).bytes = some (home, offset) := by
  have spelled : (message home offset).text.toList =
      'm' :: ':' :: (home.topic.toList ++
        ':' :: (Decimal.digits 10 home.partition.toNat ++
          ':' :: Decimal.digits 20 offset.toNat)) := by
    simp [text, messagesOf, messages, partitionDigits, longDigits,
      Decimal.padded]
  have fields : Fields.split ':' (home.topic.toList ++
        ':' :: (Decimal.digits 10 home.partition.toNat ++
          ':' :: Decimal.digits 20 offset.toNat)) =
      [home.topic.toList, Decimal.digits 10 home.partition.toNat,
        Decimal.digits 20 offset.toNat] := by
    rw [Fields.split_append free,
      Fields.split_append (Decimal.colon_not_mem_digits _ _),
      Fields.split_eq_singleton (Decimal.colon_not_mem_digits _ _)]
  have partition :
      Decimal.read? UInt32.size (Decimal.digits 10 home.partition.toNat) =
        some home.partition.toNat :=
    Decimal.read?_digits (partition_fits home.partition) home.partition.toNat_lt
      (by decide)
  have number : Decimal.read? UInt64.size (Decimal.digits 20 offset.toNat) =
      some offset.toNat :=
    Decimal.read?_digits (long_fits offset) offset.toNat_lt (by decide)
  simp only [readMessage?, bytes, Bytes.toText?_ofText, spelled, fields,
    partition, number, Option.bind_eq_bind, Option.bind_some,
    String.ofList_toList, UInt32.ofNat_toNat, UInt64.ofNat_toNat]
  rfl

/-- The key of an expiry of a queue without colons reads back. -/
theorem readExpiry?_expiry
    {queue : String}
    (free : ':' ∉ queue.toList)
    (id : MessageId) :
    readExpiry? (expiry queue id).bytes = some (queue, id) := by
  have spelled : (expiry queue id).text.toList =
      'f' :: ':' :: (queue.toList ++ ':' :: id.chars) := by
    simp [text, expiriesOf, expiries, MessageId.text]
  have fields : Fields.splitOnce? ':' (queue.toList ++ ':' :: id.chars) =
      some (queue.toList, id.chars) :=
    Fields.splitOnce?_append free id.chars
  simp only [readExpiry?, bytes, Bytes.toText?_ofText, spelled, fields,
    MessageId.ofChars?_chars, Option.bind_eq_bind, Option.bind_some,
    String.ofList_toList]
  rfl

/-- The key of a delivery reads as that of a queue without colons. -/
theorem free_of_readExpiry?
    {place : Bytes}
    {queue : String}
    {id : MessageId}
    (reads : readExpiry? place = some (queue, id)) :
    ':' ∉ queue.toList := by
  obtain ⟨text, _, reads⟩ := Option.bind_eq_some_iff.1 reads
  split at reads
  · obtain ⟨⟨name, digits⟩, fields, reads⟩ := Option.bind_eq_some_iff.1 reads
    obtain ⟨id', _, reads⟩ := Option.bind_eq_some_iff.1 reads
    cases reads
    unfold Fields.splitOnce? at fields
    split at fields
    · cases fields
    · cases fields
      rw [String.toList_ofList]
      intro inside
      exact absurd (List.mem_takeWhile_imp inside) (by decide)
  · cases reads

end Key

end MessageBroker
