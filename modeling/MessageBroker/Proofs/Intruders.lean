import MessageBroker.Proofs.LogReading
import MessageBroker.Replica

/-!
# Messages in other partitions' ranges

The messages of a partition are scanned by the stem of their keys: topic,
partition and a colon after each.  A topic without colons has a stem that no
other such topic's keys begin with.  But a topic that holds colons may itself
begin with the whole stem of another partition, and then its messages lie among
those of that partition and are read as its own.

Nothing is asked of the keyspace here but that every message is stored under its
own key.
-/

namespace MessageBroker

namespace Key

/-- A message's key that begins with the stem of a partition is one of its own,
or its topic goes on behind that stem.  Its topic ends at the first colon or
goes on behind it, and then it ends at the second one or goes on behind that
too. -/
theorem message_eq_stem_cases
    {home other : PartitionKey}
    (free : ':' ∉ home.topic.toList)
    {offset : Offset}
    {tail : Bytes}
    (same : (message other offset).bytes =
      Bytes.ofText (messagesOf home) ++ tail) :
    other = home ∧ tail = Bytes.ofText (longDigits offset) ∨
    ∃ rest,
      Bytes.ofText (other.topic ++ ":") =
        Bytes.ofText
            (home.topic ++ ":" ++ partitionDigits home.partition ++ ":") ++
          rest ∧
      tail =
        rest ++
          Bytes.ofText
            (partitionDigits other.partition ++ ":" ++ longDigits offset) := by
  have separator : Bytes.ofText ":" = [Bytes.colon] := by decide
  have topicFree := Bytes.colon_not_mem_ofText free
  have digitsFree : ∀ partition,
      Bytes.colon ∉ Bytes.ofText (partitionDigits partition) :=
    fun partition => Bytes.colon_not_mem_padded 10 partition.toNat
  have tails : Bytes.ofText other.topic ++ Bytes.colon ::
        (Bytes.ofText (partitionDigits other.partition) ++ Bytes.colon ::
          Bytes.ofText (longDigits offset)) =
      Bytes.ofText home.topic ++ Bytes.colon ::
        (Bytes.ofText (partitionDigits home.partition) ++ Bytes.colon ::
          tail) := by
    rw [bytes_eq_cons, ofText_messagesOf] at same
    simpa [parts, Bytes.joined, letter] using same
  rcases Bytes.append_colon_cases topicFree tails with ⟨topics, rests⟩ |
    ⟨between, topics, rests⟩
  · obtain ⟨partitions, digits⟩ :=
      Bytes.append_colon_inj (digitsFree _) (digitsFree _) rests
    have homes : message other offset = message home offset :=
      eq_of_parts rfl (by rw [parts, parts, topics, partitions])
    exact .inl ⟨(message.inj homes).1, digits.symm⟩
  · refine .inr ?_
    rcases Bytes.append_colon_cases (digitsFree _) rests.symm with
      ⟨rfl, digits⟩ | ⟨more, rfl, digits⟩
    · refine ⟨[], ?_, ?_⟩
      · simp [topics, separator]
      · simp [← digits, separator]
    · refine ⟨more ++ [Bytes.colon], ?_, ?_⟩
      · simp [topics, separator]
      · simp [digits, separator]

end Key

namespace Log

/-- A message whose topic goes on behind the stem of a partition, so that its
key is scanned with the keys of that partition from the first offset on. -/
def Intrudes (home : PartitionKey) (message : Message) : Prop :=
  ∃ rest,
    Bytes.ofText (message.topic ++ ":") =
      Bytes.ofText
          (home.topic ++ ":" ++ Key.partitionDigits home.partition ++ ":") ++
        rest ∧
    ¬ rest ++
        Bytes.ofText
          (Key.partitionDigits message.partition ++ ":" ++
            Key.longDigits message.offset) <
      Bytes.ofText (Key.longDigits 0)

theorem Intrudes.home_ne
    {home : PartitionKey}
    {message : Message}
    (intrudes : Intrudes home message) :
    message.home ≠ home := by
  rintro rfl
  obtain ⟨rest, same, _⟩ := intrudes
  have lengths := congrArg List.length same
  simp [Message.home, Key.length_partitionDigits] at lengths

theorem Intrudes.bytes_eq
    {home : PartitionKey}
    {message : Message}
    (intrudes : Intrudes home message) :
    ∃ tail,
      (Key.message message.home message.offset).bytes =
        Bytes.ofText (Key.messagesOf home) ++ tail ∧
      ¬ tail < Bytes.ofText (Key.longDigits 0) := by
  obtain ⟨rest, same, least⟩ := intrudes
  refine ⟨_, ?_, least⟩
  have front : ∀ other : PartitionKey, Bytes.ofText (Key.messagesOf other) =
      Bytes.ofText Key.messages ++ Bytes.ofText (other.topic ++ ":" ++
        Key.partitionDigits other.partition ++ ":") := by
    intro other
    rw [Key.messagesOf, ← Bytes.ofText_append]
    simp only [String.append_assoc]
  rw [Key.bytes_message, front, front, List.append_assoc _ _ (rest ++ _),
    ← List.append_assoc _ rest, ← same]
  simp [Message.home]

theorem not_intrudes
    {home : PartitionKey}
    {message : Message}
    (free : ':' ∉ message.topic.toList) :
    ¬ Intrudes home message := by
  rintro ⟨rest, same, _⟩
  have separator : Bytes.ofText ":" = [Bytes.colon] := by decide
  have tails : Bytes.ofText home.topic ++ Bytes.colon ::
        (Bytes.ofText (Key.partitionDigits home.partition) ++ Bytes.colon ::
          rest) =
      Bytes.ofText message.topic ++ Bytes.colon :: [] := by
    simpa [separator] using same.symm
  rcases Bytes.append_colon_cases (Bytes.colon_not_mem_ofText free) tails with
    ⟨_, nothing⟩ | ⟨between, _, nothing⟩
  · simp at nothing
  · simp at nothing

/-! ## Messages under their own keys -/

/-- Under every key of a message there is a message of the kind, and the key is
its own. -/
def Filed (kind : Message → Prop) (keyspace : Keyspace) : Prop :=
  ∀ place content, keyspace.get? place = some content →
    Bytes.ofText Key.messages <+: place →
    ∃ message, kind message ∧
      place = (Key.message message.home message.offset).bytes ∧
      Record.ofMessage message = .ok content

variable {kind : Message → Prop} {keyspace : Keyspace} {home : PartitionKey}
  {message : Message}

theorem Filed.contains
    (filed : Filed kind keyspace)
    (held : Contains keyspace message) :
    kind message ∧
    ∃ content,
      keyspace.get? (Key.message message.home message.offset).bytes =
        some content ∧
      Record.ofMessage message = .ok content := by
  obtain ⟨content, found, read⟩ := Option.bind_eq_some_iff.1 held
  obtain ⟨other, kinds, same, stored⟩ :=
    filed _ content found (Key.messages_prefix_iff.2 ⟨_, _, rfl⟩)
  rw [Record.toMessage_ofMessage stored] at read
  cases read
  exact ⟨kinds, content, found, stored⟩

theorem contains_of_get?
    {content : Bytes}
    (found : keyspace.get? (Key.message message.home message.offset).bytes =
      some content)
    (stored : Record.ofMessage message = .ok content) :
    Contains keyspace message := by
  rw [Contains, record?, found, Option.bind_some,
    Record.toMessage_ofMessage stored]
  rfl

/-- What a window of a partition shows belongs to the partition or intrudes on
it. -/
theorem Filed.mem_entries
    (filed : Filed kind keyspace)
    (free : ':' ∉ home.topic.toList)
    {window : Window}
    {place content : Bytes}
    (inside : (place, content) ∈ entries keyspace home window) :
    ∃ message, Contains keyspace message ∧
      place = (Key.message message.home message.offset).bytes ∧
      Record.ofMessage message = .ok content ∧
      (message.home = home ∨ Intrudes home message) := by
  obtain ⟨within, found⟩ := Keyspace.mem_between_iff.1 inside
  obtain ⟨tail, same, above, _⟩ := Key.between_window_iff.1 within
  have stemmed : Bytes.ofText Key.messages <+: place := by
    rw [same, Key.messagesOf]
    simp only [Bytes.ofText_append, List.append_assoc]
    exact List.prefix_append _ _
  obtain ⟨message, _, own, stored⟩ := filed place content found stemmed
  subst own
  refine ⟨message, contains_of_get? found stored, rfl, stored, ?_⟩
  rcases Key.message_eq_stem_cases free same with ⟨homes, _⟩ |
    ⟨rest, topics, digits⟩
  · exact .inl homes
  · refine .inr ⟨rest, topics, fun below => above ?_⟩
    rw [digits]
    by_cases first : window.start = 0
    · rw [first]
      exact below
    · have later : (0 : Offset) < window.start := UInt64.pos_iff_ne_zero.2 first
      exact List.lt_trans below (Key.longDigits_lt_iff.2 later)

/-! ## Reads -/

/-- The messages of one partition, in offset order. -/
structure Own (home : PartitionKey) (page : List Message) : Prop where
  home : ∀ message ∈ page, message.home = home
  ordered : page.Pairwise fun earlier later => earlier.offset < later.offset

/-- Entries of a partition's own messages, in key order, read as them. -/
theorem mapM_own
    {page : List (Bytes × Bytes)}
    (own : ∀ entry ∈ page, ∃ message : Message, message.home = home ∧
      entry.1 = (Key.message message.home message.offset).bytes ∧
      Record.ofMessage message = .ok entry.2)
    (ordered : page.Pairwise fun earlier later => earlier.1 < later.1) :
    ∃ messages,
      (page.mapM fun entry => Record.toMessage "read" entry.2) = .ok messages ∧
      Own home messages := by
  obtain ⟨messages, done, homes, keys⟩ : ∃ messages,
      (page.mapM fun entry => Record.toMessage "read" entry.2) = .ok messages ∧
      (∀ message ∈ messages, message.home = home) ∧
      page.map Prod.fst =
        messages.map fun message =>
          (Key.message home message.offset).bytes := by
    clear ordered
    induction page with
    | nil => exact ⟨[], rfl, by simp, rfl⟩
    | cons entry rest step =>
        obtain ⟨message, homes, place, stored⟩ := own entry List.mem_cons_self
        obtain ⟨messages, done, others, keys⟩ :=
          step fun other inside => own other (List.mem_cons_of_mem _ inside)
        have read := Record.toMessage_ofMessage stored "read"
        refine ⟨message :: messages,
          mapM_cons_eq_ok_iff.2 ⟨_, _, read, done, rfl⟩, ?_, ?_⟩
        · intro other inside
          rcases List.mem_cons.1 inside with rfl | later
          · exact homes
          · exact others other later
        · rw [List.map_cons, List.map_cons, keys, place, homes]
  refine ⟨messages, done, homes, ?_⟩
  have rising : (page.map Prod.fst).Pairwise (· < ·) :=
    List.pairwise_map.2 ordered
  rw [keys] at rising
  exact (List.pairwise_map.1 rising).imp Key.message_bytes_lt_iff.1

/-- Where no message intrudes on a partition, its reads give its own
messages. -/
theorem Filed.read_own
    (filed : Filed kind keyspace)
    (free : ':' ∉ home.topic.toList)
    (alone : ∀ message, Contains keyspace message → ¬ Intrudes home message)
    (window : Window)
    (most : Nat)
    (budget : Option Nat) :
    ∃ page, read keyspace home window most budget = .ok page ∧
      Own home page := by
  rw [read_eq_page]
  split
  · exact ⟨[], rfl, by simp, .nil⟩
  · have front := Keyspace.page_front most budget (entries keyspace home window)
    refine mapM_own (fun entry inside => ?_)
      ((Keyspace.between_ordered keyspace _ _).sublist front.sublist)
    obtain ⟨message, held, place, stored, homes | intrudes⟩ :=
      filed.mem_entries free (front.subset inside)
    · exact ⟨message, homes, place, stored⟩
    · exact absurd intrudes (alone message held)

theorem Filed.mem_read
    (filed : Filed kind keyspace)
    (held : Contains keyspace message)
    (intrudes : Intrudes home message)
    {page : List Message}
    (done : read keyspace home ⟨0, none⟩ (keyspace.entries.length + 1) none =
      .ok page) :
    message ∈ page := by
  obtain ⟨_, content, found, stored⟩ := filed.contains held
  obtain ⟨tail, same, above⟩ := intrudes.bytes_eq
  have inside : ((Key.message message.home message.offset).bytes, content) ∈
      entries keyspace home ⟨0, none⟩ :=
    Keyspace.mem_between_iff.2
      ⟨Key.between_window_iff.2 ⟨tail, same, above, by rintro _ ⟨⟩⟩, found⟩
  have short : (entries keyspace home ⟨0, none⟩).length ≤
      keyspace.entries.length + 1 :=
    Nat.le_succ_of_le (List.length_filter_le _ _)
  rw [read_eq_page, if_neg (by simp [Window.isEmpty]), Keyspace.page,
    List.take_of_length_le short] at done
  obtain ⟨other, mem, read⟩ := mem_of_mapM_eq_ok done inside
  rw [Record.toMessage_ofMessage stored] at read
  cases read
  exact mem

end Log

end MessageBroker
