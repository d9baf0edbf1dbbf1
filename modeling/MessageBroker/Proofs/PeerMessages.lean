import MessageBroker.Broker
import MessageBroker.Proofs.CatalogRecords
import MessageBroker.Proofs.Intruders

/-!
# What other nodes send

Topics are created under acceptable names, and what is published goes to topics
of the catalog, so nothing that a node does on its own holds a colon where it
could matter.  What other nodes send is stored as it comes, under whatever topic
it says.  A node keeps every message under its own key nevertheless; so the
reads of a partition give its own messages exactly as long as none of the
messages that were sent intrudes on it.
-/

namespace MessageBroker

/-- Every message is under its own key, no topic's name holds a colon, and the
positions of groups are counters. -/
structure Tidy (kind : Message → Prop) (keyspace : Keyspace) : Prop where
  filed : Log.Filed kind keyspace
  named : ∀ name, (keyspace.get? (Key.topicRecord name).bytes).isSome →
    ':' ∉ name.toList
  positioned : ∀ group home value,
    keyspace.get? (Key.cursor group home).bytes = some value →
    ∃ count, value = Record.ofCounter count

namespace Tidy

variable {kind : Message → Prop} {keyspace : Keyspace} {store after : Store}

theorem empty : Tidy kind .empty where
  filed := by
    intro place content found
    cases found
  named := by
    intro name found
    cases found
  positioned := by
    intro group home value found
    cases found

theorem insert
    (tidy : Tidy kind keyspace)
    {place value : Bytes}
    (message : Bytes.ofText Key.messages <+: place →
      ∃ message, kind message ∧
        place = (Key.message message.home message.offset).bytes ∧
        Record.ofMessage message = .ok value)
    (topic : ∀ name, place = (Key.topicRecord name).bytes → ':' ∉ name.toList)
    (cursor : ∀ group home, place = (Key.cursor group home).bytes →
      ∃ count, value = Record.ofCounter count) :
    Tidy kind (keyspace.insert place value) where
  filed := by
    intro other content found stemmed
    rw [OrderedMap.get?_insert] at found
    split at found
    · rename_i same
      subst same
      cases found
      exact message stemmed
    · exact tidy.filed other content found stemmed
  named := by
    intro name found
    rw [OrderedMap.get?_insert] at found
    split at found
    · rename_i same
      exact topic name same.symm
    · exact tidy.named name found
  positioned := by
    intro group home content found
    rw [OrderedMap.get?_insert] at found
    split at found
    · rename_i same
      cases found
      exact cursor group home same.symm
    · exact tidy.positioned group home content found

theorem erase
    (tidy : Tidy kind keyspace)
    (place : Bytes) :
    Tidy kind (keyspace.erase place) where
  filed := by
    intro other content found stemmed
    rw [OrderedMap.get?_erase] at found
    split at found
    · cases found
    · exact tidy.filed other content found stemmed
  named := by
    intro name found
    rw [OrderedMap.get?_erase] at found
    split at found
    · cases found
    · exact tidy.named name found
  positioned := by
    intro group home content found
    rw [OrderedMap.get?_erase] at found
    split at found
    · cases found
    · exact tidy.positioned group home content found

theorem insert_message
    (tidy : Tidy kind keyspace)
    {message : Message}
    {value : Bytes}
    (kinds : kind message)
    (stored : Record.ofMessage message = .ok value) :
    Tidy kind
      (keyspace.insert (Key.message message.home message.offset).bytes
        value) := by
  apply tidy.insert
  · exact fun _ => ⟨message, kinds, rfl, stored⟩
  · intro name same
    exact absurd (Key.letter_eq_of_bytes same) (by simp [Key.letter])
  · intro group home same
    exact absurd (Key.letter_eq_of_bytes same) (by simp [Key.letter])

/-- Counters are neither messages nor topics. -/
theorem setCounter
    (tidy : Tidy kind keyspace)
    {key : Key}
    (count : UInt64)
    (notMessage : key.letter ≠ 0x6d)
    (notTopic : key.letter ≠ 0x74) :
    Tidy kind (keyspace.setCounter key count) := by
  apply tidy.insert
  · intro stemmed
    have front : Bytes.ofText Key.messages = [0x6d, Bytes.colon] := by decide
    exact absurd ((Key.front_iff front).1 stemmed) notMessage
  · intro name same
    exact absurd (Key.letter_eq_of_bytes same) notTopic
  · exact fun _ _ _ => ⟨count, rfl⟩

theorem setNextOffset
    (tidy : Tidy kind keyspace)
    (home : PartitionKey)
    (next : Offset) :
    Tidy kind (keyspace.setCounter (.nextOffset home) next) :=
  tidy.setCounter next (by simp [Key.letter]) (by simp [Key.letter])

/-! ## Storing messages -/

theorem place
    (tidy : Tidy kind store.keyspace)
    {message : Message}
    {outcome : Log.Outcome}
    (kinds : ∀ fresh, kind (message.identified fresh))
    (done : store.place message = .ok (outcome, after)) :
    Tidy kind after.keyspace := by
  obtain ⟨placed, inner, _, same, _⟩ := Store.place_eq_ok_iff.1 done
  obtain ⟨value, _, stored, _, _, _, written⟩ := Log.place_eq_ok_iff.1 inner
  have filled : Tidy kind
      (store.keyspace.fill (Key.message message.home message.offset).bytes
        value) := by
    unfold OrderedMap.fill
    split
    · exact tidy
    · rw [← Message.identified_home message store.ids.upcoming,
        ← Message.identified_offset message store.ids.upcoming]
      exact tidy.insert_message (kinds _) stored
  rw [same, written, Log.written]
  split
  · exact filled.setNextOffset _ _
  · exact filled

theorem append
    (tidy : Tidy kind store.keyspace)
    {message stored : Message}
    (kinds : ∀ fresh offset, kind ((message.identified fresh).moved offset))
    (done : store.append message = .ok (stored, after)) :
    Tidy kind after.keyspace := by
  obtain ⟨appended, inner, done⟩ := bind_eq_ok_iff.1 done
  cases done
  unfold Log.append at inner
  obtain ⟨offset, _, inner⟩ := bind_eq_ok_iff.1 inner
  obtain ⟨next, _, inner⟩ := bind_eq_ok_iff.1 inner
  obtain ⟨value, stored, inner⟩ := bind_eq_ok_iff.1 inner
  cases inner
  exact (tidy.insert_message (kinds _ offset) stored).setNextOffset _ _

theorem placeAll
    {batch : List Message}
    (tidy : Tidy kind store.keyspace)
    (kinds : ∀ message ∈ batch, ∀ fresh, kind (message.identified fresh))
    (tally : Tally) :
    Tidy kind (store.placeAll tally batch).2.keyspace := by
  induction batch generalizing store tally with
  | nil => exact tidy
  | cons message rest step =>
      unfold Store.placeAll
      split
      · rename_i outcome next done
        exact step (tidy.place (kinds message List.mem_cons_self) done)
          (fun other inside => kinds other (List.mem_cons_of_mem _ inside)) _
      · exact tidy

/-! ## Topics -/

theorem createTopic
    (tidy : Tidy kind keyspace)
    {limits : Limits}
    {topic : Catalog.Topic}
    {changed : Keyspace}
    (done : Catalog.createTopic keyspace limits topic = .ok changed) :
    Tidy kind changed := by
  obtain ⟨⟨⟩, named, done⟩ := bind_eq_ok_iff.1 done
  obtain ⟨⟨⟩, _, done⟩ := bind_eq_ok_iff.1 done
  rw [Catalog.claim_eq_ok done]
  apply tidy.insert
  · intro stemmed
    have front : Bytes.ofText Key.messages = [0x6d, Bytes.colon] := by decide
    exact absurd ((Key.front_iff front).1 stemmed) (by simp [Key.letter])
  · intro name same
    have names : Bytes.ofText topic.name = Bytes.ofText name :=
      Key.joined_parts_of_bytes same
    rw [← Bytes.ofText_injective names]
    exact Limits.colon_not_mem_of_checkName named
  · intro group home same
    exact absurd (Key.letter_eq_of_bytes same) (by simp [Key.letter])

theorem deleteTopic
    (tidy : Tidy kind keyspace)
    {name user : String}
    {changed : Keyspace}
    (done : Catalog.deleteTopic keyspace name user = .ok changed) :
    Tidy kind changed := by
  obtain ⟨_, _, rfl⟩ := Catalog.release_eq_ok done
  exact tidy.erase _

theorem colon_not_mem
    (tidy : Tidy kind keyspace)
    {name : String}
    {count : UInt32}
    (known : Catalog.partitionCount keyspace name = .ok count) :
    ':' ∉ name.toList := by
  obtain ⟨record, held⟩ := Catalog.exists_of_partitionCount known
  exact tidy.named name (by rw [held]; rfl)

theorem position_succeeds
    (tidy : Tidy kind keyspace)
    (group : String)
    (home : PartitionKey) :
    ∃ position, Cursor.position? keyspace group home = .ok position := by
  unfold Cursor.position? Keyspace.counter?
  cases found : keyspace.get? (Key.cursor group home).bytes with
  | none => exact ⟨none, rfl⟩
  | some value =>
      obtain ⟨count, rfl⟩ := tidy.positioned group home value found
      dsimp only
      rw [Record.toCounter_ofCounter]
      exact ⟨some count, rfl⟩

end Tidy

/-! ## Calls -/

/-- What a node is asked to do. -/
inductive Call where
  /-- Create a topic. -/
  | createTopic (topic : Catalog.Topic)
  /-- Delete a topic. -/
  | deleteTopic (name user : String)
  /-- Publish to a topic of the catalog. -/
  | publish (post : Broker.Post)
  /-- Set a group's position. -/
  | commit (group : String) (home : PartitionKey) (offset : Offset)
  /-- What another node asks. -/
  | request (request : Request)

namespace Call

/-- The messages that come from another node. -/
def sent : Call → List Message
  | .request (.replicate batch) => batch
  | _ => []

/-- The store after a call; one that fails leaves what it had done so far. -/
def perform (limits : Limits) (store : Store) : Call → Store
  | .createTopic topic =>
      match Catalog.createTopic store.keyspace limits topic with
      | .ok keyspace => { store with keyspace := keyspace }
      | .error _ => store
  | .deleteTopic name user =>
      match Catalog.deleteTopic store.keyspace name user with
      | .ok keyspace => { store with keyspace := keyspace }
      | .error _ => store
  | .publish post =>
      match Broker.accept limits store post with
      | .ok (_, store) => store
      | .error _ => store
  | .commit group home offset =>
      match Broker.commit limits store.keyspace group home offset with
      | .ok keyspace => { store with keyspace := keyspace }
      | .error _ => store
  | .request asked => (Replica.handle limits store asked).2

/-- The store after calls, first one first. -/
def run (limits : Limits) (store : Store) (calls : List Call) : Store :=
  calls.foldl (perform limits) store

/-- A message that a node may come to hold: of a topic without colons, or sent
by another node. -/
def Expected (sent : List Message) (message : Message) : Prop :=
  ':' ∉ message.topic.toList ∨ Store.Named sent message

variable {limits : Limits} {store : Store} {batch : List Message}

theorem tidy_perform
    (tidy : Tidy (Expected batch) store.keyspace)
    {call : Call}
    (part : ∀ message ∈ call.sent, message ∈ batch) :
    Tidy (Expected batch) (call.perform limits store).keyspace := by
  cases call with
  | createTopic topic =>
      unfold perform
      dsimp only
      split
      · rename_i keyspace done
        exact tidy.createTopic done
      · exact tidy
  | deleteTopic name user =>
      unfold perform
      dsimp only
      split
      · rename_i keyspace done
        exact tidy.deleteTopic done
      · exact tidy
  | publish post =>
      unfold perform
      dsimp only
      split
      · rename_i message after done
        obtain ⟨count, known, done⟩ := bind_eq_ok_iff.1 done
        obtain ⟨⟨⟩, _, done⟩ := bind_eq_ok_iff.1 done
        refine tidy.append (fun fresh offset => .inl ?_) done
        have homes :=
          Message.identified_home (post.message (.ofKey post.key count)) fresh
        have topics :
            ((post.message (.ofKey post.key count)).identified fresh).topic =
              post.topic :=
          congrArg PartitionKey.topic homes
        rw [Message.moved, topics]
        exact tidy.colon_not_mem known
      · exact tidy
  | commit group home offset =>
      unfold perform
      dsimp only
      split
      · rename_i keyspace done
        obtain ⟨⟨⟩, _, done⟩ := bind_eq_ok_iff.1 done
        obtain ⟨⟨⟩, _, done⟩ := bind_eq_ok_iff.1 done
        cases done
        exact tidy.setCounter offset (by simp [Key.letter])
          (by simp [Key.letter])
      · exact tidy
  | request asked =>
      cases asked with
      | replicate messages =>
          simp only [perform, Replica.handle, Replica.replicate]
          split
          · exact tidy
          · exact tidy.placeAll
              (fun message inside fresh =>
                .inr ⟨message, part message inside, fresh, rfl⟩) {}
      | range home window => exact tidy
      | ping => exact tidy

theorem tidy_run
    (tidy : Tidy (Expected batch) store.keyspace)
    {calls : List Call}
    (part : ∀ call ∈ calls, ∀ message ∈ call.sent, message ∈ batch) :
    Tidy (Expected batch) (run limits store calls).keyspace := by
  induction calls generalizing store with
  | nil => exact tidy
  | cons call rest step =>
      exact step (tidy_perform tidy (part call List.mem_cons_self))
        fun other inside => part other (List.mem_cons_of_mem _ inside)

/-! ## Whose messages are read -/

/-- However a partition is read, its own messages come, in offset order. -/
structure ReadsOwn (keyspace : Keyspace) (home : PartitionKey) : Prop where
  read : ∀ window most budget, ∃ page,
    Log.read keyspace home window most budget = .ok page ∧ Log.Own home page
  range : ∀ limits window, ∃ page,
    Replica.range limits keyspace home window = .ok page ∧ Log.Own home page
  pull : ∀ group most, Broker.checkPartition keyspace home = .ok () → ∃ page,
    Broker.pull keyspace group home most = .ok page ∧ Log.Own home page

theorem ReadsOwn.of_read
    {keyspace : Keyspace}
    {home : PartitionKey}
    (positions : ∀ group, ∃ position,
      Cursor.position? keyspace group home = .ok position)
    (read : ∀ window most budget, ∃ page,
      Log.read keyspace home window most budget = .ok page ∧
      Log.Own home page) :
    ReadsOwn keyspace home where
  read := read
  range limits window := read window _ _
  pull := by
    intro group most known
    obtain ⟨position, set⟩ := positions group
    obtain ⟨page, done, owns⟩ := read ⟨position.getD 0, none⟩ most none
    refine ⟨page, ?_, owns⟩
    rw [Broker.pull, known, ok_bind, set, ok_bind, done]

/-- After any calls, the reads of a partition of an acceptable topic give its
own messages exactly when no stored message intrudes on it; and one that does
was sent by another node. -/
theorem reads_own_iff
    (limits : Limits)
    (ids : IdSource)
    (calls : List Call)
    {home : PartitionKey}
    (named : limits.checkName "topic" home.topic = .ok ()) :
    let keyspace := (run limits (.empty ids) calls).keyspace
    (ReadsOwn keyspace home ↔
      ∀ message, Log.Contains keyspace message → ¬ Log.Intrudes home message) ∧
    ∀ message, Log.Contains keyspace message → Log.Intrudes home message →
      Store.Named (calls.flatMap sent) message := by
  intro keyspace
  have free := Limits.colon_not_mem_of_checkName named
  have tidy : Tidy (Expected (calls.flatMap sent)) keyspace :=
    tidy_run .empty fun call inside message carried =>
      List.mem_flatMap.2 ⟨call, inside, carried⟩
  refine ⟨⟨fun own message held intrudes => ?_, fun alone => ?_⟩,
    fun message held intrudes => ?_⟩
  · obtain ⟨page, done, owns⟩ :=
      own.read ⟨0, none⟩ (keyspace.entries.length + 1) none
    exact intrudes.home_ne
      (owns.home message (tidy.filed.mem_read held intrudes done))
  · exact .of_read (tidy.position_succeeds · home)
      (tidy.filed.read_own free alone)
  · rcases (tidy.filed.contains held).1 with plain | named
    · exact absurd intrudes (Log.not_intrudes plain)
    · exact named

/-! ## A neighbour and an intruder -/

/-- A message that another node sends. -/
def visitor (topic : String) : Message :=
  { id := (FreshId.numbered 1 0).id, topic := topic, offset :=
    7, payload := [1] }

/-- What a node with one topic holds after a message was sent to it. -/
def visited (topic : String) : Keyspace :=
  (run {} (.empty (.series 0))
    [.createTopic ⟨"t", 1, "u"⟩,
      .request (.replicate [visitor topic])]).keyspace

/-- A topic whose name goes on behind "t" has its own messages. -/
theorem reads_own_iff_neighbour :
    ({} : Limits).checkName "topic" "t" = .ok () ∧
    ReadsOwn (visited "t2") ⟨"t", 0⟩ := by
  have named : ({} : Limits).checkName "topic" (PartitionKey.mk "t" 0).topic =
      .ok () :=
    rfl
  obtain ⟨own, sender⟩ := reads_own_iff {} (.series 0)
    [.createTopic ⟨"t", 1, "u"⟩, .request (.replicate [visitor "t2"])] named
  refine ⟨named, own.2 fun message held intrudes => ?_⟩
  obtain ⟨original, inside, fresh, rfl⟩ := sender message held intrudes
  have same : original = visitor "t2" := by simpa [sent] using inside
  have own : original.id ≠ .nil := by
    rw [same]
    exact (FreshId.numbered 1 0).ne_nil
  rw [Message.identified_eq_self own, same] at intrudes
  exact Log.not_intrudes (by decide) intrudes

/-- A topic that begins with a partition's stem is read with that partition. -/
theorem visitor_is_read :
    ({} : Limits).checkName "topic" "t" = .ok () ∧
    (visitor "t:0000000000").home ≠ ⟨"t", 0⟩ ∧
    Log.read (visited "t:0000000000") ⟨"t", 0⟩ ⟨0, none⟩ 10 =
      .ok [visitor "t:0000000000"] ∧
    Broker.pull (visited "t:0000000000") "g" ⟨"t", 0⟩ 10 =
      .ok [visitor "t:0000000000"] ∧
    Replica.range {} (visited "t:0000000000") ⟨"t", 0⟩ ⟨0, none⟩ =
      .ok [visitor "t:0000000000"] := by
  refine ⟨rfl,
    by decide, eq_ok_of_toOption ?_, eq_ok_of_toOption ?_, eq_ok_of_toOption ?_⟩
  · decide +kernel
  · decide +kernel
  · decide +kernel

end Call

end MessageBroker
