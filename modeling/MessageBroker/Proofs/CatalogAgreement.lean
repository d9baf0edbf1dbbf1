import MessageBroker.Proofs.CatalogRecords
import MessageBroker.Proofs.NameRegistry
import MessageBroker.Proofs.StoredRecords

/-!
# The catalog answers as the registry does

A registry describes a keyspace when each of its entries is stored under the key
of its name, in the form of a document, and nothing else is stored under such
keys.  Then every lookup finds what the registry has, a listing scans exactly
the keys of one kind, in the byte order of names, and creating and deleting come
to the same in both.  So a catalog that starts empty cannot be told from a
registry by any sequence of operations.
-/

namespace MessageBroker.Catalog

/-! ## Entries in a keyspace -/

/-- Where the entries of one kind are stored, and in which form. -/
structure Shelf (entry : Type) where
  /-- What all their keys begin with. -/
  stem : String
  /-- The key of a name. -/
  key : String → Key
  /-- The stored form of an entry. -/
  record : String → entry → Bytes
  /-- The key is the stem and the name. -/
  text_key : ∀ name, (key name).text = stem ++ name
  /-- The name is the only one in the key. -/
  names_key : ∀ name, (key name).names = [name]
  /-- The stem belongs to no other keys. -/
  key_of_stem : ∀ other : Key, Bytes.ofText stem <+: other.bytes →
    ∃ name, other = key name

/-- The records of topics. -/
def topicShelf : Shelf (UInt32 × String) where
  stem := Key.topics
  key := .topicRecord
  record name content := Topic.record ⟨name, content.1, content.2⟩
  text_key _ := rfl
  names_key _ := rfl
  key_of_stem other stemmed := by
    rw [Key.front_iff
      (by decide : Bytes.ofText Key.topics = [0x74, Bytes.colon])] at stemmed
    cases other <;> simp_all [Key.letter]

/-- The records of queues. -/
def queueShelf : Shelf String where
  stem := Key.queues
  key := .queueRecord
  record name creator := Queue.record ⟨name, creator⟩
  text_key _ := rfl
  names_key _ := rfl
  key_of_stem other stemmed := by
    rw [Key.front_iff
      (by decide : Bytes.ofText Key.queues = [0x75, Bytes.colon])] at stemmed
    cases other <;> simp_all [Key.letter]

namespace Shelf

variable {entry : Type} (shelf : Shelf entry)

theorem bytes_key (name : String) :
    (shelf.key name).bytes = Bytes.ofText shelf.stem ++ Bytes.ofText name := by
  rw [Key.bytes, shelf.text_key, Bytes.ofText_append]

theorem key_inj {first second : String} :
    shelf.key first = shelf.key second ↔ first = second := by
  constructor
  · intro same
    have names := congrArg Key.names same
    rw [shelf.names_key, shelf.names_key] at names
    exact (List.cons.inj names).1
  · rintro rfl
    rfl

theorem isPlain_key
    {name : String}
    (free : ':' ∉ name.toList) :
    (shelf.key name).IsPlain :=
  (shelf.key name).isPlain_of_name (shelf.names_key name) free

/-- The name is read back from the key. -/
theorem nameAfter_key (name : String) :
    nameAfter shelf.stem (shelf.key name).bytes = name := by
  rw [nameAfter, bytes_key, List.drop_left, Bytes.toTextLossy,
    Bytes.toText?_ofText, Option.getD_some]

/-- A keyspace holds the entries of a map, each under the key of its name. -/
def Describes (taken : OrderedMap Name entry) (keyspace : Keyspace) : Prop :=
  ∀ name, keyspace.get? (shelf.key name).bytes =
    (taken.get? ⟨name⟩).map (shelf.record name)

variable {shelf} {taken : OrderedMap Name entry} {keyspace : Keyspace}

theorem Describes.empty : shelf.Describes .empty OrderedMap.empty :=
  fun _ => rfl

/-- The entries depend on nothing but the keys of names. -/
theorem Describes.congr
    {after : Keyspace}
    (describes : shelf.Describes taken keyspace)
    (same : ∀ name, after.get? (shelf.key name).bytes =
      keyspace.get? (shelf.key name).bytes) :
    shelf.Describes taken after :=
  fun name => (same name).trans (describes name)

theorem Describes.insert
    (describes : shelf.Describes taken keyspace)
    {name : String}
    (free : ':' ∉ name.toList)
    (content : entry) :
    shelf.Describes (taken.insert ⟨name⟩ content)
      (keyspace.insert (shelf.key name).bytes (shelf.record name content)) := by
  intro other
  rw [Keyspace.get?_insert_key _ (shelf.isPlain_key free),
    OrderedMap.get?_insert]
  simp only [shelf.key_inj, Name.mk.injEq]
  split
  · rename_i same
    rw [same]
    rfl
  · exact describes other

theorem Describes.erase
    (describes : shelf.Describes taken keyspace)
    {name : String}
    (plain : (shelf.key name).IsPlain) :
    shelf.Describes (taken.erase ⟨name⟩)
      (keyspace.erase (shelf.key name).bytes) := by
  intro other
  rw [Keyspace.get?_erase_key _ plain, OrderedMap.get?_erase]
  simp only [shelf.key_inj, Name.mk.injEq]
  split
  · rfl
  · exact describes other

/-- A scan of the stem meets the entries, by name. -/
theorem Describes.withStem_eq
    (describes : shelf.Describes taken keyspace)
    (legible : keyspace.Legible) :
    keyspace.withStem shelf.stem =
      taken.entries.map fun found =>
        ((shelf.key found.1.text).bytes,
          shelf.record found.1.text found.2) := by
  apply OrderedMap.eq_of_mem_iff (Keyspace.withStem_ordered _ _)
  · refine List.pairwise_map.2 (taken.ordered.imp fun less => ?_)
    rw [bytes_key, bytes_key]
    exact (Bytes.append_lt_append_left_iff _ _ _).2 less
  · rintro ⟨place, content⟩
    rw [Keyspace.mem_withStem_iff, List.mem_map]
    constructor
    · rintro ⟨stemmed, found⟩
      rcases legible place content found with ⟨key, _, rfl⟩
      rcases shelf.key_of_stem key stemmed with ⟨name, rfl⟩
      rw [describes name] at found
      rcases Option.map_eq_some_iff.1 found with ⟨held, known, rfl⟩
      exact ⟨(⟨name⟩, held), OrderedMap.mem_entries_iff.2 known, rfl⟩
    · rintro ⟨⟨name, held⟩, inside, same⟩
      cases same
      refine ⟨⟨_, (shelf.bytes_key name.text).symm⟩, ?_⟩
      rw [describes name.text, OrderedMap.mem_entries_iff.1 inside]
      rfl

/-- A listing reads the entries, by name. -/
theorem Describes.mapM_withStem
    {found : Type}
    (describes : shelf.Describes taken keyspace)
    (legible : keyspace.Legible)
    {read : String → Bytes → Option found}
    {shown : String → entry → found}
    (reads : ∀ name content,
      read name (shelf.record name content) = some (shown name content))
    (operation : String) :
    ((keyspace.withStem shelf.stem).mapM fun stored =>
        readable operation (read (nameAfter shelf.stem stored.1) stored.2)) =
      .ok (taken.entries.map fun entry => shown entry.1.text entry.2) := by
  rw [describes.withStem_eq legible]
  induction taken.entries with
  | nil => rfl
  | cons entry rest step =>
      refine mapM_cons_eq_ok_iff.2 ⟨_, _, ?_, step, rfl⟩
      rw [shelf.nameAfter_key, reads]
      rfl

/-- Storing an entry under a free name is taking the name. -/
theorem Describes.claim_eq
    (describes : shelf.Describes taken keyspace)
    (resource name : String)
    (content : entry) :
    claim keyspace resource name (shelf.key name) (shelf.record name content) =
      (take taken resource name content).map fun _ =>
        keyspace.insert (shelf.key name).bytes (shelf.record name content) := by
  unfold claim take
  rw [describes name]
  cases taken.get? ⟨name⟩ <;> rfl

/-- Taking an entry away is giving up the name. -/
theorem Describes.release_eq
    (describes : shelf.Describes taken keyspace)
    (owner : entry → String)
    (name : String)
    (creator : Bytes → Except Error String)
    (reads : ∀ content,
      creator (shelf.record name content) = .ok (owner content))
    (resource user : String) :
    release keyspace resource name user (shelf.key name) creator =
      (giveUp taken resource name user owner).map fun _ =>
        keyspace.erase (shelf.key name).bytes := by
  unfold release giveUp
  rw [describes name]
  cases taken.get? ⟨name⟩ with
  | none => rfl
  | some content =>
      simp only [Option.map_some, reads, ok_bind]
      split <;> rfl

end Shelf

/-! ## The registry and the catalog -/

/-- A registry says which topics and queues a keyspace has records of. -/
structure Registry.Describes
    (registry : Registry)
    (keyspace : Keyspace) :
    Prop where
  legible : keyspace.Legible
  topics : topicShelf.Describes registry.topics keyspace
  queues : queueShelf.Describes registry.queues keyspace

/-- One operation on a keyspace. -/
def serve
    (limits : Limits)
    (keyspace : Keyspace) :
    Operation → Except Error Answer × Keyspace
  | .createTopic topic => settle keyspace (createTopic keyspace limits topic)
  | .topic name => ((topic keyspace name).map .topic, keyspace)
  | .topics => ((topics keyspace).map .topics, keyspace)
  | .deleteTopic name user => settle keyspace (deleteTopic keyspace name user)
  | .createQueue queue => settle keyspace (createQueue keyspace limits queue)
  | .queue name => ((queue keyspace name).map .queue, keyspace)
  | .queues => ((queues keyspace).map .queues, keyspace)
  | .deleteQueue name user => settle keyspace (deleteQueue keyspace name user)

namespace Registry

variable {registry : Registry} {keyspace : Keyspace} {limits : Limits}

theorem Describes.empty : Registry.empty.Describes OrderedMap.empty :=
  ⟨.empty, .empty, .empty⟩

/-- A lookup finds the topic that the registry has. -/
theorem Describes.topic_eq
    (describes : registry.Describes keyspace)
    (name : String) :
    topic keyspace name = lookUp "topic" name (registry.topic? name) := by
  have stored : keyspace.get? (Key.topicRecord name).bytes = _ :=
    describes.topics name
  unfold topic topic?
  rw [stored]
  cases registry.topics.get? ⟨name⟩ with
  | none => rfl
  | some content =>
      show readable _
        (Topic.ofRecord? name (Topic.record ⟨name, content.1, content.2⟩)) = _
      rw [Topic.ofRecord?_record ⟨name, content.1, content.2⟩]
      rfl

theorem Describes.queue_eq
    (describes : registry.Describes keyspace)
    (name : String) :
    queue keyspace name = lookUp "queue" name (registry.queue? name) := by
  have stored : keyspace.get? (Key.queueRecord name).bytes = _ :=
    describes.queues name
  unfold queue queue?
  rw [stored]
  cases registry.queues.get? ⟨name⟩ with
  | none => rfl
  | some creator =>
      show readable _ (Queue.ofRecord? name (Queue.record ⟨name, creator⟩)) = _
      rw [Queue.ofRecord?_record ⟨name, creator⟩]
      rfl

/-- A listing has the topics of the registry, by name. -/
theorem Describes.topics_eq (describes : registry.Describes keyspace) :
    Catalog.topics keyspace = .ok registry.allTopics :=
  describes.topics.mapM_withStem describes.legible
    (fun name content => Topic.ofRecord?_record ⟨name, content.1, content.2⟩)
      "list_topics"

theorem Describes.queues_eq (describes : registry.Describes keyspace) :
    Catalog.queues keyspace = .ok registry.allQueues :=
  describes.queues.mapM_withStem describes.legible
    (fun name creator => Queue.ofRecord?_record ⟨name, creator⟩) "list_queues"

/-- A change of the registry and one of a keyspace come to the same: both are
refused for the same reason, or the registry that follows describes the keyspace
that follows. -/
inductive Alike : Except Error Registry → Except Error Keyspace → Prop where
  /-- Both are done. -/
  | done
      {registry : Registry}
      {keyspace : Keyspace}
      (describes : registry.Describes keyspace) :
      Alike (.ok registry) (.ok keyspace)
  /-- Both are refused. -/
  | refused (fault : Error) : Alike (.error fault) (.error fault)

theorem Alike.settle
    {change : Except Error Registry}
    {stored : Except Error Keyspace}
    (alike : Alike change stored)
    (describes : registry.Describes keyspace) :
    (Catalog.settle keyspace stored).1 = (Catalog.settle registry change).1 ∧
    (Catalog.settle registry change).2.Describes
      (Catalog.settle keyspace stored).2 := by
  cases alike with
  | done described => exact ⟨rfl, described⟩
  | refused fault => exact ⟨rfl, describes⟩

theorem checkPartitions_eq
    (limits : Limits)
    (partitions : UInt32) :
    checkPartitions limits partitions =
      if 1 ≤ partitions ∧ partitions ≤ limits.partitions then .ok ()
      else .error
        (.invalidArgument "partitions" (.outsideCount limits.partitions)) := by
  have same : (partitions = 0 ∨ limits.partitions < partitions) ↔
      ¬ (1 ≤ partitions ∧ partitions ≤ limits.partitions) := by
    have one : (1 : UInt32).toNat = 1 := rfl
    have zero : (0 : UInt32).toNat = 0 := rfl
    rw [UInt32.le_iff_toNat_le, UInt32.le_iff_toNat_le, UInt32.lt_iff_toNat_lt,
      ← UInt32.toNat_inj, one, zero]
    omega
  rw [checkPartitions]
  simp only [same, ite_not]

/-- A record under another kind of key is no topic and no queue. -/
theorem Describes.insert_topic
    (describes : registry.Describes keyspace)
    {name : String}
    (free : ':' ∉ name.toList)
    (content : UInt32 × String) :
    Describes { registry with topics := registry.topics.insert ⟨name⟩ content }
      (keyspace.insert (topicShelf.key name).bytes
        (topicShelf.record name content)) where
  legible := describes.legible.insert (topicShelf.isPlain_key free) _
  topics := describes.topics.insert free content
  queues := describes.queues.congr fun other => by
    rw [Keyspace.get?_insert_key _ (topicShelf.isPlain_key free), if_neg nofun]

theorem Describes.insert_queue
    (describes : registry.Describes keyspace)
    {name : String}
    (free : ':' ∉ name.toList)
    (creator : String) :
    Describes { registry with queues := registry.queues.insert ⟨name⟩ creator }
      (keyspace.insert (queueShelf.key name).bytes
        (queueShelf.record name creator)) where
  legible := describes.legible.insert (queueShelf.isPlain_key free) _
  topics := describes.topics.congr fun other => by
    rw [Keyspace.get?_insert_key _ (queueShelf.isPlain_key free), if_neg nofun]
  queues := describes.queues.insert free creator

theorem Describes.erase_topic
    (describes : registry.Describes keyspace)
    {name : String}
    (plain : (topicShelf.key name).IsPlain) :
    Describes { registry with topics := registry.topics.erase ⟨name⟩ }
      (keyspace.erase (topicShelf.key name).bytes) where
  legible := describes.legible.erase _
  topics := describes.topics.erase plain
  queues := describes.queues.congr fun other => by
    rw [Keyspace.get?_erase_key _ plain, if_neg nofun]

theorem Describes.erase_queue
    (describes : registry.Describes keyspace)
    {name : String}
    (plain : (queueShelf.key name).IsPlain) :
    Describes { registry with queues := registry.queues.erase ⟨name⟩ }
      (keyspace.erase (queueShelf.key name).bytes) where
  legible := describes.legible.erase _
  topics := describes.topics.congr fun other => by
    rw [Keyspace.get?_erase_key _ plain, if_neg nofun]
  queues := describes.queues.erase plain

/-- Creating a topic comes to the same. -/
theorem Describes.createTopic
    (describes : registry.Describes keyspace)
    (limits : Limits)
    (topic : Topic) :
    Alike (registry.createTopic limits topic)
      (Catalog.createTopic keyspace limits topic) := by
  have stored :
      claim keyspace "topic" topic.name (.topicRecord topic.name) topic.record =
        _ :=
    describes.topics.claim_eq "topic" topic.name
      (topic.partitions, topic.creator)
  unfold Registry.createTopic Catalog.createTopic
  cases named : limits.checkName "topic" topic.name with
  | error fault => exact .refused fault
  | ok _ =>
      rw [ok_bind, ok_bind, checkPartitions_eq]
      split
      · rw [ok_bind, stored]
        cases taken : take registry.topics "topic" topic.name
            (topic.partitions, topic.creator) with
        | error fault => exact .refused fault
        | ok topics =>
            rcases take_eq_ok taken with ⟨_, rfl⟩
            exact .done
              (describes.insert_topic (Limits.colon_not_mem_of_checkName named)
                _)
      · exact .refused _

/-- Creating a queue comes to the same. -/
theorem Describes.createQueue
    (describes : registry.Describes keyspace)
    (limits : Limits)
    (queue : Queue) :
    Alike (registry.createQueue limits queue)
      (Catalog.createQueue keyspace limits queue) := by
  have stored :
      claim keyspace "queue" queue.name (.queueRecord queue.name) queue.record =
        _ :=
    describes.queues.claim_eq "queue" queue.name queue.creator
  unfold Registry.createQueue Catalog.createQueue
  cases named : limits.checkName "queue" queue.name with
  | error fault => exact .refused fault
  | ok _ =>
      rw [ok_bind, ok_bind, stored]
      cases taken : take registry.queues "queue" queue.name queue.creator with
      | error fault => exact .refused fault
      | ok queues =>
          rcases take_eq_ok taken with ⟨_, rfl⟩
          exact .done
            (describes.insert_queue (Limits.colon_not_mem_of_checkName named) _)

/-- Deleting a topic comes to the same. -/
theorem Describes.deleteTopic
    (describes : registry.Describes keyspace)
    (name user : String) :
    Alike (registry.deleteTopic name user)
      (Catalog.deleteTopic keyspace name user) := by
  have reads : ∀ content : UInt32 × String,
      (readable "delete_topic"
            (Topic.ofRecord? name (topicShelf.record name content))).map
          (·.creator) =
        .ok content.2 := by
    intro content
    have read := Topic.ofRecord?_record ⟨name, content.1, content.2⟩
    rw [topicShelf, read]
    rfl
  have stored := describes.topics.release_eq Prod.snd name
    (fun record => (readable "delete_topic" (Topic.ofRecord? name record)).map
      (·.creator)) reads
    "topic" user
  change Alike _ (release keyspace "topic" name user (topicShelf.key name) _)
  rw [stored, Registry.deleteTopic]
  cases given : giveUp registry.topics "topic" name user Prod.snd with
  | error fault => exact .refused fault
  | ok topics =>
      rcases giveUp_eq_ok given with ⟨⟨content, held, _⟩, rfl⟩
      have found := (describes.topics name).trans (congrArg _ held)
      exact .done (describes.erase_topic (describes.legible.isPlain found))

/-- Deleting a queue comes to the same. -/
theorem Describes.deleteQueue
    (describes : registry.Describes keyspace)
    (name user : String) :
    Alike (registry.deleteQueue name user)
      (Catalog.deleteQueue keyspace name user) := by
  have reads : ∀ creator : String,
      (readable "delete_queue"
            (Queue.ofRecord? name (queueShelf.record name creator))).map
          (·.creator) =
        .ok (id creator) := by
    intro creator
    have read := Queue.ofRecord?_record ⟨name, creator⟩
    rw [queueShelf, read]
    rfl
  have stored := describes.queues.release_eq id name
    (fun record => (readable "delete_queue" (Queue.ofRecord? name record)).map
      (·.creator)) reads
    "queue" user
  change Alike _ (release keyspace "queue" name user (queueShelf.key name) _)
  rw [stored, Registry.deleteQueue]
  cases given : giveUp registry.queues "queue" name user id with
  | error fault => exact .refused fault
  | ok queues =>
      rcases giveUp_eq_ok given with ⟨⟨creator, held, _⟩, rfl⟩
      have found := (describes.queues name).trans (congrArg _ held)
      exact .done (describes.erase_queue (describes.legible.isPlain found))

theorem lookUp_eq_ok_iff
    {content : Type}
    {resource name : String}
    {known : Option content}
    {found : content} :
    lookUp resource name known = .ok found ↔ known = some found := by
  cases known <;> simp [lookUp]

/-! ## Whole runs -/

/-- Every operation is answered as the registry answers it. -/
theorem Describes.serve
    (describes : registry.Describes keyspace)
    (limits : Limits)
    (operation : Operation) :
    (Catalog.serve limits keyspace operation).1 =
      (registry.perform limits operation).1 ∧
    (registry.perform limits operation).2.Describes
      (Catalog.serve limits keyspace operation).2 := by
  cases operation with
  | createTopic topic =>
      exact (describes.createTopic limits topic).settle describes
  | createQueue queue =>
      exact (describes.createQueue limits queue).settle describes
  | deleteTopic name user =>
      exact (describes.deleteTopic name user).settle describes
  | deleteQueue name user =>
      exact (describes.deleteQueue name user).settle describes
  | topic name =>
      exact ⟨congrArg (Except.map Answer.topic) (describes.topic_eq name),
        describes⟩
  | queue name =>
      exact ⟨congrArg (Except.map Answer.queue) (describes.queue_eq name),
        describes⟩
  | topics =>
      exact ⟨congrArg (Except.map Answer.topics) describes.topics_eq, describes⟩
  | queues =>
      exact ⟨congrArg (Except.map Answer.queues) describes.queues_eq, describes⟩

/-- A whole run is answered as the registry answers it. -/
theorem Describes.answers
    (describes : registry.Describes keyspace)
    (limits : Limits)
    (operations : List Operation) :
    (Catalog.answers (Catalog.serve limits) keyspace operations).1 =
      (Catalog.answers (perform limits) registry operations).1 ∧
    (Catalog.answers (perform limits) registry operations).2.Describes
      (Catalog.answers (Catalog.serve limits) keyspace operations).2 := by
  induction operations generalizing registry keyspace with
  | nil => exact ⟨rfl, describes⟩
  | cons operation rest step =>
      rcases describes.serve limits operation with ⟨answer, described⟩
      rcases step described with ⟨later, finish⟩
      exact ⟨congrArg₂ List.cons answer later, finish⟩

/-- A topic stays as it is until its creator deletes it. -/
theorem Describes.topic_serve
    (describes : registry.Describes keyspace)
    {operation : Operation}
    {name : String}
    {found : Topic}
    (known : topic keyspace name = .ok found)
    (kept : operation ≠ .deleteTopic name found.creator) :
    topic (Catalog.serve limits keyspace operation).2 name = .ok found := by
  rw [describes.topic_eq, lookUp_eq_ok_iff] at known
  rw [(describes.serve limits operation).2.topic_eq, lookUp_eq_ok_iff]
  rcases Option.map_eq_some_iff.1 known with ⟨content, held, rfl⟩
  have still := (moves_perform limits registry operation).topics.keeps held kept
  exact Option.map_eq_some_iff.2 ⟨content, still, rfl⟩

end Registry

theorem snd_settle_of_error
    {state : Type}
    {before : state}
    {result : Except Error state}
    {fault : Error}
    (refused : (settle before result).1 = .error fault) :
    (settle before result).2 = before := by
  cases result with
  | error => rfl
  | ok => cases refused

/-- An operation that fails changes nothing. -/
theorem snd_serve_of_error
    {limits : Limits}
    {keyspace : Keyspace}
    {operation : Operation}
    {fault : Error}
    (refused : (serve limits keyspace operation).1 = .error fault) :
    (serve limits keyspace operation).2 = keyspace := by
  cases operation with
  | createTopic => exact snd_settle_of_error refused
  | createQueue => exact snd_settle_of_error refused
  | deleteTopic => exact snd_settle_of_error refused
  | deleteQueue => exact snd_settle_of_error refused
  | topic => rfl
  | queue => rfl
  | topics => rfl
  | queues => rfl

/-- A catalog that starts empty answers any operations as two maps of names do,
one for topics and one for queues.  Listings are in the byte order of names.
Operations that fail change nothing, an entry stays as it is until its creator
deletes it, and operations on topics and on queues do not touch each other. -/
theorem refines_registry
    (limits : Limits)
    (operations : List Operation) :
    let keyspace : Keyspace :=
      (answers (serve limits) OrderedMap.empty operations).2
    let registry := (answers (Registry.perform limits) .empty operations).2
    (answers (serve limits) OrderedMap.empty operations).1 =
      (answers (Registry.perform limits) .empty operations).1 ∧
    (topics keyspace = .ok registry.allTopics ∧
      registry.allTopics.Pairwise fun earlier later =>
        Bytes.ofText earlier.name < Bytes.ofText later.name) ∧
    (queues keyspace = .ok registry.allQueues ∧
      registry.allQueues.Pairwise fun earlier later =>
        Bytes.ofText earlier.name < Bytes.ofText later.name) ∧
    (∀ operation fault, (serve limits keyspace operation).1 = .error fault →
      (serve limits keyspace operation).2 = keyspace) ∧
    (∀ name found later, topic keyspace name = .ok found →
      Operation.deleteTopic name found.creator ∉ later →
        topic (answers (serve limits) keyspace later).2 name = .ok found) ∧
    (∀ name found later, queue keyspace name = .ok found →
      Operation.deleteQueue name found.creator ∉ later →
        queue (answers (serve limits) keyspace later).2 name = .ok found) ∧
    (∀ operation, operation.isOfTopics = true →
      queues (serve limits keyspace operation).2 = queues keyspace ∧
        ∀ name, queue (serve limits keyspace operation).2 name =
          queue keyspace name) ∧
    ∀ operation, operation.isOfTopics = false →
      topics (serve limits keyspace operation).2 = topics keyspace ∧
        ∀ name, topic (serve limits keyspace operation).2 name =
            topic keyspace name := by
  intro keyspace registry
  rcases Registry.Describes.empty.answers limits operations with
    ⟨same, describes⟩
  change registry.Describes keyspace at describes
  refine ⟨same, ⟨describes.topics_eq, registry.allTopics_ordered⟩,
    ⟨describes.queues_eq, registry.allQueues_ordered⟩, fun operation fault =>
      snd_serve_of_error,
    ?_, ?_, ?_, ?_⟩
  · intro name found later held kept
    rw [describes.topic_eq, Registry.lookUp_eq_ok_iff] at held
    rw [(describes.answers limits later).2.topic_eq, Registry.lookUp_eq_ok_iff]
    exact Registry.topic?_answers held kept
  · intro name found later held kept
    rw [describes.queue_eq, Registry.lookUp_eq_ok_iff] at held
    rw [(describes.answers limits later).2.queue_eq, Registry.lookUp_eq_ok_iff]
    exact Registry.queue?_answers held kept
  · intro operation ofTopics
    have after := (describes.serve limits operation).2
    have kept :=
      (Registry.moves_perform limits registry operation).queues_eq ofTopics
    refine ⟨?_, fun name => ?_⟩
    · rw [after.queues_eq, describes.queues_eq, Registry.allQueues, kept,
        Registry.allQueues]
    · rw [after.queue_eq, describes.queue_eq, Registry.queue?, kept,
        Registry.queue?]
  · intro operation ofQueues
    have after := (describes.serve limits operation).2
    have kept :=
      (Registry.moves_perform limits registry operation).topics_eq ofQueues
    refine ⟨?_, fun name => ?_⟩
    · rw [after.topics_eq, describes.topics_eq, Registry.allTopics, kept,
        Registry.allTopics]
    · rw [after.topic_eq, describes.topic_eq, Registry.topic?, kept,
        Registry.topic?]

end MessageBroker.Catalog
