import MessageBroker.Catalog
import MessageBroker.Proofs.Attempts

/-!
# A registry of names

The registry keeps two maps and nothing else: one from the names of topics to
their partition counts and creators, one from the names of queues to their
creators.  It knows no keys and no documents.  A name is taken once, and it
stays taken until the user who took it gives it up.

Names are ordered by their bytes, and so are the listings.
-/

namespace MessageBroker.Catalog

/-! ## Maps of names -/

/-- A name, in the order of its bytes. -/
structure Name where
  /-- The name as a text. -/
  text : String
  deriving DecidableEq

namespace Name

/-- The bytes of a name. -/
def bytes (name : Name) : Bytes :=
  Bytes.ofText name.text

instance : LT Name :=
  ⟨fun first second => first.bytes < second.bytes⟩

instance : DecidableLT Name :=
  fun first second => inferInstanceAs (Decidable (first.bytes < second.bytes))

instance : StrictOrder Name where
  irrefl name := List.lt_irrefl name.bytes
  trans := List.lt_trans
  trichotomy first second := by
    rcases Bytes.lt_trichotomy first.bytes second.bytes with less | same | more
    · exact .inl less
    · refine .inr (.inl ?_)
      cases first
      exact congrArg Name.mk (Bytes.ofText_injective same)
    · exact .inr (.inr more)

end Name

variable {entry state other : Type}

/-- Take a name that must be free. -/
def take
    (taken : OrderedMap Name entry)
    (resource name : String)
    (content : entry) :
    Except Error (OrderedMap Name entry) :=
  match taken.get? ⟨name⟩ with
  | some _ => .error (.alreadyExists resource name)
  | none => .ok (taken.insert ⟨name⟩ content)

/-- Give up a name, for the user who took it. -/
def giveUp
    (taken : OrderedMap Name entry)
    (resource name user : String)
    (creator : entry → String) :
    Except Error (OrderedMap Name entry) :=
  match taken.get? ⟨name⟩ with
  | none => .error (.notFound resource name)
  | some content =>
      if creator content = user then .ok (taken.erase ⟨name⟩)
      else .error (.unauthorized resource name user)

/-! ## Operations -/

/-- What a catalog is asked to do. -/
inductive Operation where
  /-- Create a topic. -/
  | createTopic (topic : Topic)
  /-- Look a topic up. -/
  | topic (name : String)
  /-- List all topics. -/
  | topics
  /-- Delete a topic, as a user. -/
  | deleteTopic (name user : String)
  /-- Create a queue. -/
  | createQueue (queue : Queue)
  /-- Look a queue up. -/
  | queue (name : String)
  /-- List all queues. -/
  | queues
  /-- Delete a queue, as a user. -/
  | deleteQueue (name user : String)
  deriving DecidableEq

/-- Whether an operation is about topics. -/
def Operation.isOfTopics : Operation → Bool
  | .createTopic _ | .topic _ | .topics | .deleteTopic _ _ => true
  | .createQueue _ | .queue _ | .queues | .deleteQueue _ _ => false

/-- What a catalog answers. -/
inductive Answer where
  /-- It is done. -/
  | done
  /-- The topic that was looked up. -/
  | topic (found : Topic)
  /-- All topics. -/
  | topics (found : List Topic)
  /-- The queue that was looked up. -/
  | queue (found : Queue)
  /-- All queues. -/
  | queues (found : List Queue)

/-- What a change that may fail answers and leaves; one that fails leaves what
was there. -/
def settle (before : state) : Except Error state → Except Error Answer × state
  | .ok after => (.ok .done, after)
  | .error fault => (.error fault, before)

/-- The answers to operations in turn, and what they leave. -/
def answers
    (serve : state → Operation → Except Error Answer × state)
    (start : state) :
    List Operation → List (Except Error Answer) × state
  | [] => ([], start)
  | operation :: rest =>
      let (answer, next) := serve start operation
      let (later, finish) := answers serve next rest
      (answer :: later, finish)

/-! ## The registry -/

/-- Topics by name, each with its partition count and its creator, and queues by
name, each with its creator. -/
structure Registry where
  /-- The topics. -/
  topics : OrderedMap Name (UInt32 × String)
  /-- The queues. -/
  queues : OrderedMap Name String

namespace Registry

/-- The registry without names. -/
def empty : Registry :=
  ⟨.empty, .empty⟩

/-- The topic of that name. -/
def topic? (registry : Registry) (name : String) : Option Topic :=
  (registry.topics.get? ⟨name⟩).map fun content => ⟨name, content.1, content.2⟩

/-- The queue of that name. -/
def queue? (registry : Registry) (name : String) : Option Queue :=
  (registry.queues.get? ⟨name⟩).map fun creator => ⟨name, creator⟩

/-- All topics, by name. -/
def allTopics (registry : Registry) : List Topic :=
  registry.topics.entries.map fun entry => ⟨entry.1.text, entry.2.1, entry.2.2⟩

/-- All queues, by name. -/
def allQueues (registry : Registry) : List Queue :=
  registry.queues.entries.map fun entry => ⟨entry.1.text, entry.2⟩

/-- The registry with one more topic. -/
def createTopic
    (registry : Registry)
    (limits : Limits)
    (topic : Topic) :
    Except Error Registry := do
  limits.checkName "topic" topic.name
  if 1 ≤ topic.partitions ∧ topic.partitions ≤ limits.partitions then
    let topics ←
      take registry.topics "topic" topic.name (topic.partitions, topic.creator)
    return { registry with topics := topics }
  else .error (.invalidArgument "partitions" (.outsideCount limits.partitions))

/-- The registry with one more queue. -/
def createQueue
    (registry : Registry)
    (limits : Limits)
    (queue : Queue) :
    Except Error Registry := do
  limits.checkName "queue" queue.name
  let queues ← take registry.queues "queue" queue.name queue.creator
  return { registry with queues := queues }

/-- The registry without a topic. -/
def deleteTopic
    (registry : Registry)
    (name user : String) :
    Except Error Registry := do
  let topics ← giveUp registry.topics "topic" name user fun content => content.2
  return { registry with topics := topics }

/-- The registry without a queue. -/
def deleteQueue
    (registry : Registry)
    (name user : String) :
    Except Error Registry := do
  let queues ← giveUp registry.queues "queue" name user id
  return { registry with queues := queues }

/-- What is found, or the error that there is nothing of that name. -/
def lookUp
    {content : Type}
    (resource name : String) :
    Option content → Except Error content
  | some content => .ok content
  | none => .error (.notFound resource name)

/-- One operation on the registry. -/
def perform
    (limits : Limits)
    (registry : Registry) :
    Operation → Except Error Answer × Registry
  | .createTopic topic => settle registry (registry.createTopic limits topic)
  | .topic name =>
      ((lookUp "topic" name (registry.topic? name)).map .topic, registry)
  | .topics => (.ok (.topics registry.allTopics), registry)
  | .deleteTopic name user => settle registry (registry.deleteTopic name user)
  | .createQueue queue => settle registry (registry.createQueue limits queue)
  | .queue name =>
      ((lookUp "queue" name (registry.queue? name)).map .queue, registry)
  | .queues => (.ok (.queues registry.allQueues), registry)
  | .deleteQueue name user => settle registry (registry.deleteQueue name user)

end Registry

/-! ## What operations may change -/

/-- What one operation may do to a map of names: nothing, take a free name with
proper content, or give up a name for the user who took it, if that was asked
for. -/
inductive Change
    (creator : entry → String)
    (proper : entry → Prop)
    (asked : String → String → Prop)
    (before : OrderedMap Name entry) :
    OrderedMap Name entry → Prop where
  /-- Nothing changes. -/
  | nothing : Change creator proper asked before before
  /-- A free name is taken. -/
  | taken
      {name : Name}
      {content : entry}
      (free : before.get? name = none)
      (sound : proper content) :
      Change creator proper asked before (before.insert name content)
  /-- A name is given up. -/
  | givenUp
      {name : Name}
      {content : entry}
      (held : before.get? name = some content)
      (wanted : asked name.text (creator content)) :
      Change creator proper asked before (before.erase name)

section Changes

variable {creator : entry → String} {proper : entry → Prop}
  {asked : String → String → Prop} {before after : OrderedMap Name entry}

theorem take_eq_ok
    {resource name : String}
    {content : entry}
    (done : take before resource name content = .ok after) :
    before.get? ⟨name⟩ = none ∧ after = before.insert ⟨name⟩ content := by
  unfold take at done
  split at done
  · cases done
  · rename_i free
    cases done
    exact ⟨free, rfl⟩

theorem giveUp_eq_ok
    {resource name user : String}
    (done : giveUp before resource name user creator = .ok after) :
    (∃ content, before.get? ⟨name⟩ = some content ∧ creator content = user) ∧
    after = before.erase ⟨name⟩ := by
  unfold giveUp at done
  split at done
  · cases done
  · rename_i content held
    split at done
    · rename_i own
      cases done
      exact ⟨⟨content, held, own⟩, rfl⟩
    · cases done

theorem change_take
    {resource name : String}
    {content : entry}
    (done : take before resource name content = .ok after)
    (sound : proper content) :
    Change creator proper asked before after := by
  rcases take_eq_ok done with ⟨free, rfl⟩
  exact .taken free sound

theorem change_giveUp
    {resource name user : String}
    (done : giveUp before resource name user creator = .ok after)
    (wanted : asked name user) :
    Change creator proper asked before after := by
  rcases giveUp_eq_ok done with ⟨⟨content, held, rfl⟩, rfl⟩
  exact .givenUp held wanted

/-- An entry stays as it is unless its creator asked for its end. -/
theorem Change.keeps
    (change : Change creator proper asked before after)
    {name : Name}
    {content : entry}
    (held : before.get? name = some content)
    (unasked : ¬ asked name.text (creator content)) :
    after.get? name = some content := by
  cases change with
  | nothing => exact held
  | @taken other _ free =>
      rw [OrderedMap.get?_insert, if_neg, held]
      rintro rfl
      rw [held] at free
      cases free
  | @givenUp other _ own wanted =>
      rw [OrderedMap.get?_erase, if_neg, held]
      rintro rfl
      rw [held] at own
      cases own
      exact unasked wanted

/-- An entry was there, or it is proper. -/
theorem Change.held_or_proper
    (change : Change creator proper asked before after)
    {name : Name}
    {content : entry}
    (held : after.get? name = some content) :
    before.get? name = some content ∨ proper content := by
  cases change with
  | nothing => exact .inl held
  | taken _ sound =>
      rw [OrderedMap.get?_insert] at held
      split at held
      · cases held
        exact .inr sound
      · exact .inl held
  | givenUp =>
      rw [OrderedMap.get?_erase] at held
      split at held
      · cases held
      · exact .inl held

end Changes

namespace Registry

/-- What an operation may make of a registry: it changes one of the two maps at
most, and a topic that it adds has a partition. -/
structure Moves
    (registry : Registry)
    (operation : Operation)
    (after : Registry) :
    Prop where
  topics : Change Prod.snd (fun content => 0 < content.1)
    (fun name user => operation = .deleteTopic name user)
    registry.topics after.topics
  queues : Change id (fun _ => True)
    (fun name user => operation = .deleteQueue name user)
    registry.queues after.queues
  queues_eq : operation.isOfTopics = true → after.queues = registry.queues
  topics_eq : operation.isOfTopics = false → after.topics = registry.topics

variable {limits : Limits} {registry : Registry} {operation : Operation}

theorem Moves.refl : Moves registry operation registry :=
  ⟨.nothing, .nothing, fun _ => rfl, fun _ => rfl⟩

/-- A change that fails moves nothing. -/
theorem moves_settle
    {result : Except Error Registry}
    (moves : ∀ after, result = .ok after → Moves registry operation after) :
    Moves registry operation (settle registry result).2 := by
  cases result with
  | error fault => exact .refl
  | ok after => exact moves after rfl

theorem moves_perform
    (limits : Limits)
    (registry : Registry)
    (operation : Operation) :
    Moves registry operation (registry.perform limits operation).2 := by
  cases operation with
  | createTopic topic =>
      refine moves_settle fun after done => ?_
      rcases bind_eq_ok_iff.1 done with ⟨⟨⟩, _, done⟩
      split at done
      · rename_i few
        have some : 0 < topic.partitions :=
          UInt32.lt_of_lt_of_le (by decide) few.1
        rcases bind_eq_ok_iff.1 done with ⟨topics, taken, same⟩
        cases same
        exact ⟨change_take taken some, .nothing, fun _ => rfl, nofun⟩
      · cases done
  | createQueue queue =>
      refine moves_settle fun after done => ?_
      rcases bind_eq_ok_iff.1 done with ⟨⟨⟩, _, done⟩
      rcases bind_eq_ok_iff.1 done with ⟨queues, taken, same⟩
      cases same
      exact ⟨.nothing, change_take taken trivial, nofun, fun _ => rfl⟩
  | deleteTopic name user =>
      refine moves_settle fun after done => ?_
      rcases bind_eq_ok_iff.1 done with ⟨topics, given, same⟩
      cases same
      exact ⟨change_giveUp given rfl, .nothing, fun _ => rfl, nofun⟩
  | deleteQueue name user =>
      refine moves_settle fun after done => ?_
      rcases bind_eq_ok_iff.1 done with ⟨queues, given, same⟩
      cases same
      exact ⟨.nothing, change_giveUp given rfl, nofun, fun _ => rfl⟩
  | topic => exact .refl
  | topics => exact .refl
  | queue => exact .refl
  | queues => exact .refl

/-- A topic stays as it is through all operations but its deletion by its
creator. -/
theorem topic?_answers
    {operations : List Operation}
    {name : String}
    {topic : Topic}
    (known : registry.topic? name = some topic)
    (kept : Operation.deleteTopic name topic.creator ∉ operations) :
    (answers (perform limits) registry operations).2.topic? name =
      some topic := by
  induction operations generalizing registry with
  | nil => exact known
  | cons operation rest step =>
      rcases Option.map_eq_some_iff.1 known with ⟨content, held, rfl⟩
      have still := (moves_perform limits registry operation).topics.keeps held
        fun asked => kept (asked ▸ List.mem_cons_self)
      exact step (Option.map_eq_some_iff.2 ⟨content, still, rfl⟩)
        fun later => kept (List.mem_cons_of_mem _ later)

/-- A queue stays as it is through all operations but its deletion by its
creator. -/
theorem queue?_answers
    {operations : List Operation}
    {name : String}
    {queue : Queue}
    (known : registry.queue? name = some queue)
    (kept : Operation.deleteQueue name queue.creator ∉ operations) :
    (answers (perform limits) registry operations).2.queue? name =
      some queue := by
  induction operations generalizing registry with
  | nil => exact known
  | cons operation rest step =>
      rcases Option.map_eq_some_iff.1 known with ⟨content, held, rfl⟩
      have still := (moves_perform limits registry operation).queues.keeps held
        fun asked => kept (asked ▸ List.mem_cons_self)
      exact step (Option.map_eq_some_iff.2 ⟨content, still, rfl⟩)
        fun later => kept (List.mem_cons_of_mem _ later)

/-- Every topic has a partition. -/
def IsPartitioned (registry : Registry) : Prop :=
  ∀ name topic, registry.topic? name = some topic → 0 < topic.partitions

/-- No operation leaves a topic without partitions. -/
theorem IsPartitioned.perform
    (partitioned : registry.IsPartitioned)
    (limits : Limits)
    (operation : Operation) :
    (registry.perform limits operation).2.IsPartitioned := by
  intro name found known
  rcases Option.map_eq_some_iff.1 known with ⟨content, held, rfl⟩
  rcases (moves_perform limits registry operation).topics.held_or_proper held
    with old | sound
  · exact partitioned name _ (Option.map_eq_some_iff.2 ⟨content, old, rfl⟩)
  · exact sound

/-- Listings are in the byte order of names. -/
theorem allTopics_ordered (registry : Registry) :
    registry.allTopics.Pairwise fun earlier later =>
      Bytes.ofText earlier.name < Bytes.ofText later.name :=
  List.pairwise_map.2 registry.topics.ordered

theorem allQueues_ordered (registry : Registry) :
    registry.allQueues.Pairwise fun earlier later =>
      Bytes.ofText earlier.name < Bytes.ofText later.name :=
  List.pairwise_map.2 registry.queues.ordered

end Registry

end MessageBroker.Catalog
