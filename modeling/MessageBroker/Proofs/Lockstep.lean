import MessageBroker.Proofs.PublishedMessages

/-!
# Nodes in lockstep

The nodes of a fleet are in lockstep when every broadcast reaches all others
before anything else is published.  Then it does not matter who publishes in
which partition: the record that the publisher stores at the end of its log is
stored by all others at the end of theirs.  So every node holds just what was
published, partition by partition and in the order of publishing, and the next
offset is the count of what was.
-/

namespace MessageBroker

namespace Fleet

/-! ## Runs -/

/-- A node whose logs are empty, whatever else it holds. -/
structure Node.IsBare (node : Node) : Prop where
  legible : node.store.keyspace.Legible
  message : ∀ home offset,
    node.store.keyspace.get? (Key.message home offset).bytes = none
  counter : ∀ home, node.store.keyspace.get? (Key.nextOffset home).bytes = none
  ends : node.store.ends = .empty

/-- Nodes of different ids and valid limits that reach each other, with empty
logs. -/
structure IsFresh (fleet : Fleet) : Prop where
  distinct : (fleet.map (·.id)).Nodup
  valid : ∀ node ∈ fleet, node.limits.validate = .ok ()
  reachable : ∀ node ∈ fleet, node.IsReachable
  bare : ∀ node ∈ fleet, node.IsBare

/-- Set what a node holds. -/
def keep (fleet : Fleet) (id : NodeId) (store : Store) : Fleet :=
  fleet.change id fun node => { node with store := store }

theorem ids_keep
    (fleet : Fleet)
    (id : NodeId)
    (store : Store) :
    (fleet.keep id store).map (·.id) = fleet.map (·.id) :=
  ids_change fun _ => rfl

/-- A node publishes a post, with some nodes for its peers. -/
def publish
    (fleet : Fleet)
    (node : Node)
    (others : List NodeId)
    (page : UInt64)
    (post : Broker.Post) :
    Except Error (Broker.Receipt × Fleet) := do
  let fanout := Fanout.ofPeers node.id (others.map peer) page
  let (receipt, store, world) ←
    Broker.publish node.limits fanout node.store fleet post
  return (receipt, world.keep node.id store)

/-- A node publishes a post with all other nodes for its peers, in some
order. -/
def Publishes
    (fleet : Fleet)
    (node : Node)
    (post : Broker.Post)
    (receipt : Broker.Receipt)
    (after : Fleet) :
    Prop :=
  ∃ others page, others.Perm ((fleet.map (·.id)).erase node.id) ∧
    fleet.publish node others page post = .ok (receipt, after)

/-- The fleets that a fresh one can come to, with all that was published by
then. -/
inductive Lockstep : Fleet → List Message → Prop where
  | start {fleet : Fleet} (fresh : fleet.IsFresh) : Lockstep fleet []
  | publish
      {fleet after : Fleet}
      {published : List Message}
      {node : Node}
      {post : Broker.Post}
      {receipt : Broker.Receipt}
      (reached : Lockstep fleet published)
      (inside : node ∈ fleet)
      (publishes : fleet.Publishes node post receipt after) :
      Lockstep after (published ++ [receipt.message post])
  | createTopic
      {fleet : Fleet}
      {published : List Message}
      {node : Node}
      {topic : Catalog.Topic}
      {keyspace : Keyspace}
      (reached : Lockstep fleet published)
      (inside : node ∈ fleet)
      (done : Catalog.createTopic node.store.keyspace node.limits topic =
        .ok keyspace) :
      Lockstep (fleet.keep node.id { node.store with keyspace := keyspace })
        published
  | deleteTopic
      {fleet : Fleet}
      {published : List Message}
      {node : Node}
      {name user : String}
      {keyspace : Keyspace}
      (reached : Lockstep fleet published)
      (inside : node ∈ fleet)
      (done : Catalog.deleteTopic node.store.keyspace name user =
        .ok keyspace) :
      Lockstep (fleet.keep node.id { node.store with keyspace := keyspace })
        published
  | restart
      {fleet : Fleet}
      {published : List Message}
      {node : Node}
      (reached : Lockstep fleet published)
      (inside : node ∈ fleet)
      (ids : IdSource) :
      Lockstep (fleet.keep node.id (node.store.reopened ids)) published

/-! ## What all nodes hold -/

/-- Every node holds just what was published. -/
structure Mirrors (fleet : Fleet) (published : List Message) : Prop where
  distinct : (fleet.map (·.id)).Nodup
  valid : ∀ node ∈ fleet, node.limits.validate = .ok ()
  reachable : ∀ node ∈ fleet, node.IsReachable
  sound : ∀ node ∈ fleet, node.store.Sound
  record : ∀ node ∈ fleet, ∀ home offset,
    Log.record? node.store.keyspace home offset =
      (messagesIn home published)[offset.toNat]?

variable {fleet after : Fleet} {published : List Message}
  {node first second : Node} {home : PartitionKey} {offset : Offset}
  {post : Broker.Post} {receipt : Broker.Receipt}

theorem publish_eq_ok_iff
    {others : List NodeId}
    {page : UInt64} :
    fleet.publish node others page post = .ok (receipt, after) ↔
      ∃ message store,
        Broker.accept node.limits node.store post = .ok (message, store) ∧
        receipt = ⟨message.partition, message.offset, message.id⟩ ∧
        after =
          ((Fanout.ofPeers node.id (others.map peer) page).broadcast [message]
              fleet).2.keep node.id store := by
  rw [publish, bind_eq_ok_iff]
  constructor
  · rintro ⟨⟨given, store, world⟩, done, same⟩
    obtain ⟨rfl, rfl⟩ := Prod.mk.inj (Except.ok.inj same)
    obtain ⟨message, accepted, shown, sent⟩ := Broker.publish_eq_ok_iff.1 done
    exact ⟨message, store, accepted, shown, by rw [sent]⟩
  · rintro ⟨message, store, accepted, rfl, rfl⟩
    exact ⟨_, Broker.publish_eq_ok_iff.2 ⟨message, accepted, rfl, rfl⟩, rfl⟩

theorem Node.IsBare.sound (bare : node.IsBare) : node.store.Sound where
  legible := bare.legible
  stored home offset value held := by
    rw [bare.message] at held
    cases held
  counter home := by
    rw [bare.counter, bare.ends]
    rfl
  ended home := by
    rw [bare.ends]
    intro offset held
    rw [Log.Holds, bare.message] at held
    cases held

namespace Mirrors

theorem of_fresh (fresh : fleet.IsFresh) : Mirrors fleet [] where
  distinct := fresh.distinct
  valid := fresh.valid
  reachable := fresh.reachable
  sound node inside := (fresh.bare node inside).sound
  record node inside home offset := by
    rw [Log.record?, (fresh.bare node inside).message]
    rfl

/-- Each node by itself carries what was published. -/
theorem carries
    (mirrors : Mirrors fleet published)
    (inside : node ∈ fleet) :
    node.store.Carries published :=
  ⟨mirrors.sound node inside, mirrors.record node inside⟩

theorem holds_iff
    (mirrors : Mirrors fleet published)
    (inside : node ∈ fleet)
    (home : PartitionKey)
    (offset : Offset) :
    Log.Holds node.store.keyspace home offset ↔
      offset.toNat < (messagesIn home published).length :=
  (mirrors.carries inside).holds_iff home offset

/-- The next offset of a partition is the count of what was published there. -/
theorem toNat_next
    (mirrors : Mirrors fleet published)
    (inside : node ∈ fleet)
    (home : PartitionKey) :
    (node.store.next home).toNat = (messagesIn home published).length :=
  (mirrors.carries inside).toNat_next home

theorem ends_eq
    (mirrors : Mirrors fleet published)
    (isFirst : first ∈ fleet)
    (isSecond : second ∈ fleet) :
    first.store.ends = second.store.ends := by
  apply OrderedMap.ext_get?
  intro home
  have same : (first.store.next home).toNat = (second.store.next home).toNat :=
    (mirrors.toNat_next isFirst home).trans
      (mirrors.toNat_next isSecond home).symm
  have firstEnded := (mirrors.sound first isFirst).ended home
  have secondEnded := (mirrors.sound second isSecond).ended home
  have holds : ∀ offset, Log.Holds first.store.keyspace home offset ↔
      Log.Holds second.store.keyspace home offset := fun offset =>
    (mirrors.holds_iff isFirst home offset).trans
      (mirrors.holds_iff isSecond home offset).symm
  unfold Store.next Ends.next at same
  cases firstKnown : first.store.ends.get? home with
  | none =>
      cases secondKnown : second.store.ends.get? home with
      | none => rfl
      | some next =>
          rw [firstKnown] at firstEnded
          rw [secondKnown] at secondEnded
          obtain ⟨⟨last, held, _⟩, _⟩ := secondEnded
          exact absurd ((holds last).2 held) (firstEnded last)
  | some next =>
      cases secondKnown : second.store.ends.get? home with
      | none =>
          rw [firstKnown] at firstEnded
          rw [secondKnown] at secondEnded
          obtain ⟨⟨last, held, _⟩, _⟩ := firstEnded
          exact absurd ((holds last).1 held) (secondEnded last)
      | some other =>
          rw [firstKnown, secondKnown] at same
          exact congrArg some (UInt64.toNat_inj.1 same)

/-- Messages are stored in the same bytes everywhere. -/
theorem content_eq
    (mirrors : Mirrors fleet published)
    (isFirst : first ∈ fleet)
    (isSecond : second ∈ fleet)
    (home : PartitionKey)
    (offset : Offset) :
    first.store.keyspace.get? (Key.message home offset).bytes =
      second.store.keyspace.get? (Key.message home offset).bytes := by
  have same : Log.record? first.store.keyspace home offset =
      Log.record? second.store.keyspace home offset :=
    (mirrors.record first isFirst home offset).trans
      (mirrors.record second isSecond home offset).symm
  rw [(mirrors.sound first isFirst).content_eq,
    (mirrors.sound second isSecond).content_eq, same]

theorem counter_eq
    (mirrors : Mirrors fleet published)
    (isFirst : first ∈ fleet)
    (isSecond : second ∈ fleet)
    (home : PartitionKey) :
    first.store.keyspace.get? (Key.nextOffset home).bytes =
      second.store.keyspace.get? (Key.nextOffset home).bytes := by
  rw [(mirrors.sound first isFirst).counter,
    (mirrors.sound second isSecond).counter, mirrors.ends_eq isFirst isSecond]

/-! ## Steps -/

/-- A node may hold other things, as long as its logs stay as they are. -/
theorem keep
    (mirrors : Mirrors fleet published)
    (inside : node ∈ fleet)
    {store : Store}
    (sound : store.Sound)
    (same : ∀ home offset, Log.record? store.keyspace home offset =
      Log.record? node.store.keyspace home offset) :
    Mirrors (fleet.keep node.id store) published where
  distinct := by
    rw [ids_keep]
    exact mirrors.distinct
  valid := by
    intro changed among
    obtain ⟨old, insideOld, rfl⟩ := mem_change_iff.1 among
    split <;> exact mirrors.valid old insideOld
  reachable := by
    intro changed among
    obtain ⟨old, insideOld, rfl⟩ := mem_change_iff.1 among
    split <;> exact mirrors.reachable old insideOld
  sound := by
    intro changed among
    obtain ⟨old, insideOld, rfl⟩ := mem_change_iff.1 among
    split
    · exact sound
    · exact mirrors.sound old insideOld
  record := by
    intro changed among home offset
    obtain ⟨old, insideOld, rfl⟩ := mem_change_iff.1 among
    split
    · exact (same home offset).trans (mirrors.record node inside home offset)
    · exact mirrors.record old insideOld home offset

/-- All nodes gain a message that is published. -/
theorem gain
    (mirrors : Mirrors fleet published)
    {message : Message}
    (ends : message.offset.toNat = (messagesIn message.home published).length)
    (ids : after.map (·.id) = fleet.map (·.id))
    (gains : ∀ changed ∈ after, ∃ old ∈ fleet, changed.limits = old.limits ∧
      changed.isCutOff = old.isCutOff ∧
      changed.isDropping = old.isDropping ∧
      Store.Gains message old.store changed.store) :
    Mirrors after (published ++ [message]) where
  distinct := by
    rw [ids]
    exact mirrors.distinct
  valid := by
    intro changed among
    obtain ⟨old, inside, limits, _⟩ := gains changed among
    rw [limits]
    exact mirrors.valid old inside
  reachable := by
    intro changed among
    obtain ⟨old, inside, _, isCutOff, isDropping, _⟩ := gains changed among
    exact ⟨isCutOff.trans (mirrors.reachable old inside).1,
      isDropping.trans (mirrors.reachable old inside).2⟩
  sound := by
    intro changed among
    obtain ⟨old, _, _, _, _, gained⟩ := gains changed among
    exact gained.sound
  record := by
    intro changed among
    obtain ⟨old, inside, _, _, _, gained⟩ := gains changed among
    exact ((mirrors.carries inside).gain ends gained).record

/-- A publisher and all nodes that it sends its message to gain that message. -/
theorem publish
    (mirrors : Mirrors fleet published)
    (inside : node ∈ fleet)
    (publishes : fleet.Publishes node post receipt after) :
    (∃ count,
      Catalog.partitionCount node.store.keyspace post.topic = .ok count ∧
      receipt.partition = .ofKey post.key count) ∧
    receipt.offset.toNat =
      (messagesIn ⟨post.topic, receipt.partition⟩ published).length ∧
    Mirrors after (published ++ [receipt.message post]) := by
  obtain ⟨others, page, all, done⟩ := publishes
  obtain ⟨message, store, accepted, rfl, rfl⟩ := publish_eq_ok_iff.1 done
  have sound := mirrors.sound node inside
  obtain ⟨count, known, home, offset, shown, gains⟩ :=
    Broker.accept_gains sound accepted
  have partition : message.partition = .ofKey post.key count :=
    congrArg PartitionKey.partition home
  have ends : message.offset.toNat =
      (messagesIn message.home published).length := by
    rw [offset]
    exact mirrors.toNat_next inside message.home
  have own : (⟨post.topic, message.partition⟩ : PartitionKey) =
      message.home := by
    rw [home, partition]
  refine ⟨⟨count, known, partition⟩, own ▸ ends, ?_⟩
  rw [shown, broadcast_eq (List.cons_ne_nil _ _) page mirrors.distinct
    mirrors.reachable all]
  apply mirrors.gain ends
  · rw [ids_keep]
    apply ids_map
    intro other
    split <;> rfl
  · intro changed among
    obtain ⟨sent, amongSent, rfl⟩ := mem_change_iff.1 among
    obtain ⟨old, insideOld, rfl⟩ := List.mem_map.1 amongSent
    refine ⟨old, insideOld, ?_⟩
    by_cases same : old.id = node.id
    · cases List.inj_on_of_nodup_map mirrors.distinct insideOld inside same
      simp only [if_true, true_and]
      exact gains
    · have other : ¬ (old.receive [message]).id = node.id := same
      simp only [if_neg same, if_neg other]
      refine ⟨rfl, rfl, rfl, ?_⟩
      apply Node.gains_receive (mirrors.valid old insideOld)
        (mirrors.sound old insideOld)
        gains.sound gains.contains
      rw [mirrors.holds_iff insideOld, ends]
      exact Nat.lt_irrefl _

/-- A publisher of valid limits accepts a post to a topic that it knows, as long
as an offset follows. -/
theorem publish_succeeds
    (mirrors : Mirrors fleet published)
    (inside : node ∈ fleet)
    {count : UInt32}
    (known : Catalog.partitionCount node.store.keyspace post.topic = .ok count)
    (admitted :
      node.limits.checkMessage (post.message (.ofKey post.key count)) = .ok ())
    (room :
      (messagesIn ⟨post.topic, .ofKey post.key count⟩ published).length + 1 <
        UInt64.size)
    (others : List NodeId)
    (page : UInt64) :
    ∃ receipt after,
      fleet.publish node others page post = .ok (receipt, after) := by
  rw [← mirrors.toNat_next inside] at room
  obtain ⟨message, after, accepted⟩ :=
    Broker.accept_succeeds (mirrors.sound node inside)
      (mirrors.valid node inside) known admitted room
  exact ⟨_, _, publish_eq_ok_iff.2 ⟨message, after, accepted, rfl, rfl⟩⟩

end Mirrors

/-- Fleets in lockstep hold just what was published. -/
theorem Lockstep.mirrors (reached : Lockstep fleet published) :
    Mirrors fleet published := by
  induction reached with
  | start fresh => exact .of_fresh fresh
  | publish _ inside publishes step => exact (step.publish inside publishes).2.2
  | @createTopic _ _ node _ _ _ inside done step =>
      have grows : Store.Grows (fun _ => False) node.store _ :=
        Catalog.grows_createTopic (step.sound node inside) done
      exact step.keep inside grows.sound grows.record_eq
  | @deleteTopic _ _ node _ _ _ _ inside done step =>
      have grows : Store.Grows (fun _ => False) node.store _ :=
        Catalog.grows_deleteTopic (step.sound node inside) done
      exact step.keep inside grows.sound grows.record_eq
  | restart _ inside ids step =>
      have sound := step.sound _ inside
      rw [sound.reopened_eq]
      exact step.keep inside sound fun _ _ => rfl

/-- In lockstep all nodes hold the same messages in the same bytes, and the same
ends of partitions, stored and remembered: just what was published, numbered
from zero in each partition in the order of publishing, and the counts of it.
Whoever publishes next, the message gets the next number, and a post to a known
topic that the publisher's limits admit is published as long as there is one. -/
theorem Lockstep.identical (reached : Lockstep fleet published) :
    (∀ first ∈ fleet, ∀ second ∈ fleet,
      (∀ home offset,
        first.store.keyspace.get? (Key.message home offset).bytes =
          second.store.keyspace.get? (Key.message home offset).bytes) ∧
      (∀ home, first.store.keyspace.get? (Key.nextOffset home).bytes =
        second.store.keyspace.get? (Key.nextOffset home).bytes) ∧
      first.store.ends = second.store.ends) ∧
    (∀ node ∈ fleet, ∀ home,
      (∀ offset, Log.record? node.store.keyspace home offset =
        (messagesIn home published)[offset.toNat]?) ∧
      (∀ index (message : Message),
        (messagesIn home published)[index]? = some message →
        message.offset.toNat = index) ∧
      (node.store.next home).toNat = (messagesIn home published).length) ∧
    (∀ node ∈ fleet, ∀ post receipt after,
      fleet.Publishes node post receipt after →
      receipt.offset.toNat =
        (messagesIn ⟨post.topic, receipt.partition⟩ published).length ∧
      Lockstep after (published ++ [receipt.message post])) ∧
    ∀ node ∈ fleet, ∀ (post : Broker.Post) count,
      Catalog.partitionCount node.store.keyspace post.topic = .ok count →
      node.limits.checkMessage (post.message (.ofKey post.key count)) = .ok () →
      (messagesIn ⟨post.topic, .ofKey post.key count⟩ published).length + 1 <
        UInt64.size →
      ∀ others page, others.Perm ((fleet.map (·.id)).erase node.id) →
        ∃ receipt after,
          fleet.publish node others page post = .ok (receipt, after) ∧
          receipt.partition = .ofKey post.key count ∧
          fleet.Publishes node post receipt after := by
  have mirrors := reached.mirrors
  refine ⟨fun first isFirst second isSecond =>
    ⟨mirrors.content_eq isFirst isSecond,
      mirrors.counter_eq isFirst isSecond, mirrors.ends_eq isFirst isSecond⟩,
    fun node inside home => ⟨mirrors.record node inside home,
      fun index message found => (mirrors.carries inside).numbered found,
      mirrors.toNat_next inside home⟩,
    fun node inside post receipt after publishes =>
      ⟨(mirrors.publish inside publishes).2.1,
        .publish reached inside publishes⟩,
    fun node inside post count known admitted room others page all => ?_⟩
  obtain ⟨receipt, after, done⟩ :=
    mirrors.publish_succeeds inside known admitted room others page
  have publishes : fleet.Publishes node post receipt after :=
    ⟨others, page, all, done⟩
  obtain ⟨⟨count', known', chosen⟩, _⟩ := mirrors.publish inside publishes
  cases known.symm.trans known'
  exact ⟨receipt, after, done, chosen, publishes⟩

/-- A node without messages that has a topic with one partition. -/
def listed (id : NodeId) (ids : IdSource) : Node where
  id := id
  limits := {}
  store :=
    ⟨OrderedMap.empty.insert (Key.topicRecord "t").bytes
      (Catalog.Topic.record ⟨"t", 1, "u"⟩), .empty, ids⟩

theorem listed_isBare
    (id : NodeId)
    (ids : IdSource) :
    (listed id ids).IsBare := by
  have plain : (Key.topicRecord "t").IsPlain :=
    Key.isPlain_of_name _ rfl (by decide)
  refine ⟨Keyspace.Legible.empty.insert plain _, fun home offset =>
    ?_, fun home => ?_, rfl⟩
  · exact (Keyspace.get?_insert_key .empty plain _ _).trans (if_neg (by simp))
  · exact (Keyspace.get?_insert_key .empty plain _ _).trans (if_neg (by simp))

/-- Two such nodes. -/
def twins : Fleet :=
  [listed "a" (.series 0), listed "b" (.series 1)]

theorem twins_isFresh : twins.IsFresh where
  distinct := by decide
  valid := by
    simp only [twins, listed, List.forall_mem_cons]
    exact ⟨rfl, rfl, List.forall_mem_nil _⟩
  reachable := by simp [twins, listed, Node.IsReachable]
  bare := by simp [twins, listed_isBare]

/-- The first one has published. -/
def opened : Broker.Receipt × Fleet :=
  (twins.publish (listed "a" (.series 0)) ["b"] 4
    ⟨"t", "", [1], ""⟩).toOption.get (by decide +kernel)

/-- The second one by then. -/
def replier : Node :=
  (opened.2.node? "b").get (by decide +kernel)

/-- The second one has published too. -/
def answered : Broker.Receipt × Fleet :=
  (opened.2.publish replier ["a"] 4 ⟨"t", "", [2], ""⟩).toOption.get
    (by decide +kernel)

/-- Both publish in one partition, and both hold both messages. -/
theorem Lockstep.identical_turns :
    ∃ published, Lockstep answered.2 published ∧
      answered.1.offset = 1 ∧
      ∀ node ∈ answered.2, (node.store.next ⟨"t", 0⟩).toNat = 2 ∧
        ∀ other ∈ answered.2, node.store.ends = other.store.ends := by
  have first :
      twins.publish (listed "a" (.series 0)) ["b"] 4 ⟨"t", "", [1], ""⟩ =
        .ok opened :=
    eq_ok_of_toOption (Option.eq_some_of_isSome _)
  have reply : opened.2.publish replier ["a"] 4 ⟨"t", "", [2], ""⟩ =
      .ok answered :=
    eq_ok_of_toOption (Option.eq_some_of_isSome _)
  have known : opened.2.node? "b" = some replier := Option.eq_some_of_isSome _
  have inside : replier ∈ opened.2 := List.mem_of_find?_eq_some known
  have begun := (Lockstep.start twins_isFresh).publish List.mem_cons_self
    ⟨["b"], 4, by decide, first⟩
  have reached := begun.publish inside ⟨["a"], 4, by decide +kernel, reply⟩
  obtain ⟨same, counted, _⟩ := reached.identical
  refine ⟨_, reached,
    by decide +kernel, fun node among => ⟨?_, fun other amongOther => ?_⟩⟩
  · rw [(counted node among ⟨"t", 0⟩).2.2]
    decide +kernel
  · exact (same node among other amongOther).2.2

end Fleet

end MessageBroker
