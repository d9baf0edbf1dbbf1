import MessageBroker.Proofs.Sessions

/-!
# What every session keeps

Whatever a broker is asked to do, a partition holds just what was published
there, every position reads, and every topic has a partition.  So every
partition of a topic is accepted by pulls and commits, and a pull brings what
was published from the group's position on.
-/

namespace MessageBroker

namespace Broker

/-- A pull reads a partition that exists from the stored position on. -/
theorem pull_eq
    {keyspace : Keyspace}
    {group : String}
    {home : PartitionKey}
    {position : Option Offset}
    (stored : keyspace.get? (Key.cursor group home).bytes =
      position.map Record.ofCounter)
    (known : checkPartition keyspace home = .ok ())
    (most : Nat) :
    pull keyspace group home most =
      Log.read keyspace home { start := position.getD 0 } most := by
  unfold pull
  rw [known, ok_bind, Cursor.position?_eq stored, ok_bind]

/-- A partition is accepted by every pull, and by every commit of a group whose
name is. -/
def Accepts
    (limits : Limits)
    (keyspace : Keyspace)
    (home : PartitionKey) :
    Prop :=
  (∀ group most, ∃ batch, pull keyspace group home most = .ok batch) ∧
    ∀ group offset, limits.checkName "group" group = .ok () →
      ∃ after, commit limits keyspace group home offset = .ok after

end Broker

namespace Session

variable {World : Type} {setup : Setup World} {reader : Reader}
  {session : Session World} {limits : Limits} {area : Area}

/-! ## What every action keeps -/

/-- The store is intact and carries what was published, every position reads,
and every topic has a partition. -/
structure Kept (session : Session World) : Prop where
  intact : session.store.Intact
  carries : session.store.Carries session.published
  position : ∀ group home value,
    session.store.keyspace.get? (Key.cursor group home).bytes = some value →
      ∃ offset, value = Record.ofCounter offset
  partitioned : ∀ name topic,
    Catalog.topic session.store.keyspace name = .ok topic → 0 < topic.partitions

theorem Kept.start
    (ids : IdSource)
    (world : World) :
    (start ids world).Kept where
  intact := .empty ids
  carries := .empty ids
  position _ _ _ := nofun
  partitioned _ _ := nofun

/-- Changes elsewhere leave topics as they are. -/
theorem topic_of_confined
    {keyspace after : Keyspace}
    (confined : Keyspace.Confined area keyspace after)
    (elsewhere : area ≠ .catalog)
    (name : String) :
    Catalog.topic after name = Catalog.topic keyspace name := by
  unfold Catalog.topic
  rw [confined (.topicRecord name) elsewhere.symm]

/-- Actions elsewhere leave it as it is which partitions there are. -/
theorem checkPartition_perform
    (intact : session.store.Intact)
    {action : Action}
    (elsewhere : action.area ≠ .catalog)
    (home : PartitionKey) :
    Broker.checkPartition (session.perform setup reader action).store.keyspace
        home =
      Broker.checkPartition session.store.keyspace home := by
  have confined := (follows_perform setup reader intact action).confined intact
  unfold Broker.checkPartition Catalog.partitionCount
  rw [topic_of_confined confined elsewhere]

theorem partitioned_serve
    {keyspace : Keyspace}
    {registry : Catalog.Registry}
    (describes : registry.Describes keyspace)
    (operation : Catalog.Operation)
    (partitioned : ∀ name topic, Catalog.topic keyspace name = .ok topic →
      0 < topic.partitions)
    (name : String)
    (topic : Catalog.Topic)
    (known : Catalog.topic (Catalog.serve limits keyspace operation).2 name =
      .ok topic) :
    0 < topic.partitions := by
  have all : registry.IsPartitioned := by
    intro name topic known
    apply partitioned name topic
    rw [describes.topic_eq, Catalog.Registry.lookUp_eq_ok_iff]
    exact known
  rw [(describes.serve limits operation).2.topic_eq,
    Catalog.Registry.lookUp_eq_ok_iff] at known
  exact all.perform limits operation name topic known

/-- A topic stays through an action that does not delete it. -/
theorem topic_perform
    (intact : session.store.Intact)
    {action : Action}
    {name : String}
    {topic : Catalog.Topic}
    (known : Catalog.topic session.store.keyspace name = .ok topic)
    (stays : ∀ user, action ≠ .catalog (.deleteTopic name user)) :
    Catalog.topic (session.perform setup reader action).store.keyspace name =
      .ok topic := by
  have confined := (follows_perform setup reader intact action).confined intact
  by_cases own : action.area = .catalog
  · cases action with
    | catalog operation =>
        rcases intact.catalog with ⟨registry, describes⟩
        have kept : operation ≠ .deleteTopic name topic.creator :=
          fun same => stays topic.creator (congrArg Action.catalog same)
        exact describes.topic_serve known kept
    | _ => cases own
  · rw [topic_of_confined confined own, known]

/-- Only a publication changes what was published. -/
theorem published_perform
    {action : Action}
    (elsewhere : action.area ≠ .logs) :
    (session.perform setup reader action).published = session.published := by
  unfold perform
  cases action with
  | publish post => exact absurd rfl elsewhere
  | restart ids => exact absurd rfl elsewhere
  | turn most =>
      unfold turn
      dsimp only
      split <;> split <;> rfl
  | sweep now => rfl
  | catalog operation => rfl
  | _ =>
      dsimp only
      split <;> rfl

theorem Kept.carries_perform
    (kept : session.Kept)
    (action : Action) :
    (session.perform setup reader action).store.Carries
      (session.perform setup reader action).published := by
  by_cases own : action.area = .logs
  · unfold perform
    cases action with
    | publish post =>
        dsimp only
        split
        · rename_i receipt store world done
          rcases Broker.publish_eq_ok_iff.1 done with
            ⟨message, accepted, rfl, _⟩
          rcases Broker.accept_gains kept.carries.sound accepted with
            ⟨_, _, _, offset, shown, gains⟩
          dsimp only
          rw [shown]
          exact kept.carries.gain
            (offset ▸ kept.carries.toNat_next message.home) gains
        · exact kept.carries
    | restart ids =>
        dsimp only
        rw [kept.carries.sound.reopened_eq]
        exact ⟨kept.carries.sound, kept.carries.record⟩
    | _ => cases own
  · rw [published_perform own]
    exact (follows_perform setup reader kept.intact action).carries kept.intact
      own kept.carries

/-- A position is what it was, unless a commit or the reader's turn sets it. -/
theorem position_perform
    (intact : session.store.Intact)
    (action : Action)
    (group : String)
    (home : PartitionKey) :
    (session.perform setup reader action).store.keyspace.get?
        (Key.cursor group home).bytes =
      session.store.keyspace.get? (Key.cursor group home).bytes ∨
    ∃ offset,
      (action = .commit group home offset ∨ ∃ most, action = .turn most) ∧
      (session.perform setup reader action).store.keyspace.get?
          (Key.cursor group home).bytes =
        some (Record.ofCounter offset) := by
  by_cases own : action.area = .cursors
  · cases action with
    | turn most =>
        unfold perform turn
        dsimp only
        split
        · rename_i next _
          split
          · rename_i done
            have set :=
              Broker.position_commit intact.logs.legible done group home
            split at set
            · exact .inr ⟨next, .inr ⟨most, rfl⟩, set⟩
            · exact .inl set
          · exact .inl rfl
        · split <;> exact .inl rfl
    | commit group' home' offset =>
        unfold perform
        dsimp only
        split
        · rename_i done
          have set := Broker.position_commit intact.logs.legible done group home
          split at set
          · rename_i same
            rcases same with ⟨rfl, rfl⟩
            exact .inr ⟨offset, .inl rfl, set⟩
          · exact .inl set
        · exact .inl rfl
    | _ => cases own
  · have confined :=
      (follows_perform setup reader intact action).confined intact
    exact .inl (confined (.cursor group home) (Ne.symm own))

/-- Every action keeps what is needed. -/
theorem Kept.perform
    (kept : session.Kept)
    (action : Action) :
    (session.perform setup reader action).Kept := by
  have follows := follows_perform setup reader kept.intact action
  have confined := follows.confined kept.intact
  refine ⟨follows.intact kept.intact, kept.carries_perform action, ?_, ?_⟩
  · intro group home value held
    rcases position_perform kept.intact action group home with same |
      ⟨offset, _, set⟩
    · exact kept.position group home value (same ▸ held)
    · exact ⟨offset, Option.some.inj (held.symm.trans set)⟩
  · by_cases own : action.area = .catalog
    · cases action with
      | catalog operation =>
          rcases kept.intact.catalog with ⟨registry, describes⟩
          exact partitioned_serve describes operation kept.partitioned
      | _ => cases own
    · intro name topic known
      rw [topic_of_confined confined own] at known
      exact kept.partitioned name topic known

theorem Kept.run
    (kept : session.Kept)
    (setup : Setup World)
    (reader : Reader)
    (actions : List Action) :
    (session.run setup reader actions).Kept := by
  induction actions generalizing session with
  | nil => exact kept
  | cons action rest induct => exact induct (kept.perform action)

/-! ## Which partitions are accepted -/

/-- What a pull brings where the store carries what was published. -/
theorem Kept.pull
    (kept : session.Kept)
    {group : String}
    {home : PartitionKey}
    {position : Option Offset}
    (stored : session.store.keyspace.get? (Key.cursor group home).bytes =
      position.map Record.ofCounter)
    (known : Broker.checkPartition session.store.keyspace home = .ok ())
    (most : Nat) :
    ∃ batch, Broker.pull session.store.keyspace group home most = .ok batch ∧
      batch <+:
        (messagesIn home session.published).drop (position.getD 0).toNat ∧
      batch.length ≤ most ∧
      (0 < most → batch = [] →
        (messagesIn home session.published).length ≤
          (position.getD 0).toNat) := by
  rw [Broker.pull_eq stored known]
  exact kept.carries.read home (position.getD 0) most

/-- A partition that exists is accepted. -/
theorem Kept.accepts
    (kept : session.Kept)
    {home : PartitionKey}
    (known : Broker.checkPartition session.store.keyspace home = .ok ())
    (limits : Limits) :
    Broker.Accepts limits session.store.keyspace home := by
  refine ⟨fun group most => ?_, fun group offset named => ?_⟩
  · have stored : ∃ position : Option Offset,
        session.store.keyspace.get? (Key.cursor group home).bytes =
          position.map Record.ofCounter := by
      cases held : session.store.keyspace.get?
          (Key.cursor group home).bytes with
      | none => exact ⟨none, rfl⟩
      | some value =>
          rcases kept.position group home value held with ⟨offset, rfl⟩
          exact ⟨some offset, rfl⟩
    rcases stored with ⟨position, stored⟩
    rcases kept.pull stored known most with ⟨batch, done, _⟩
    exact ⟨batch, done⟩
  · exact ⟨_,
      Broker.commit_eq_ok_iff.2 ⟨known, Cursor.commit_eq_ok_iff.2 ⟨named, rfl⟩⟩⟩

/-- A topic stays while nobody deletes it. -/
theorem topic_run
    (kept : session.Kept)
    {name : String}
    {topic : Catalog.Topic}
    (known : Catalog.topic session.store.keyspace name = .ok topic)
    {actions : List Action}
    (stays : ∀ user, .catalog (.deleteTopic name user) ∉ actions) :
    Catalog.topic (session.run setup reader actions).store.keyspace name =
      .ok topic := by
  induction actions generalizing session with
  | nil => exact known
  | cons action rest induct =>
      refine induct (kept.perform action) ?_ fun user inside =>
        stays user (List.mem_cons_of_mem _ inside)
      refine topic_perform kept.intact known fun user same => stays user ?_
      rw [same]
      exact List.mem_cons_self

/-- The partition of a receipt is accepted while nobody deletes its topic. -/
theorem Kept.accepts_receipt
    (kept : session.Kept)
    {post : Broker.Post}
    {receipt : Broker.Receipt}
    {store : Store}
    {world : World}
    (done : Broker.publish setup.limits setup.fanout session.store session.world
        post =
      .ok (receipt, store, world))
    {later : List Action}
    (stays : ∀ user, .catalog (.deleteTopic post.topic user) ∉ later) :
    Broker.Accepts setup.limits
      (session.run setup reader (.publish post :: later)).store.keyspace
      ⟨post.topic, receipt.partition⟩ := by
  rcases Broker.publish_eq_ok_iff.1 done with ⟨message, accepted, rfl, _⟩
  rcases Broker.accept_gains kept.carries.sound accepted with
    ⟨count, counted, home, _⟩
  rcases bind_eq_ok_iff.1 counted with ⟨topic, known, same⟩
  cases same
  have after : Catalog.topic
        (session.run setup reader (.publish post :: later)).store.keyspace
        post.topic =
      .ok topic := by
    refine topic_run kept known fun user inside => ?_
    rcases List.mem_cons.1 inside with same | inside
    · cases same
    · exact stays user inside
  refine (kept.run _ _ _).accepts ?_ setup.limits
  have chosen : message.partition = .ofKey post.key topic.partitions :=
    congrArg PartitionKey.partition home
  refine Broker.checkPartition_eq_ok_iff.2 ⟨topic.partitions, ?_, ?_⟩
  · exact bind_eq_ok_iff.2 ⟨topic, after, rfl⟩
  · show message.partition < topic.partitions
    rw [chosen]
    exact Partition.ofKey_lt (kept.partitioned _ _ known) post.key

end Session

end MessageBroker
