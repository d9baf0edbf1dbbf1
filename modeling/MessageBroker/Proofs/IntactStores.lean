import MessageBroker.Proofs.ConfinedChanges

/-!
# Stores that are intact

A store is intact when its logs, its queues and its catalog are sound, each by
itself.  An operation of one area keeps what it is responsible for, and since it
is confined to its area it leaves the rest as it was.  So every operation keeps
a store intact, in any order, and a restart does too.
-/

namespace MessageBroker

/-! ## What changes elsewhere leave -/

namespace Keyspace

variable {before after : Keyspace} {area : Area}

/-- A scan for keys of one area does not see changes in another. -/
theorem Confined.withStem_eq
    (confined : Confined area before after)
    (legible : before.Legible)
    (legibleAfter : after.Legible)
    {stem : String}
    (elsewhere : ∀ key : Key, Bytes.ofText stem <+: key.bytes →
      key.area ≠ area) :
    after.withStem stem = before.withStem stem := by
  refine withStem_congr fun place stemmed => ?_
  by_cases known : ∃ key : Key, place = key.bytes
  · rcases known with ⟨key, rfl⟩
    exact confined key (elsewhere key stemmed)
  · have nothing : ∀ {keyspace : Keyspace}, keyspace.Legible →
        keyspace.get? place = none := by
      intro keyspace legible
      refine Option.eq_none_iff_forall_ne_some.2 fun content found => known ?_
      rcases legible place content found with ⟨key, _, same⟩
      exact ⟨key, same⟩
    rw [nothing legible, nothing legibleAfter]

end Keyspace

open Keyspace (Confined)

variable {area : Area}

/-- Changes elsewhere leave the logs as they are. -/
theorem Store.Sound.confined
    {store : Store}
    (sound : store.Sound)
    {keyspace : Keyspace}
    {kind : Message → Prop}
    (confined : Confined area store.keyspace keyspace)
    (elsewhere : area ≠ .logs)
    (legible : keyspace.Legible) :
    Store.Grows kind store { store with keyspace := keyspace } :=
  sound.grows_of_agree legible (fun _ _ => confined _ elsewhere.symm)
    (fun _ => confined _ elsewhere.symm)

namespace Queue

variable {keyspace after : Keyspace}

theorem Sound.confined
    (sound : Sound keyspace)
    (confined : Confined area keyspace after)
    (elsewhere : area ≠ .queues)
    (legible : after.Legible) :
    Sound after := by
  have same : ∀ key : Key, key.area = .queues →
      after.get? key.bytes = keyspace.get? key.bytes :=
    fun key own => confined key (own.trans_ne elsewhere.symm)
  refine ⟨legible, ?_, ?_, ?_, ?_, ?_⟩
  · intro queue value held
    exact sound.counter queue value (same (.nextGeneration queue) rfl ▸ held)
  · intro queue generation value held
    rw [same (.nextGeneration queue) rfl]
    exact sound.pending queue generation value
      (same (.pending queue generation) rfl ▸ held)
  · intro queue id
    rw [same (.expiry queue id) rfl, same (.body queue id) rfl]
    exact sound.paired queue id
  · intro queue id value held
    exact sound.expiry queue id value (same (.expiry queue id) rfl ▸ held)
  · intro queue id value held
    exact sound.body queue id value (same (.body queue id) rfl ▸ held)

/-- Changes elsewhere leave the queues as a machine describes them. -/
theorem Machine.Describes.confined
    {machine : Machine}
    (describes : machine.Describes keyspace)
    (confined : Confined area keyspace after)
    (elsewhere : area ≠ .queues)
    (legible : after.Legible) :
    machine.Describes after := by
  have same : ∀ key : Key, key.area = .queues →
      after.get? key.bytes = keyspace.get? key.bytes :=
    fun key own => confined key (own.trans_ne elsewhere.symm)
  refine ⟨describes.sound.confined confined elsewhere legible, fun queue => ?_,
    fun queue id => ?_, fun queue => ?_⟩
  · have scan : after.withStem (Key.pendingOf queue) =
        keyspace.withStem (Key.pendingOf queue) := by
      refine confined.withStem_eq describes.sound.legible legible
        fun key stemmed => ?_
      rw [Key.area_of_pendingOf stemmed]
      exact elsewhere.symm
    rw [Queue.waiting, scan]
    exact describes.waiting queue
  · rw [← describes.delivered queue id]
    exact delivered?_congr (same (.expiry queue id) rfl)
      (same (.body queue id) rfl)
  · rw [← describes.generation queue]
    exact generation_congr (same (.nextGeneration queue) rfl)

/-- Every operation on queues keeps them sound. -/
theorem Sound.serve
    (sound : Sound keyspace)
    (settings : Settings)
    {operation : Operation}
    (plain : operation.IsPlain) :
    Sound (Queue.serve settings keyspace operation).2 := by
  unfold Queue.serve
  cases operation with
  | enqueue fresh queue message =>
      dsimp only
      split
      · rename_i done
        exact (sound.enqueue (plain queue rfl) done).2.1
      · exact sound
  | dequeue queue now =>
      rcases sound.dequeue settings queue now with ⟨result, done, _, after, _⟩
      simp only [done]
      exact after
  | acknowledge queue id => exact sound.acknowledge (plain queue rfl) id
  | sweep now =>
      dsimp only
      split
      · rename_i done
        exact (sound.requeueExpired settings now done).1
      · exact sound

end Queue

/-- Changes elsewhere leave the catalog as a registry describes it. -/
theorem Catalog.Registry.Describes.confined
    {registry : Registry}
    {keyspace after : Keyspace}
    (describes : registry.Describes keyspace)
    (confined : Confined area keyspace after)
    (elsewhere : area ≠ .catalog)
    (legible : after.Legible) :
    registry.Describes after where
  legible := legible
  topics :=
    describes.topics.congr fun name =>
      confined (.topicRecord name) elsewhere.symm
  queues :=
    describes.queues.congr fun name =>
      confined (.queueRecord name) elsewhere.symm

/-! ## Intact stores -/

namespace Store

/-- The logs, the queues and the catalog of a store are sound. -/
structure Intact (store : Store) : Prop where
  logs : store.Sound
  queues : Queue.Sound store.keyspace
  catalog : ∃ registry : Catalog.Registry, registry.Describes store.keyspace

variable {store after : Store} {keyspace : Keyspace}

theorem Intact.empty (ids : IdSource) : (Store.empty ids).Intact where
  logs := .empty ids
  queues := .empty
  catalog := ⟨.empty, .empty⟩

/-- What is sound after a change in one area is all sound when the records of
that area are. -/
theorem Intact.confined
    (intact : store.Intact)
    (confined : Confined area store.keyspace after.keyspace)
    (legible : after.keyspace.Legible)
    (logs : if area = .logs then after.Sound else after.ends = store.ends)
    (queues : area = .queues → Queue.Sound after.keyspace)
    (catalog : area = .catalog →
      ∃ registry : Catalog.Registry, registry.Describes after.keyspace) :
    after.Intact where
  logs := by
    split at logs
    · exact logs
    · rename_i elsewhere
      have grows : Grows (fun _ => False) store _ :=
        intact.logs.confined confined elsewhere legible
      have sound : Log.Sound after.keyspace store.ends := grows.sound
      rw [← logs] at sound
      exact sound
  queues := by
    by_cases own : area = .queues
    · exact queues own
    · exact intact.queues.confined confined own legible
  catalog := by
    by_cases own : area = .catalog
    · exact catalog own
    · rcases intact.catalog with ⟨registry, describes⟩
      exact ⟨registry, describes.confined confined own legible⟩

/-- The supply of ids does not matter. -/
theorem Intact.withIds
    (intact : store.Intact)
    (ids : IdSource) :
    Intact { store with ids := ids } :=
  ⟨intact.logs, intact.queues, intact.catalog⟩

theorem Intact.place
    (intact : store.Intact)
    {message : Message}
    {outcome : Log.Outcome}
    (free : ':' ∉ message.topic.toList)
    (done : store.place message = .ok (outcome, after)) :
    after.Intact := by
  have sound := intact.logs.place free done
  exact intact.confined (confined_place done) sound.legible sound nofun nofun

theorem Intact.append
    (intact : store.Intact)
    {message stored : Message}
    (free : ':' ∉ message.topic.toList)
    (done : store.append message = .ok (stored, after)) :
    after.Intact := by
  rcases intact.logs.append done with ⟨_, _, placed⟩
  have movedFree :
      ':' ∉ (message.moved (store.next message.home)).topic.toList :=
    free
  exact intact.place movedFree placed

theorem Intact.serveQueues
    (intact : store.Intact)
    (settings : Queue.Settings)
    {operation : Queue.Operation}
    (plain : operation.IsPlain) :
    Intact
      { store with keyspace :=
        (Queue.serve settings store.keyspace operation).2 } := by
  have sound := intact.queues.serve settings plain
  exact intact.confined (Queue.confined_serve settings store.keyspace operation)
    sound.legible
    rfl (fun _ => sound) nofun

theorem Intact.serveCatalog
    (intact : store.Intact)
    (limits : Limits)
    (operation : Catalog.Operation) :
    Intact
      { store with keyspace :=
        (Catalog.serve limits store.keyspace operation).2 } := by
  rcases intact.catalog with ⟨registry, describes⟩
  have described := (describes.serve limits operation).2
  exact intact.confined (Catalog.confined_serve limits store.keyspace operation)
    described.legible rfl nofun fun _ => ⟨_, described⟩

theorem Intact.commit
    (intact : store.Intact)
    {limits : Limits}
    {group : String}
    {home : PartitionKey}
    (free : ':' ∉ home.topic.toList)
    {offset : Offset}
    (done : Cursor.commit store.keyspace limits group home offset =
      .ok keyspace) :
    Intact { store with keyspace := keyspace } := by
  rcases Cursor.commit_eq_ok_iff.1 done with ⟨named, rfl⟩
  have plain := Cursor.isPlain named free
  exact intact.confined (Cursor.confined_commit done)
    (intact.logs.legible.insert plain _) rfl
    nofun nofun

theorem Intact.reopened
    (intact : store.Intact)
    (ids : IdSource) :
    (store.reopened ids).Intact := by
  rw [intact.logs.reopened_eq]
  exact intact.withIds ids

end Store

end MessageBroker
