import MessageBroker.Broker
import MessageBroker.Proofs.Interleavings
import MessageBroker.Proofs.PublishedMessages

/-!
# A broker and one of its readers

A reader is a group that reads one partition.  It takes turns: it pulls messages
from its position on, and after a pull that brought some it sets its position
right behind the last of them.  A broker serves the reader in between
publishers, other readers, queues, the catalog and restarts.

A session is a broker together with what was published there and how far the
reader is.  Every action on it comes to one request to one area of the store at
most, so that it leaves the store intact and the other areas as they are.
-/

namespace MessageBroker

/-- A group that reads a partition. -/
structure Reader where
  group : String
  /-- The partition. -/
  home : PartitionKey
  deriving DecidableEq

/-- What a broker is asked to do.  Pulls of others are left out, because a pull
leaves nothing behind. -/
inductive Action where
  /-- Publish a post. -/
  | publish (post : Broker.Post)
  /-- The reader's turn, with a count of messages that it asks for. -/
  | turn (most : Nat)
  /-- Set a group's position in a partition. -/
  | commit (group : String) (home : PartitionKey) (offset : Offset)
  /-- Put a payload at the tail of a queue. -/
  | enqueue (queue : String) (payload : Bytes) (producer : String)
  /-- Hand out the head of a queue. -/
  | dequeue (queue : String) (now : UInt64)
  /-- End a delivery for good. -/
  | acknowledge (queue : String) (id : MessageId)
  /-- Return every expired delivery of every queue. -/
  | sweep (now : UInt64)
  /-- An operation on the catalog. -/
  | catalog (operation : Catalog.Operation)
  /-- Close the store and open it again. -/
  | restart (ids : IdSource)

namespace Action

/-- The area in which an action may change records. -/
def area : Action → Area
  | .publish _ | .restart _ => .logs
  | .turn _ | .commit .. => .cursors
  | .enqueue .. | .dequeue .. | .acknowledge .. | .sweep _ => .queues
  | .catalog _ => .catalog

/-- The reader whose position an action sets out of turn. -/
def sets? : Action → Option Reader
  | .commit group home _ => some ⟨group, home⟩
  | _ => none

/-- An action does not set a reader's position, except in the reader's turn. -/
def Spares (action : Action) (reader : Reader) : Prop :=
  action.sets? ≠ some reader

instance
    (action : Action)
    (reader : Reader) :
    Decidable (action.Spares reader) :=
  inferInstanceAs (Decidable (action.sets? ≠ some reader))

end Action

/-- How a broker is set up. -/
structure Setup (World : Type) where
  limits : Limits
  /-- How long deliveries last and how they are returned. -/
  settings : Queue.Settings
  /-- Whom published messages are sent to; on its own a broker has nobody. -/
  fanout : Fanout World

/-- A broker, what was published there, and how far one reader is. -/
structure Session (World : Type) where
  store : Store
  world : World
  /-- The messages that were published, in order. -/
  published : List Message := []
  /-- The messages that the reader received, in order. -/
  received : List Message := []
  /-- The position that the reader has still to set. -/
  unset? : Option Offset := none

namespace Session

variable {World : Type}

/-- A broker without records. -/
def start (ids : IdSource) (world : World) : Session World where
  store := .empty ids
  world := world

/-- Change the records of the store. -/
def keep (session : Session World) (keyspace : Keyspace) : Session World :=
  { session with store := { session.store with keyspace := keyspace } }

/-- The reader has set its position. -/
def settle (session : Session World) (keyspace : Keyspace) : Session World :=
  { session.keep keyspace with unset? := none }

/-- The reader receives a batch, and has then to set its position right behind
the last message. -/
def receive (session : Session World) (batch : List Message) : Session World :=
  { session with
    received := session.received ++ batch
    unset? := batch.getLast?.bind fun last => last.offset.next? }

/-- The reader sets the position that it has still to set; where there is none,
it pulls. -/
def turn
    (limits : Limits)
    (reader : Reader)
    (session : Session World)
    (most : Nat) :
    Session World :=
  let keyspace := session.store.keyspace
  match session.unset? with
  | some next =>
      match Broker.commit limits keyspace reader.group reader.home next with
      | .ok keyspace => session.settle keyspace
      | .error _ => session
  | none =>
      match Broker.pull keyspace reader.group reader.home most with
      | .ok batch => session.receive batch
      | .error _ => session

/-- The session after an action; one that is refused changes nothing. -/
def perform
    (setup : Setup World)
    (reader : Reader)
    (session : Session World) :
    Action → Session World
  | .publish post =>
      match Broker.publish setup.limits setup.fanout session.store session.world
        post with
      | .ok (receipt, store, world) =>
          { session with
            store := store
            world := world
            published := session.published ++ [receipt.message post] }
      | .error _ => session
  | .turn most => session.turn setup.limits reader most
  | .commit group home offset =>
      match Broker.commit setup.limits session.store.keyspace group home
          offset with
      | .ok keyspace => session.keep keyspace
      | .error _ => session
  | .enqueue queue payload producer =>
      match Broker.enqueue setup.limits session.store queue payload
          producer with
      | .ok (_, store) => { session with store := store }
      | .error _ => session
  | .dequeue queue now =>
      match Broker.dequeue setup.settings session.store.keyspace queue now with
      | .ok result => session.keep result.keyspace
      | .error _ => session
  | .acknowledge queue id =>
      match Broker.acknowledge session.store.keyspace queue id with
      | .ok keyspace => session.keep keyspace
      | .error _ => session
  | .sweep now =>
      session.keep (Queue.swept session.store.keyspace setup.settings now)
  | .catalog operation =>
      session.keep
        (Catalog.serve setup.limits session.store.keyspace operation).2
  | .restart ids => { session with store := session.store.reopened ids }

/-- The session after actions, first one first. -/
def run
    (setup : Setup World)
    (reader : Reader)
    (session : Session World)
    (actions : List Action) :
    Session World :=
  actions.foldl (perform setup reader) session

end Session

/-! ## What the broker checks -/

namespace Broker

theorem colon_not_mem_of_checkQueue
    {keyspace : Keyspace}
    (legible : keyspace.Legible)
    {queue : String}
    (known : checkQueue keyspace queue = .ok ()) :
    ':' ∉ queue.toList := by
  unfold checkQueue at known
  split at known
  · rename_i present
    rcases Option.isSome_iff_exists.1 present with ⟨record, held⟩
    exact legible.isPlain held queue (by simp [Key.names])
  · cases known

/-- A partition that exists is one of a topic that does. -/
theorem checkPartition_eq_ok_iff
    {keyspace : Keyspace}
    {home : PartitionKey} :
    checkPartition keyspace home = .ok () ↔
      ∃ count, Catalog.partitionCount keyspace home.topic = .ok count ∧
        home.partition < count := by
  unfold checkPartition
  rw [bind_eq_ok_iff]
  constructor
  · rintro ⟨count, known, done⟩
    refine ⟨count, known, ?_⟩
    split at done
    · cases done
    · rename_i inside
      exact UInt32.not_le.1 inside
  · rintro ⟨count, known, inside⟩
    refine ⟨count, known, ?_⟩
    rw [if_neg (UInt32.not_le.2 inside)]
    rfl

theorem commit_eq_ok_iff
    {limits : Limits}
    {keyspace keyspace' : Keyspace}
    {group : String}
    {home : PartitionKey}
    {offset : Offset} :
    commit limits keyspace group home offset = .ok keyspace' ↔
      checkPartition keyspace home = .ok () ∧
      Cursor.commit keyspace limits group home offset = .ok keyspace' := by
  unfold commit
  rw [bind_eq_ok_iff]
  exact ⟨fun ⟨⟨⟩, known, done⟩ => ⟨known, done⟩, fun ⟨known, done⟩ =>
    ⟨⟨⟩, known, done⟩⟩

/-- What a commit does to all positions. -/
theorem position_commit
    {limits : Limits}
    {keyspace after : Keyspace}
    (legible : keyspace.Legible)
    {group : String}
    {home : PartitionKey}
    {offset : Offset}
    (done : commit limits keyspace group home offset = .ok after)
    (group' : String)
    (home' : PartitionKey) :
    after.get? (Key.cursor group' home').bytes =
      if group' = group ∧ home' = home then some (Record.ofCounter offset)
      else keyspace.get? (Key.cursor group' home').bytes := by
  rcases commit_eq_ok_iff.1 done with ⟨known, done⟩
  rcases checkPartition_eq_ok_iff.1 known with ⟨count, counted, _⟩
  rcases Cursor.commit_eq_ok_iff.1 done with ⟨named, rfl⟩
  have plain :=
    Cursor.isPlain named
      (Catalog.colon_not_mem_of_partitionCount legible counted)
  rw [Keyspace.setCounter, Keyspace.get?_insert_key _ plain]
  simp only [Key.cursor.injEq]

end Broker

namespace Session

/-! ## Actions come to requests -/

open Interleaving (serve intact_serve confined_serve ends_serve)

/-- A store is left as it was, or as one request to an area leaves it. -/
def Follows
    (limits : Limits)
    (settings : Queue.Settings)
    (area : Area)
    (before after : Store) :
    Prop :=
  after = before ∨ ∃ (request : Interleaving.Request) (ids : IdSource),
    request.IsPlain ∧
    request.area = area ∧
    after = { (serve limits settings before request).2 with ids := ids }

variable {World : Type} {limits : Limits} {settings : Queue.Settings}
  {before after : Store} {area : Area}

theorem Follows.intact
    (follows : Follows limits settings area before after)
    (intact : before.Intact) :
    after.Intact := by
  rcases follows with rfl | ⟨request, ids, plain, _, rfl⟩
  · exact intact
  · exact (intact_serve limits settings intact plain).withIds ids

theorem Follows.confined
    (follows : Follows limits settings area before after)
    (intact : before.Intact) :
    Keyspace.Confined area before.keyspace after.keyspace := by
  rcases follows with rfl | ⟨request, ids, _, rfl, rfl⟩
  · exact .refl _ _
  · exact confined_serve intact

/-- Actions elsewhere leave the logs as they are. -/
theorem Follows.carries
    (follows : Follows limits settings area before after)
    (intact : before.Intact)
    (elsewhere : area ≠ .logs)
    {published : List Message}
    (carries : before.Carries published) :
    after.Carries published := by
  have legible := (follows.intact intact).logs.legible
  have confined := follows.confined intact
  have ends : after.ends = before.ends := by
    rcases follows with rfl | ⟨request, ids, _, rfl, rfl⟩
    · rfl
    · exact ends_serve elsewhere
  have grows : Store.Grows (fun _ => False) before
      { before with keyspace := after.keyspace } :=
    carries.sound.confined confined elsewhere legible
  have kept := carries.of_grows grows
  refine ⟨?_, kept.record⟩
  have sound : Log.Sound after.keyspace before.ends := kept.sound
  rw [← ends] at sound
  exact sound

theorem follows_commit
    (intact : before.Intact)
    {keyspace : Keyspace}
    {group : String}
    {home : PartitionKey}
    {offset : Offset}
    (done : Broker.commit limits before.keyspace group home offset =
      .ok keyspace) :
    Follows limits settings .cursors before
      { before with keyspace := keyspace } := by
  rcases Broker.commit_eq_ok_iff.1 done with ⟨known, done⟩
  rcases Broker.checkPartition_eq_ok_iff.1 known with ⟨count, counted, _⟩
  have free :=
    Catalog.colon_not_mem_of_partitionCount intact.logs.legible counted
  refine .inr ⟨.commit group home offset, before.ids, ?_, rfl, ?_⟩
  · intro name inside
    rw [List.mem_singleton.1 inside]
    exact free
  · simp only [serve, done]

theorem follows_accept
    (intact : before.Intact)
    {post : Broker.Post}
    {message : Message}
    (done : Broker.accept limits before post = .ok (message, after)) :
    Follows limits settings .logs before after := by
  rcases bind_eq_ok_iff.1 done with ⟨count, counted, done⟩
  rcases bind_eq_ok_iff.1 done with ⟨⟨⟩, _, done⟩
  have free : ':' ∉ post.topic.toList :=
    Catalog.colon_not_mem_of_partitionCount intact.logs.legible counted
  refine .inr ⟨.append before.ids (post.message (.ofKey post.key count)),
    after.ids, ?_, rfl, ?_⟩
  · intro name inside
    rw [List.mem_singleton.1 inside]
    exact free
  · have appended : Store.append { before with ids := before.ids }
        (post.message (.ofKey post.key count)) = .ok (message, after) := done
    simp only [serve, appended]

theorem follows_queue
    {keyspace : Keyspace}
    (operation : Queue.Operation)
    (free : ∀ queue, operation.queue? = some queue → ':' ∉ queue.toList)
    (served : (Queue.serve settings before.keyspace operation).2 = keyspace)
    (ids : IdSource) :
    Follows limits settings .queues before ⟨keyspace, before.ends, ids⟩ := by
  refine .inr ⟨.queue operation, ids, fun name inside => ?_, rfl, ?_⟩
  · exact free name (Option.mem_toList.1 inside)
  · rw [← served]
    rfl

/-- Every action comes to one request at most. -/
theorem follows_perform
    (setup : Setup World)
    (reader : Reader)
    {session : Session World}
    (intact : session.store.Intact)
    (action : Action) :
    Follows setup.limits setup.settings action.area session.store
      (session.perform setup reader action).store := by
  unfold perform
  cases action with
  | publish post =>
      dsimp only
      split
      · rename_i receipt store world done
        rcases Broker.publish_eq_ok_iff.1 done with ⟨message, accepted, _, _⟩
        exact follows_accept intact accepted
      · exact .inl rfl
  | turn most =>
      unfold turn
      dsimp only
      split
      · split
        · rename_i done
          exact follows_commit intact done
        · exact .inl rfl
      · split <;> exact .inl rfl
  | commit group home offset =>
      dsimp only
      split
      · rename_i done
        exact follows_commit intact done
      · exact .inl rfl
  | enqueue queue payload producer =>
      dsimp only
      split
      · rename_i store done
        rcases bind_eq_ok_iff.1 done with ⟨⟨⟩, known, done⟩
        rcases bind_eq_ok_iff.1 done with ⟨⟨⟩, _, done⟩
        rcases bind_eq_ok_iff.1 done with ⟨enqueued, put, done⟩
        cases done
        have free :=
          Broker.colon_not_mem_of_checkQueue intact.logs.legible known
        have served : (Queue.serve setup.settings session.store.keyspace
              (.enqueue session.store.ids.upcoming queue
                (.forQueue queue payload producer))).2 =
            enqueued.keyspace := by
          simp only [Queue.serve, put]
        exact follows_queue _ (by rintro _ ⟨⟩; exact free) served _
      · exact .inl rfl
  | dequeue queue now =>
      dsimp only
      split
      · rename_i result done
        rcases bind_eq_ok_iff.1 done with ⟨⟨⟩, known, taken⟩
        have free :=
          Broker.colon_not_mem_of_checkQueue intact.logs.legible known
        have served : (Queue.serve setup.settings session.store.keyspace
              (.dequeue queue now)).2 =
            result.keyspace := by
          simp only [Queue.serve, taken]
        exact follows_queue _ (by rintro _ ⟨⟩; exact free) served _
      · exact .inl rfl
  | acknowledge queue id =>
      dsimp only
      split
      · rename_i keyspace done
        rcases bind_eq_ok_iff.1 done with ⟨⟨⟩, known, settled⟩
        have free :=
          Broker.colon_not_mem_of_checkQueue intact.logs.legible known
        cases settled
        exact follows_queue (.acknowledge queue id)
          (by rintro _ ⟨⟩; exact free) rfl _
      · exact .inl rfl
  | sweep now =>
      refine follows_queue (.sweep now) nofun ?_ _
      unfold Queue.serve Queue.swept
      dsimp only
      cases Queue.requeueExpired session.store.keyspace setup.settings now <;>
        rfl
  | catalog operation =>
      exact .inr ⟨.catalog operation, session.store.ids, nofun, rfl, rfl⟩
  | restart ids =>
      exact .inr ⟨.restart ids, (session.store.reopened ids).ids, nofun,
        rfl, rfl⟩

end Session

end MessageBroker
