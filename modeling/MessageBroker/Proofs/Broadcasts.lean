import Mathlib.Data.List.Nodup
import MessageBroker.Proofs.ReplicaAgreement
import MessageBroker.Proofs.SoundLimits

/-!
# Broadcasts that reach everyone

When all other nodes can be reached, a broadcast has every one of them store the
batch, and leaves its sender alone.  A message with an id that was stored at one
node can be stored at any other whose log is free at its place, because nothing
but the message decides whether it can.  What either node gains is that one
record.
-/

namespace MessageBroker

/-! ## Stores that gain a message -/

namespace Store

/-- A store that grows by nothing keeps its records as they are. -/
theorem Grows.record_eq
    {before after : Store}
    (grows : Grows (fun _ => False) before after)
    (home : PartitionKey)
    (offset : Offset) :
    Log.record? after.keyspace home offset =
      Log.record? before.keyspace home offset := by
  rcases grows.record home offset with same | ⟨_, _, impossible, _⟩
  · exact same
  · exact impossible.elim

/-- A sound store has one more record, that of a message at its place. -/
structure Gains (message : Message) (before after : Store) : Prop where
  sound : after.Sound
  record : ∀ home offset, Log.record? after.keyspace home offset =
    if home = message.home ∧ offset = message.offset then some message
    else Log.record? before.keyspace home offset

variable {store after : Store} {message stored : Message}

theorem Gains.contains (gains : Gains message store after) :
    Log.Contains after.keyspace message := by
  rw [Log.Contains, gains.record, if_pos ⟨rfl, rfl⟩]

theorem record?_eq_none
    {keyspace : Keyspace}
    {home : PartitionKey}
    {offset : Offset}
    (vacant : ¬ Log.Holds keyspace home offset) :
    Log.record? keyspace home offset = none := by
  rw [Log.record?, Option.not_isSome_iff_eq_none.1 vacant, Option.bind_none]

/-- A message that fits can be appended where an offset follows the end. -/
theorem Sound.append_succeeds
    (sound : store.Sound)
    (fits : message.Fits)
    (room : (store.next message.home).toNat + 1 < UInt64.size) :
    ∃ stored after, store.append message = .ok (stored, after) := by
  have moved : (message.moved (store.next message.home)).Fits :=
    ⟨fits.topic, fits.key, fits.producer, fits.payload⟩
  obtain ⟨placed, done⟩ := sound.place_succeeds_iff.2 ⟨moved, room⟩
  cases appended : store.append message with
  | error fault =>
      exact absurd done (sound.place_of_append_error appended placed)
  | ok found => exact ⟨found.1, found.2, rfl⟩

/-- The bytes at a place are those of the record there. -/
theorem Sound.content_eq
    (sound : store.Sound)
    (home : PartitionKey)
    (offset : Offset) :
    store.keyspace.get? (Key.message home offset).bytes =
      (Log.record? store.keyspace home offset).bind fun found =>
        (Record.ofMessage found).toOption := by
  unfold Log.record?
  cases held : store.keyspace.get? (Key.message home offset).bytes with
  | none => rfl
  | some value =>
      obtain ⟨found, recorded, _⟩ := sound.stored home offset value held
      rw [Option.bind_some, Record.toMessage_ofMessage recorded]
      simp [Except.toOption, recorded]

/-- A message that a sound store holds fits its lengths. -/
theorem Sound.fits
    (sound : store.Sound)
    (held : Log.Contains store.keyspace message) :
    message.Fits := by
  obtain ⟨value, _, recorded, _⟩ := (Log.Sound.record_iff sound).1 held
  exact (Record.ofMessage_eq_ok_iff.1 recorded).1

/-- An offset follows that of a message that a sound store holds. -/
theorem Sound.room_after
    (sound : store.Sound)
    (held : Log.Contains store.keyspace message) :
    message.offset.toNat + 1 < UInt64.size := by
  have ended := (sound.ended message.home).lt_of_holds
    ((Log.Sound.holds_iff sound).2 ⟨message, held⟩)
  rw [UInt64.lt_iff_toNat_lt] at ended
  exact Nat.lt_of_le_of_lt ended (UInt64.toNat_lt _)

theorem Sound.gains_place
    (sound : store.Sound)
    (free : ':' ∉ message.topic.toList)
    (vacant : ¬ Log.Holds store.keyspace message.home message.offset)
    {outcome : Log.Outcome}
    (done : store.place message = .ok (outcome, after)) :
    Gains (message.identified store.ids.upcoming) store after := by
  refine ⟨sound.place free done, fun home offset => ?_⟩
  rw [sound.record?_place free done, Message.identified_home,
    Message.identified_offset]
  split
  · rename_i same
    rw [same.1, same.2, record?_eq_none vacant, Option.none_or]
  · rfl

theorem Sound.gains_append
    (sound : store.Sound)
    (free : ':' ∉ message.topic.toList)
    (done : store.append message = .ok (stored, after)) :
    stored =
      (message.identified store.ids.upcoming).moved (store.next message.home) ∧
    Gains stored store after := by
  obtain ⟨rfl, vacant, placed⟩ := sound.append done
  have movedFree :
      ':' ∉ (message.moved (store.next message.home)).topic.toList :=
    free
  refine ⟨rfl, ?_⟩
  rw [← Message.identified_moved]
  exact sound.gains_place movedFree vacant placed

end Store

namespace Broker

/-- The message that a post was stored as. -/
def Receipt.message (receipt : Receipt) (post : Post) : Message :=
  { post.message receipt.partition with id := receipt.id, offset :=
    receipt.offset }

variable {limits : Limits} {store after : Store} {post : Post}
  {message : Message}

/-- A post that is accepted is stored at the end of the partition that its key
chooses. -/
theorem accept_gains
    (sound : store.Sound)
    (done : accept limits store post = .ok (message, after)) :
    ∃ count, Catalog.partitionCount store.keyspace post.topic = .ok count ∧
      message.home = ⟨post.topic, .ofKey post.key count⟩ ∧
      message.offset = store.next message.home ∧
      Receipt.message ⟨message.partition, message.offset, message.id⟩ post =
        message ∧
      Store.Gains message store after := by
  obtain ⟨count, known, done⟩ := bind_eq_ok_iff.1 done
  obtain ⟨⟨⟩, _, done⟩ := bind_eq_ok_iff.1 done
  have free : ':' ∉ post.topic.toList :=
    Catalog.colon_not_mem_of_partitionCount sound.legible known
  obtain ⟨rfl, gains⟩ := sound.gains_append free done
  exact ⟨count, known, rfl, rfl, rfl, gains⟩

/-- Publishing is accepting a post and broadcasting its message. -/
theorem publish_eq_ok_iff
    {World : Type}
    {fanout : Fanout World}
    {world left : World}
    {receipt : Receipt} :
    publish limits fanout store world post = .ok (receipt, after, left) ↔
      ∃ message, accept limits store post = .ok (message, after) ∧
        receipt = ⟨message.partition, message.offset, message.id⟩ ∧
        left = (fanout.broadcast [message] world).2 := by
  rw [publish, bind_eq_ok_iff]
  constructor
  · rintro ⟨⟨message, stored⟩, accepted, sent⟩
    have same : ((⟨message.partition, message.offset, message.id⟩ : Receipt),
          stored, (fanout.broadcast [message] world).2) =
        (receipt, after, left) :=
      Except.ok.inj sent
    simp only [Prod.mk.injEq] at same
    obtain ⟨rfl, rfl, rfl⟩ := same
    exact ⟨message, accepted, rfl, rfl⟩
  · rintro ⟨message, accepted, rfl, rfl⟩
    exact ⟨(message, after), accepted, rfl⟩

/-- A post to a known topic that is within valid limits is accepted where an
offset follows. -/
theorem accept_succeeds
    (sound : store.Sound)
    (valid : limits.validate = .ok ())
    {count : UInt32}
    (known : Catalog.partitionCount store.keyspace post.topic = .ok count)
    (admitted : limits.checkMessage (post.message (.ofKey post.key count)) =
      .ok ())
    (room : (store.next ⟨post.topic, .ofKey post.key count⟩).toNat + 1 <
      UInt64.size) :
    ∃ message after, accept limits store post = .ok (message, after) := by
  have fits :=
    (Limits.validate_eq_ok_iff.1 valid).fits
      (Limits.checkMessage_eq_ok_iff.1 admitted)
  obtain ⟨stored, after, done⟩ := sound.append_succeeds fits room
  refine ⟨stored, after, ?_⟩
  simp only [accept, known, ok_bind, admitted, done]

end Broker

/-! ## Nodes that receive a batch -/

namespace Fleet

/-- A node that others reach, and that stores what they send. -/
def Node.IsReachable (node : Node) : Prop :=
  node.isCutOff = false ∧ node.isDropping = false

/-- A node once it was sent a batch. -/
def Node.receive (batch : List Message) (node : Node) : Node :=
  { node with store := (Replica.replicate node.limits node.store batch).2 }

variable {fleet : Fleet} {node : Node} {message : Message}

/-- What one node holds, any other of valid limits stores as it is where its log
is free. -/
theorem Node.gains_receive
    (valid : node.limits.validate = .ok ())
    (sound : node.store.Sound)
    {source : Store}
    (sourceSound : source.Sound)
    (held : Log.Contains source.keyspace message)
    (vacant : ¬ Log.Holds node.store.keyspace message.home message.offset) :
    Store.Gains message node.store (node.receive [message]).store := by
  have free : ':' ∉ message.topic.toList :=
    Log.Sound.free_of_record sourceSound held
  have named := Log.Sound.id_ne_nil sourceSound held
  obtain ⟨⟨outcome, after⟩, placed⟩ :=
    sound.place_succeeds_iff.2
      ⟨sourceSound.fits held, sourceSound.room_after held⟩
  have few : ¬ node.limits.batchMessages.toNat < [message].length :=
    Nat.not_lt_of_le (Limits.batchMessages_pos valid)
  have gains := sound.gains_place free vacant placed
  rw [Message.identified_eq_self named] at gains
  simp only [receive, Replica.replicate, if_neg few, Store.placeAll, placed]
  exact gains

/-- A batch for a node that can be reached is stored there. -/
theorem replicate_of_reachable
    (distinct : (fleet.map (·.id)).Nodup)
    (inside : node ∈ fleet)
    (reachable : node.IsReachable)
    (batch : List Message) :
    (replicate node.id batch fleet).2 =
      fleet.map fun other =>
        if other.id = node.id then other.receive batch else other := by
  have known := (node?_eq_some_iff distinct).2 ⟨inside, rfl⟩
  simp only [replicate, reach, known, reachable.1, reachable.2,
    Bool.false_eq_true, if_false, change, beq_iff_eq]
  apply List.map_congr_left
  intro other among
  by_cases same : other.id = node.id
  · cases List.inj_on_of_nodup_map distinct among inside same
    simp only [if_true, Node.receive]
  · rw [if_neg same, if_neg same]

/-- A batch that is sent to nodes that can be reached is stored at each of
them. -/
theorem send_eq
    (batch : List Message)
    {others : List NodeId}
    (once : others.Nodup)
    (distinct : (fleet.map (·.id)).Nodup)
    (reachable : ∀ node ∈ fleet, node.IsReachable)
    (known : ∀ id ∈ others, id ∈ fleet.map (·.id)) :
    (Fanout.send batch fleet (others.map peer)).2 =
      fleet.map fun node =>
        if node.id ∈ others then node.receive batch else node := by
  induction others generalizing fleet with
  | nil => simp [Fanout.send]
  | cons id rest step =>
      obtain ⟨absent, restOnce⟩ := List.nodup_cons.1 once
      obtain ⟨node, inside, rfl⟩ := List.mem_map.1 (known id List.mem_cons_self)
      have first :=
        replicate_of_reachable distinct inside (reachable node inside) batch
      have ids : (fleet.map fun other =>
              if other.id = node.id then other.receive batch else other).map
            (·.id) =
          fleet.map (·.id) := by
        apply ids_map
        intro other
        split <;> rfl
      have later := step restOnce (ids ▸ distinct) ?_ (ids ▸ fun other inside =>
        known other (List.mem_cons_of_mem _ inside))
      · rw [List.map_cons, Fanout.send]
        dsimp only [peer]
        rw [first, later, List.map_map]
        apply List.map_congr_left
        intro other _
        rw [Function.comp_apply]
        by_cases same : other.id = node.id
        · have gone : (other.receive batch).id ∉ rest := same ▸ absent
          rw [if_pos same, if_neg gone, if_pos (List.mem_cons.2 (.inl same))]
        · simp only [List.mem_cons, same, if_false, false_or]
      · intro other among
        obtain ⟨old, insideOld, rfl⟩ := List.mem_map.1 among
        split
        · exact reachable old insideOld
        · exact reachable old insideOld

/-- A broadcast to all other nodes has all of them store the batch. -/
theorem broadcast_eq
    {batch : List Message}
    (some : batch ≠ [])
    {others : List NodeId}
    (page : UInt64)
    (distinct : (fleet.map (·.id)).Nodup)
    (reachable : ∀ node ∈ fleet, node.IsReachable)
    (all : others.Perm ((fleet.map (·.id)).erase node.id)) :
    ((Fanout.ofPeers node.id (others.map peer) page).broadcast batch fleet).2 =
      fleet.map fun other =>
        if other.id = node.id then other else other.receive batch := by
  have nonempty : ¬ batch.isEmpty = true := by simpa using some
  have among : ∀ id, id ∈ others ↔ id ≠ node.id ∧ id ∈ fleet.map (·.id) :=
    fun id =>
      all.mem_iff.trans distinct.mem_erase_iff
  rw [Fanout.broadcast, if_neg nonempty, Fanout.peers_ofPeers,
    send_eq batch (all.nodup_iff.2 (distinct.erase _)) distinct reachable
      fun id inside => ((among id).1 inside).2]
  apply List.map_congr_left
  intro other inside
  by_cases same : other.id = node.id
  · rw [if_pos same, if_neg fun receives => ((among _).1 receives).1 same]
  · rw [if_neg same, if_pos ((among _).2 ⟨same, List.mem_map_of_mem inside⟩)]

end Fleet

end MessageBroker
