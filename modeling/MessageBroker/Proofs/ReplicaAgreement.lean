import MessageBroker.Proofs.Cluster

/-!
# Replicas agree

A cluster is coherent when every message that a node holds, and every message
in flight, is held at the same place by a node that may publish in its
partition.  Publishing adds to what the publisher holds; everything else copies
what is in flight or what another node holds, and nothing is ever overwritten.
So every step keeps a cluster coherent.  Where only one node may publish in a
partition, no two nodes differ at an offset that both hold.
-/

namespace MessageBroker

namespace Fleet

variable {fleet : Fleet} {id : NodeId} {node : Node}

theorem node?_eq_some_iff (distinct : (fleet.map (·.id)).Nodup) :
    fleet.node? id = some node ↔ node ∈ fleet ∧ node.id = id := by
  induction fleet with
  | nil => simp [node?]
  | cons first rest step =>
      obtain ⟨apart, distinct⟩ := List.nodup_cons.1 distinct
      have found := step distinct
      unfold node? at found ⊢
      rw [List.find?_cons]
      by_cases same : first.id = id
      · have here : (first.id == id) = true := beq_iff_eq.2 same
        rw [here]
        constructor
        · intro head
          cases head
          exact ⟨List.mem_cons_self, same⟩
        · rintro ⟨inside, named⟩
          rcases List.mem_cons.1 inside with rfl | later
          · rfl
          · exact absurd (List.mem_map.2 ⟨node, later, named.trans same.symm⟩)
              apart
      · have elsewhere : (first.id == id) = false := beq_eq_false_iff_ne.2 same
        rw [elsewhere, found, List.mem_cons]
        constructor
        · exact fun ⟨inside, named⟩ => ⟨.inr inside, named⟩
        · rintro ⟨rfl | inside, named⟩
          · exact absurd named same
          · exact ⟨inside, named⟩

theorem mem_change_iff {update : Node → Node} :
    node ∈ fleet.change id update ↔
      ∃ old ∈ fleet, node = if old.id = id then update old else old := by
  simp only [change, List.mem_map, beq_iff_eq]
  exact exists_congr fun old => and_congr_right fun _ => eq_comm

theorem ids_map
    {update : Node → Node}
    (named : ∀ node, (update node).id = node.id) :
    (fleet.map update).map (·.id) = fleet.map (·.id) := by
  rw [List.map_map]
  exact List.map_congr_left fun node _ => named node

theorem ids_change
    {update : Node → Node}
    (named : ∀ node, (update node).id = node.id) :
    (fleet.change id update).map (·.id) = fleet.map (·.id) := by
  apply ids_map
  intro node
  split
  · exact named node
  · rfl

/-- A batch changes at most the node that it is for, and what that node holds
only by the batch. -/
theorem replicate_eq
    (id : NodeId)
    (batch : List Message)
    (fleet : Fleet) :
    ∃ update : Node → Node,
      (replicate id batch fleet).2 = fleet.change id update ∧
      (∀ node, (update node).id = node.id) ∧
      ∀ node, fleet.node? id = some node →
        (update node).store = node.store ∨
        (update node).store =
          (Replica.replicate node.limits node.store batch).2 := by
  unfold replicate
  split
  · refine ⟨fun node => node, ?_, fun _ => rfl, fun _ _ => .inl rfl⟩
    simp [change]
  · rename_i node reached
    split
    · exact ⟨_, rfl, fun _ => rfl, fun _ _ => .inl rfl⟩
    · refine ⟨_, rfl, fun _ => rfl, fun other known => .inr ?_⟩
      unfold reach at reached
      rw [known] at reached
      dsimp only at reached
      split at reached
      · cases reached
      · cases reached
        rfl

end Fleet

/-- An accepted post becomes a record of the partition that its key chooses. -/
theorem Broker.accept_eq_ok
    {limits : Limits}
    {store after : Store}
    {post : Post}
    {message : Message}
    (sound : store.Sound)
    (done : accept limits store post = .ok (message, after)) :
    ∃ count, Catalog.partitionCount store.keyspace post.topic = .ok count ∧
      message.home = ⟨post.topic, .ofKey post.key count⟩ ∧
      Store.Grows (· = message) store after ∧
      Log.Contains after.keyspace message := by
  obtain ⟨count, known, done⟩ := bind_eq_ok_iff.1 done
  obtain ⟨⟨⟩, _, done⟩ := bind_eq_ok_iff.1 done
  have free : ':' ∉ post.topic.toList :=
    Catalog.colon_not_mem_of_partitionCount sound.legible known
  have grows := sound.grows_append free done
  obtain ⟨home, held⟩ := sound.contains_append free done
  exact ⟨count, known, home, grows, held⟩

namespace Cluster

variable {allowed : PartitionKey → NodeId → Prop}
  {owner : PartitionKey → NodeId} {cluster after : Cluster} {id : NodeId}

/-- A node that may publish in a message's partition holds the message. -/
def Published
    (allowed : PartitionKey → NodeId → Prop)
    (cluster : Cluster)
    (message : Message) :
    Prop :=
  ∃ node ∈ cluster.fleet, allowed message.home node.id ∧
    Log.Contains node.store.keyspace message

/-- Nodes hold and are sent only what was published. -/
structure Coherent
    (allowed : PartitionKey → NodeId → Prop)
    (cluster : Cluster) :
    Prop where
  distinct : (cluster.fleet.map (·.id)).Nodup
  sound : ∀ node ∈ cluster.fleet, node.store.Sound
  stored : ∀ node ∈ cluster.fleet, ∀ message,
    Log.Contains node.store.keyspace message → Published allowed cluster message
  flying : ∀ parcel ∈ cluster.inFlight, ∀ message ∈ parcel.2,
    Published allowed cluster message

/-- What a node may come to hold: what was published, and what it publishes
itself. -/
def Fitting
    (allowed : PartitionKey → NodeId → Prop)
    (cluster : Cluster)
    (id : NodeId)
    (message : Message) :
    Prop :=
  allowed message.home id ∨ Published allowed cluster message

/-! ## Changes that keep a cluster coherent -/

theorem IsFresh.coherent (fresh : cluster.IsFresh) :
    Coherent allowed cluster where
  distinct := fresh.distinct
  sound := by
    intro node inside
    obtain ⟨ids, empty⟩ := fresh.empty node inside
    rw [empty]
    exact .empty ids
  stored := by
    intro node inside message held
    obtain ⟨ids, empty⟩ := fresh.empty node inside
    rw [empty] at held
    cases held
  flying := by
    intro parcel inside
    rw [fresh.quiet] at inside
    cases inside

/-- Nodes may grow by what fits them. -/
theorem Coherent.change
    (coherent : Coherent allowed cluster)
    (id : NodeId)
    (update : Fleet.Node → Fleet.Node)
    (named : ∀ node, (update node).id = node.id)
    (grows : ∀ node ∈ cluster.fleet, node.id = id →
      Store.Grows (Fitting allowed cluster id) node.store (update node).store) :
    Coherent allowed (cluster.withFleet (cluster.fleet.change id update)) := by
  have grown : ∀ node ∈ cluster.fleet, ∃ node' ∈ cluster.fleet.change id update,
      node'.id = node.id ∧
        ∀ message, Log.Contains node.store.keyspace message →
          Log.Contains node'.store.keyspace message := by
    intro node inside
    refine ⟨_, Fleet.mem_change_iff.2 ⟨node, inside, rfl⟩, ?_⟩
    split
    · rename_i same
      exact ⟨named node, fun message held =>
        (grows node inside same).contains held⟩
    · exact ⟨rfl, fun message held => held⟩
  have published : ∀ message, Published allowed cluster message →
      Published allowed (cluster.withFleet (cluster.fleet.change id update))
        message := by
    rintro message ⟨node, inside, owns, held⟩
    obtain ⟨node', inside', same, keeps⟩ := grown node inside
    exact ⟨node', inside', same ▸ owns, keeps message held⟩
  constructor
  case distinct =>
      exact (Fleet.ids_change named).symm ▸ coherent.distinct
  case sound =>
      intro node' inside'
      obtain ⟨node, inside, rfl⟩ := Fleet.mem_change_iff.1 inside'
      split
      · rename_i same
        exact (grows node inside same).sound
      · exact coherent.sound node inside
  case stored =>
      intro node' inside' message held
      obtain ⟨node, inside, rfl⟩ := Fleet.mem_change_iff.1 inside'
      split at held
      · rename_i same
        rcases (grows node inside same).old_or_new held with old | ⟨fits, _⟩
        · exact published message (coherent.stored node inside message old)
        · rcases fits with owns | already
          · have owns' : allowed message.home (update node).id :=
              (named node).trans same ▸ owns
            refine ⟨update node, ?_, owns', held⟩
            exact Fleet.mem_change_iff.2 ⟨node, inside, by rw [if_pos same]⟩
          · exact published message already
      · exact published message (coherent.stored node inside message held)
  case flying =>
      intro parcel inside message carried
      exact published message (coherent.flying parcel inside message carried)

/-- What was published may be put in flight. -/
theorem Coherent.send
    (coherent : Coherent allowed cluster)
    {parcels : List (NodeId × List Message)}
    (published : ∀ parcel ∈ parcels, ∀ message ∈ parcel.2,
      Published allowed cluster message) :
    Coherent allowed (cluster.send parcels) where
  distinct := coherent.distinct
  sound := coherent.sound
  stored := coherent.stored
  flying := by
    intro parcel inside
    rcases List.mem_append.1 inside with new | old
    · exact published parcel new
    · exact coherent.flying parcel old

/-- A node may grow by what fits it, and put in flight what it then holds of its
own. -/
theorem Coherent.act
    (coherent : Coherent allowed cluster)
    {action : Fleet.Node → Except Error (Store × Cluster)}
    (acts : ∀ node ∈ cluster.fleet, node.id = id →
      ∀ store after, action node = .ok (store, after) →
        Store.Grows (Fitting allowed cluster id) node.store store ∧
        ∃ parcels, after = cluster.send parcels ∧
          ∀ parcel ∈ parcels, ∀ message ∈ parcel.2, allowed message.home id ∧
            Log.Contains store.keyspace message) :
    Coherent allowed (cluster.act id action) := by
  unfold Cluster.act
  split
  · exact coherent
  · rename_i node known
    obtain ⟨inside, same⟩ := (Fleet.node?_eq_some_iff coherent.distinct).1 known
    split
    · exact coherent
    · rename_i store after done
      obtain ⟨grows, parcels, rfl, own⟩ :=
        acts node inside same store after done
      have alone : ∀ other ∈ cluster.fleet, other.id = id → other = node := by
        intro other inside' same'
        have known' :=
          (Fleet.node?_eq_some_iff coherent.distinct).2 ⟨inside', same'⟩
        rw [known] at known'
        exact (Option.some.inj known').symm
      have changed :=
        coherent.change id (fun node => { node with store := store })
          (fun _ => rfl) (by
            intro other inside' same'
            rw [alone other inside' same']
            exact grows)
      apply changed.send
      intro parcel carried message insideParcel
      obtain ⟨owns, held⟩ := own parcel carried message insideParcel
      refine ⟨{ node with store := store }, ?_, same.symm ▸ owns, held⟩
      exact Fleet.mem_change_iff.2 ⟨node, inside, by rw [if_pos same]⟩

/-- An action that sends nothing. -/
theorem Coherent.act_quiet
    (coherent : Coherent allowed cluster)
    {action : Fleet.Node → Except Error (Store × Cluster)}
    (acts : ∀ node ∈ cluster.fleet, node.id = id →
      ∀ store after, action node = .ok (store, after) →
        Store.Grows (Fitting allowed cluster id) node.store store ∧
        after = cluster) :
    Coherent allowed (cluster.act id action) := by
  apply coherent.act
  intro node inside same store after done
  obtain ⟨grows, rfl⟩ := acts node inside same store after done
  refine ⟨grows, [], rfl, fun parcel carried => ?_⟩
  cases carried

/-! ## Publishing -/

theorem send_peers
    (batch : List Message)
    (others : List NodeId)
    (cluster : Cluster) :
    (Fanout.send batch cluster (others.map peer)).2 =
      cluster.send ((others.map fun other => (other, batch)).reverse) := by
  induction others generalizing cluster with
  | nil => rfl
  | cons other rest step =>
      rw [List.map_cons, Fanout.send]
      dsimp only [peer]
      rw [step, List.map_cons, List.reverse_cons]
      simp [Cluster.send]

/-- Broadcasting puts the batch in flight to every peer. -/
theorem broadcast_eq
    (self : NodeId)
    (others : List NodeId)
    (page : UInt64)
    (batch : List Message)
    (some : batch ≠ [])
    (cluster : Cluster) :
    ((fanout self others page).broadcast batch cluster).2 =
      cluster.send ((others.map fun other => (other, batch)).reverse) := by
  have nonempty : batch.isEmpty = false := by
    cases batch with
    | nil => exact absurd rfl some
    | cons => rfl
  rw [Fanout.broadcast, nonempty, if_neg Bool.false_ne_true, peers_fanout]
  exact send_peers batch others cluster

theorem Coherent.publish
    (coherent : Coherent allowed cluster)
    (others : List NodeId)
    (page : UInt64)
    (post : Broker.Post)
    (owned : ∀ home, cluster.target? id post = some home → allowed home id) :
    Coherent allowed (cluster.publish id others page post) := by
  apply coherent.act
  intro node inside same store after done
  have sound := coherent.sound node inside
  obtain ⟨⟨receipt, store', after'⟩, published, shown⟩ := bind_eq_ok_iff.1 done
  cases shown
  obtain ⟨⟨message, store'⟩, accepted, published⟩ := bind_eq_ok_iff.1 published
  cases published
  obtain ⟨count, known, home, grows, held⟩ := Broker.accept_eq_ok sound accepted
  have owns : allowed message.home id := by
    apply owned
    rw [target?, (Fleet.node?_eq_some_iff coherent.distinct).2 ⟨inside, same⟩,
      home]
    simp [known, Except.toOption]
  refine ⟨grows.weaken ?_, _,
    broadcast_eq id others page [message] (by simp) cluster, ?_⟩
  · rintro _ rfl
    exact .inl owns
  · intro parcel carried other insideParcel
    obtain ⟨receiver, _, rfl⟩ := List.mem_map.1 (List.mem_reverse.1 carried)
    rw [List.mem_singleton.1 insideParcel]
    exact ⟨owns, held⟩

/-! ## Reading from others -/

/-- An answered window was read from what the node holds. -/
theorem range_answer
    {node : Fleet.Node}
    (known : cluster.fleet.node? id = some node)
    {home : PartitionKey}
    {window : Log.Window}
    {page : List Message}
    (answer : ((peer id).range home window cluster).1 = .ok page) :
    Replica.range node.limits node.store.keyspace home window = .ok page := by
  simp only [peer, Peer.lift, Fleet.range, Fleet.reach, known] at answer
  split at answer
  · cases answer
  · rename_i node' reached
    split at reached
    · cases reached
    · cases reached
      cases read : Replica.range node.limits node.store.keyspace home
          window with
      | error fault =>
          rw [read] at answer
          cases answer
      | ok found =>
          rw [read] at answer
          exact congrArg Except.ok (Except.ok.inj answer)

/-- A node shows others what it holds. -/
theorem peer_shows
    {node : Fleet.Node}
    (known : cluster.fleet.node? id = some node)
    (sound : node.store.Sound) :
    CatchUp.Shows (peer id) cluster node.store.keyspace := by
  intro home window
  constructor
  · unfold peer Peer.lift Fleet.range
    dsimp only
    split <;> rfl
  · intro page answer
    obtain ⟨read, done, front, _⟩ := Log.Sound.read_eq sound home window
      (Replica.pageMessages node.limits window)
        (some (Replica.pageBytes node.limits))
    obtain ⟨rfl⟩ := Except.ok.inj ((range_answer known answer).symm.trans done)
    exact front

/-- Whoever a node reads from shows it what was published, or nothing. -/
theorem Coherent.peer_shows
    (coherent : Coherent allowed cluster)
    (id : NodeId) :
    ∃ theirs ends, Log.Sound theirs ends ∧
      CatchUp.Shows (peer id) cluster theirs ∧
      ∀ message, Log.Contains theirs message →
        Published allowed cluster message := by
  cases known : cluster.fleet.node? id with
  | none =>
      refine ⟨.empty, .empty, .empty, fun home window => ⟨?_, ?_⟩,
        fun message held => ?_⟩
      · simp [peer, Peer.lift, Fleet.range, Fleet.reach, known, withFleet]
      · intro page answer
        simp [peer, Peer.lift, Fleet.range, Fleet.reach, known] at answer
      · cases held
  | some node =>
      obtain ⟨inside, _⟩ := (Fleet.node?_eq_some_iff coherent.distinct).1 known
      have sound := coherent.sound node inside
      exact ⟨_, _, sound, Cluster.peer_shows known sound,
        coherent.stored node inside⟩

theorem fanout_peer?
    {self : NodeId}
    {others : List NodeId}
    {page : UInt64}
    {found : Peer Cluster}
    (known : (fanout self others page).peer? id = some found) :
    found = peer id := by
  rw [Fanout.peer?, peers_fanout] at known
  obtain ⟨other, _, rfl⟩ := List.mem_map.1 (List.mem_of_find?_eq_some known)
  have same : other = id := by simpa [peer] using List.find?_some known
  rw [same]

theorem fanout_quiet
    (self : NodeId)
    (others : List NodeId)
    (page : UInt64)
    (cluster : Cluster) :
    Leader.Quiet (fanout self others page) cluster := by
  intro found inside
  rw [peers_fanout] at inside
  obtain ⟨other, _, rfl⟩ := List.mem_map.1 inside
  rfl

/-- Messages that were published fit every node, as they are. -/
theorem Coherent.grows_placeAll
    (coherent : Coherent allowed cluster)
    {batch : List Message}
    (published : ∀ message ∈ batch, Published allowed cluster message)
    {store : Store}
    (sound : store.Sound)
    (tally : Tally) :
    Store.Grows (Fitting allowed cluster id) store
      (store.placeAll tally batch).2 := by
  have held : ∀ message ∈ batch, ':' ∉ message.topic.toList ∧
      message.id ≠ .nil := by
    intro message inside
    obtain ⟨node, insideFleet, _, contained⟩ := published message inside
    have sound := coherent.sound node insideFleet
    exact ⟨Log.Sound.free_of_record sound contained,
      Log.Sound.id_ne_nil sound contained⟩
  refine (sound.grows_placeAll (fun message inside => (held message inside).1)
    tally).weaken ?_
  intro message named
  exact .inr
    (published message (named.mem fun message inside =>
      (held message inside).2))

theorem Coherent.deliver
    (coherent : Coherent allowed cluster)
    (index : Nat) :
    Coherent allowed (cluster.deliver index) := by
  unfold Cluster.deliver
  split
  · exact coherent
  · rename_i id batch carried
    obtain ⟨update, changed, named, stores⟩ :=
      Fleet.replicate_eq id batch cluster.fleet
    rw [changed]
    apply coherent.change id update named
    intro node inside same
    have sound := coherent.sound node inside
    have known := (Fleet.node?_eq_some_iff coherent.distinct).2 ⟨inside, same⟩
    rcases stores node known with unchanged | replicated
    · rw [unchanged]
      exact .refl sound
    · rw [replicated]
      unfold Replica.replicate
      split
      · exact .refl sound
      · exact coherent.grows_placeAll
          (coherent.flying _ (List.mem_of_getElem? carried)) sound {}

theorem Coherent.fetch
    (coherent : Coherent allowed cluster)
    (id source : NodeId)
    (home : PartitionKey)
    (window : Log.Window) :
    Coherent allowed (cluster.fetch id source home window) := by
  unfold Cluster.fetch
  split
  · exact coherent
  · rename_i page answer
    obtain ⟨theirs, ends, sound, shows, published⟩ := coherent.peer_shows source
    have front := (shows home window).2 page answer
    apply coherent.send
    intro parcel carried message inside
    rw [List.mem_singleton.1 carried] at inside
    exact published message (CatchUp.from_of_mem_page sound front inside).2.1

theorem Coherent.absorb
    (coherent : Coherent allowed cluster)
    (index : Nat) :
    Coherent allowed (cluster.absorb index) := by
  unfold Cluster.absorb
  split
  · exact coherent
  · rename_i id page carried
    apply coherent.act_quiet
    intro node inside _ store after done
    cases done
    exact ⟨coherent.grows_placeAll
      (coherent.flying _ (List.mem_of_getElem? carried))
      (coherent.sound node inside) {}, rfl⟩

theorem Coherent.catchUp
    (coherent : Coherent allowed cluster)
    (id : NodeId)
    (others : List NodeId)
    (page : UInt64)
    (source : NodeId)
    (home : PartitionKey)
    (window : Log.Window) :
    Coherent allowed (cluster.catchUp id others page source home window) := by
  apply coherent.act_quiet
  intro node inside _ store after done
  have sound := coherent.sound node inside
  cases known : (fanout id others page).peer? source with
  | none =>
      simp only [CatchUp.run, known] at done
      cases done
      exact ⟨.refl sound, rfl⟩
  | some found =>
      cases fanout_peer? known
      obtain ⟨theirs, ends, theirsSound, shows, published⟩ :=
        coherent.peer_shows source
      rw [CatchUp.run_eq known] at done
      obtain ⟨grows, same⟩ := CatchUp.resume_grows shows theirsSound
        (fanout id others page).page home window.stop window.start {} sound
      generalize CatchUp.resume (peer source) (fanout id others page).page home
        window.stop
        window.start {} node.store cluster = outcome at grows same done
      obtain ⟨result, store', cluster'⟩ := outcome
      cases done
      refine ⟨grows.weaken ?_, same⟩
      rintro message ⟨_, held, _⟩
      exact .inr (published message held)

theorem Coherent.reconcile
    (coherent : Coherent allowed cluster)
    (id : NodeId)
    (others : List NodeId)
    (page : UInt64)
    (order : List NodeId) :
    Coherent allowed (cluster.reconcile id others page order) := by
  apply coherent.act_quiet
  intro node inside _ store after done
  have sound := coherent.sound node inside
  rcases Reconciliation.run_cases (fanout_quiet id others page cluster) order
      node.store with
    ⟨report, _, nothing⟩ | ⟨source, found, topics, known, _, _, caughtUp⟩
  · rw [nothing] at done
    cases done
    exact ⟨.refl sound, rfl⟩
  · cases fanout_peer? known
    obtain ⟨theirs, ends, theirsSound, shows, published⟩ :=
      coherent.peer_shows source
    obtain ⟨grows, same⟩ :=
      Reconciliation.catchUpAll_grows known shows theirsSound
        node.store.ends (Reconciliation.homes topics)
          { peer := some source } sound
    rw [caughtUp] at done
    generalize Reconciliation.catchUpAll (fanout id others page) source
      node.store.ends
      { peer := some source } node.store cluster (Reconciliation.homes topics) =
        outcome at grows same done
    obtain ⟨report, store', cluster'⟩ := outcome
    cases done
    refine ⟨grows.weaken ?_, same⟩
    rintro message ⟨held, _⟩
    exact .inr (published message held)

/-! ## All steps -/

theorem Coherent.step
    (coherent : Coherent allowed cluster)
    (allows : ∀ home, allowed home (owner home))
    (steps : Step owner cluster after) :
    Coherent allowed after := by
  cases steps with
  | createTopic id topic =>
      apply coherent.act_quiet
      intro node inside _ store after done
      obtain ⟨keyspace, created, done⟩ := bind_eq_ok_iff.1 done
      cases done
      exact ⟨Catalog.grows_createTopic (coherent.sound node inside) created,
        rfl⟩
  | deleteTopic id name user =>
      apply coherent.act_quiet
      intro node inside _ store after done
      obtain ⟨keyspace, deleted, done⟩ := bind_eq_ok_iff.1 done
      cases done
      exact ⟨Catalog.grows_deleteTopic (coherent.sound node inside) deleted,
        rfl⟩
  | publish id others page post owned =>
      exact coherent.publish others page post fun home targeted =>
        owned home targeted ▸ allows home
  | deliver index => exact coherent.deliver index
  | fetch id source home window => exact coherent.fetch id source home window
  | absorb index => exact coherent.absorb index
  | catchUp id others page source home window =>
      exact coherent.catchUp id others page source home window
  | reconcile id others page order =>
      exact coherent.reconcile id others page order
  | restart id ids =>
      apply coherent.act_quiet
      intro node inside _ store after done
      have sound := coherent.sound node inside
      cases done
      rw [sound.reopened_eq]
      exact ⟨(Store.Grows.refl sound).withIds ids, rfl⟩
  | setFaults id isCutOff isDropping =>
      apply coherent.change
      · intro node
        rfl
      · intro node inside _
        exact .refl (coherent.sound node inside)

/-- Where each partition has one publisher, a cluster stays coherent whatever
happens. -/
theorem Reachable.coherent (reached : Reachable owner cluster) :
    Coherent (fun home id => id = owner home) cluster := by
  induction reached with
  | start fresh => exact fresh.coherent
  | step _ steps step => exact step.step (fun _ => rfl) steps

/-- Where any node may publish anywhere, it does so too. -/
theorem Attainable.coherent (reached : Attainable cluster) :
    Coherent (fun _ _ => True) cluster := by
  induction reached with
  | start fresh => exact fresh.coherent
  | step _ steps step => exact step.step (fun _ => trivial) steps

/-- In every reachable cluster, whatever a node holds at an offset of a
partition reads as a message, and the node that publishes there holds the same
message; so any two nodes agree at every offset that both hold. -/
theorem replicas_agree (reached : Reachable owner cluster) :
    (∀ node ∈ cluster.fleet, ∀ home offset,
      Log.Holds node.store.keyspace home offset →
      ∃ message, Log.record? node.store.keyspace home offset = some message ∧
        ∃ publisher ∈ cluster.fleet, publisher.id = owner home ∧
          Log.record? publisher.store.keyspace home offset = some message) ∧
    ∀ first ∈ cluster.fleet, ∀ second ∈ cluster.fleet, ∀ home offset,
      Log.Holds first.store.keyspace home offset →
      Log.Holds second.store.keyspace home offset →
      Log.record? first.store.keyspace home offset =
        Log.record? second.store.keyspace home offset := by
  have coherent := reached.coherent
  have published : ∀ node ∈ cluster.fleet, ∀ home offset,
      Log.Holds node.store.keyspace home offset →
      ∃ message, Log.record? node.store.keyspace home offset = some message ∧
        ∃ publisher ∈ cluster.fleet, publisher.id = owner home ∧
          Log.record? publisher.store.keyspace home offset = some message := by
    intro node inside home offset held
    obtain ⟨message, found⟩ :=
      (Log.Sound.holds_iff (coherent.sound node inside)).1 held
    obtain ⟨contained, rfl, rfl⟩ :=
      Log.Sound.contains_of_record (coherent.sound node inside) found
    exact ⟨message, found, coherent.stored node inside message contained⟩
  refine ⟨published, ?_⟩
  intro first insideFirst second insideSecond home offset heldFirst heldSecond
  obtain ⟨message, found, publisher, inside, owns, held⟩ :=
    published first insideFirst home offset heldFirst
  obtain ⟨message', found', publisher', inside', owns', held'⟩ :=
    published second insideSecond home offset heldSecond
  have known := (Fleet.node?_eq_some_iff coherent.distinct).2 ⟨inside, owns⟩
  rw [(Fleet.node?_eq_some_iff coherent.distinct).2 ⟨inside', owns'⟩] at known
  cases known
  rw [found, found', ← held, held']

/-- A topic is created, and one of its messages is published and delivered. -/
def shared : Cluster :=
  ((pair.createTopic "a" ⟨"t", 1, "u"⟩).publish "a" ["b"] 4
      ⟨"t", "", [7], ""⟩).deliver 0

theorem shared_reachable : Reachable (fun _ => "a") shared :=
  .step (.step (.step (.start pair_isFresh) (.createTopic _ _))
    (.publish _ _ _ _ fun _ _ => rfl))
    (.deliver _)

theorem replicas_agree_shared :
    (∀ node ∈ shared.fleet, Log.Holds node.store.keyspace ⟨"t", 0⟩ 0) ∧
    ∀ first ∈ shared.fleet, ∀ second ∈ shared.fleet,
      Log.record? first.store.keyspace ⟨"t", 0⟩ 0 =
        Log.record? second.store.keyspace ⟨"t", 0⟩ 0 := by
  have held : ∀ node ∈ shared.fleet,
      Log.Holds node.store.keyspace ⟨"t", 0⟩ 0 := by
    decide +kernel
  refine ⟨held, fun first insideFirst second insideSecond => ?_⟩
  exact (replicas_agree shared_reachable).2 first insideFirst second
    insideSecond ⟨"t", 0⟩ 0
    (held first insideFirst) (held second insideSecond)

end Cluster

end MessageBroker
