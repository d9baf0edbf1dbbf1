import MessageBroker.Broker
import MessageBroker.Fleet
import MessageBroker.Proofs.CatalogRecords
import MessageBroker.Proofs.Reconciling

/-!
# Clusters in motion

A cluster is a fleet and the batches that are on their way to its nodes.
Publishing puts a batch in flight to every peer and waits for nothing.  A batch
in flight may be delivered at any time, again and again, or never; a page that a
node reads from another is in flight too until it is stored, so a catch-up may
come about page by page, with anything in between.

In a `Reachable` cluster every partition has one node that publishes in it, and
in an `Attainable` one any node may publish anywhere.  All else is open: who
creates and deletes which topics, who reconciles or catches up with whom, and
who restarts, is cut off or drops batches.
-/

namespace MessageBroker

/-- Nodes, and what is on its way to them. -/
structure Cluster where
  /-- The nodes. -/
  fleet : Fleet
  /-- The batches on their way, each with the node that it is for. -/
  inFlight : List (NodeId × List Message) := []

namespace Cluster

/-! ## What the nodes do -/

/-- Set the nodes. -/
def withFleet (fleet : Fleet) (cluster : Cluster) : Cluster :=
  { cluster with fleet := fleet }

/-- Set what a node holds. -/
def withStore (cluster : Cluster) (id : NodeId) (store : Store) : Cluster :=
  cluster.withFleet (cluster.fleet.change id fun node =>
    { node with store := store })

/-- Put batches in flight. -/
def send
    (cluster : Cluster)
    (parcels : List (NodeId × List Message)) :
    Cluster :=
  { cluster with inFlight := parcels ++ cluster.inFlight }

/-- A node as the others reach it: it answers at once, but a batch for it is put
in flight, and nobody waits for what becomes of it. -/
def peer (id : NodeId) : Peer Cluster where
  id := id
  replicate batch cluster :=
    (.error (.timedOut id ⟨0⟩), cluster.send [(id, batch)])
  range home window := Peer.lift fleet withFleet (Fleet.range id home window)
  ping := Peer.lift fleet withFleet (Fleet.ping id)

/-- The peers of a node. -/
def fanout
    (self : NodeId)
    (others : List NodeId)
    (page : UInt64) :
    Fanout Cluster :=
  .ofPeers self (others.map peer) page

@[simp]
theorem self_fanout
    (self : NodeId)
    (others : List NodeId)
    (page : UInt64) :
    (fanout self others page).self = self :=
  Fanout.self_ofPeers ..

@[simp]
theorem peers_fanout
    (self : NodeId)
    (others : List NodeId)
    (page : UInt64) :
    (fanout self others page).peers = others.map peer :=
  Fanout.peers_ofPeers ..

/-- Have a node act: it fails, or it gives what it then holds and the cluster
that it leaves. -/
def act
    (cluster : Cluster)
    (id : NodeId)
    (action : Fleet.Node → Except Error (Store × Cluster)) :
    Cluster :=
  match cluster.fleet.node? id with
  | none => cluster
  | some node =>
      match action node with
      | .error _ => cluster
      | .ok (store, after) => after.withStore id store

/-- A node creates a topic. -/
def createTopic
    (cluster : Cluster)
    (id : NodeId)
    (topic : Catalog.Topic) :
    Cluster :=
  cluster.act id fun node => do
    let keyspace ← Catalog.createTopic node.store.keyspace node.limits topic
    return ({ node.store with keyspace := keyspace }, cluster)

/-- A node deletes a topic. -/
def deleteTopic
    (cluster : Cluster)
    (id : NodeId)
    (name user : String) :
    Cluster :=
  cluster.act id fun node => do
    let keyspace ← Catalog.deleteTopic node.store.keyspace name user
    return ({ node.store with keyspace := keyspace }, cluster)

/-- A node publishes a post. -/
def publish
    (cluster : Cluster)
    (id : NodeId)
    (others : List NodeId)
    (page : UInt64)
    (post : Broker.Post) :
    Cluster :=
  cluster.act id fun node => do
    let (_, result) ← Broker.publish node.limits (fanout id others page)
      node.store cluster post
    return result

/-- The partition that a node would store a post in. -/
def target?
    (cluster : Cluster)
    (id : NodeId)
    (post : Broker.Post) :
    Option PartitionKey := do
  let node ← cluster.fleet.node? id
  let count ← (Catalog.partitionCount node.store.keyspace post.topic).toOption
  return ⟨post.topic, .ofKey post.key count⟩

/-- A batch in flight is delivered, and stays in flight. -/
def deliver (cluster : Cluster) (index : Nat) : Cluster :=
  match cluster.inFlight[index]? with
  | none => cluster
  | some (id, batch) =>
      cluster.withFleet (Fleet.replicate id batch cluster.fleet).2

/-- A node is sent a page of another's partition. -/
def fetch
    (cluster : Cluster)
    (id source : NodeId)
    (home : PartitionKey)
    (window : Log.Window) :
    Cluster :=
  match (Fleet.range source home window cluster.fleet).1 with
  | .error _ => cluster
  | .ok page => cluster.send [(id, page)]

/-- A node stores a page that is in flight to it, message by message. -/
def absorb (cluster : Cluster) (index : Nat) : Cluster :=
  match cluster.inFlight[index]? with
  | none => cluster
  | some (id, page) =>
      cluster.act id fun node =>
        return ((node.store.placeAll {} page).2, cluster)

/-- A node catches up on a window of a partition. -/
def catchUp
    (cluster : Cluster)
    (id : NodeId)
    (others : List NodeId)
    (page : UInt64)
    (source : NodeId)
    (home : PartitionKey)
    (window : Log.Window) :
    Cluster :=
  cluster.act id fun node =>
    return (CatchUp.run (fanout id others page) source home window node.store
      cluster).2

/-- A node reconciles. -/
def reconcile
    (cluster : Cluster)
    (id : NodeId)
    (others : List NodeId)
    (page : UInt64)
    (order : List NodeId) :
    Cluster :=
  cluster.act id fun node =>
    return (Reconciliation.run (fanout id others page) order node.store
      cluster).2

/-- A node restarts with a new supply of ids and counts its ends anew. -/
def restart (cluster : Cluster) (id : NodeId) (ids : IdSource) : Cluster :=
  cluster.act id fun node => return (node.store.reopened ids, cluster)

/-- A node becomes reachable or not, and drops the batches that reach it or
not. -/
def setFaults
    (cluster : Cluster)
    (id : NodeId)
    (isCutOff isDropping : Bool) :
    Cluster :=
  cluster.withFleet (cluster.fleet.change id fun node =>
    { node with isCutOff := isCutOff, isDropping := isDropping })

/-! ## Steps -/

/-- One step of a cluster in which `owner` says who publishes in which
partition. -/
inductive Step
    (owner : PartitionKey → NodeId)
    (cluster : Cluster) :
    Cluster → Prop where
  | createTopic (id : NodeId) (topic : Catalog.Topic) :
      Step owner cluster (cluster.createTopic id topic)
  | deleteTopic (id : NodeId) (name user : String) :
      Step owner cluster (cluster.deleteTopic id name user)
  | publish
      (id : NodeId)
      (others : List NodeId)
      (page : UInt64)
      (post : Broker.Post)
      (owned : ∀ home, cluster.target? id post = some home → owner home = id) :
      Step owner cluster (cluster.publish id others page post)
  | deliver (index : Nat) : Step owner cluster (cluster.deliver index)
  | fetch (id source : NodeId) (home : PartitionKey) (window : Log.Window) :
      Step owner cluster (cluster.fetch id source home window)
  | absorb (index : Nat) : Step owner cluster (cluster.absorb index)
  | catchUp
      (id : NodeId)
      (others : List NodeId)
      (page : UInt64)
      (source : NodeId)
      (home : PartitionKey)
      (window : Log.Window) :
      Step owner cluster (cluster.catchUp id others page source home window)
  | reconcile
      (id : NodeId)
      (others : List NodeId)
      (page : UInt64)
      (order : List NodeId) :
      Step owner cluster (cluster.reconcile id others page order)
  | restart
      (id : NodeId)
      (ids : IdSource) :
      Step owner cluster (cluster.restart id ids)
  | setFaults (id : NodeId) (isCutOff isDropping : Bool) :
      Step owner cluster (cluster.setFaults id isCutOff isDropping)

/-- Nodes of different ids that hold nothing, with nothing in flight. -/
structure IsFresh (cluster : Cluster) : Prop where
  distinct : (cluster.fleet.map (·.id)).Nodup
  empty : ∀ node ∈ cluster.fleet, ∃ ids, node.store = .empty ids
  quiet : cluster.inFlight = []

/-- Two nodes that hold nothing. -/
def pair : Cluster where
  fleet := [⟨"a", {}, .empty (.series 0), false, false, 0⟩,
    ⟨"b", {}, .empty (.series 1), false, false, 0⟩]

theorem pair_isFresh : pair.IsFresh where
  distinct := by decide
  empty := by
    intro node inside
    rcases List.mem_cons.1 inside with rfl | inside
    · exact ⟨.series 0, rfl⟩
    · rw [List.mem_singleton.1 inside]
      exact ⟨.series 1, rfl⟩
  quiet := rfl

/-- The clusters that fresh ones can come to. -/
inductive Reachable (owner : PartitionKey → NodeId) : Cluster → Prop where
  | start
      {cluster : Cluster}
      (fresh : cluster.IsFresh) :
      Reachable owner cluster
  | step {before after : Cluster} (reached : Reachable owner before)
      (steps : Step owner before after) : Reachable owner after

/-- The clusters that fresh ones can come to, whoever publishes where: each step
may have its own owners. -/
inductive Attainable : Cluster → Prop where
  | start {cluster : Cluster} (fresh : cluster.IsFresh) : Attainable cluster
  | step {before after : Cluster} (reached : Attainable before)
      {owner : PartitionKey → NodeId} (steps : Step owner before after) :
      Attainable after

theorem Reachable.attainable
    {owner : PartitionKey → NodeId}
    {cluster : Cluster}
    (reached : Reachable owner cluster) :
    Attainable cluster := by
  induction reached with
  | start fresh => exact .start fresh
  | step _ steps step => exact .step step steps

end Cluster

end MessageBroker
