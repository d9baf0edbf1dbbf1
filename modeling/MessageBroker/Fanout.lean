import MessageBroker.Cluster.Membership
import MessageBroker.Cluster.Timing
import MessageBroker.Peer

/-!
# Fanouts

A fanout holds all peers of a node, in order, and how many offsets the node asks
one of them for at a time.  A node without peers has an inert fanout.

A broadcast sends one batch to every peer and collects the acknowledgements; a
peer that fails is left out and costs the others nothing.
-/

namespace MessageBroker

/-- The peers of a node. -/
structure Fanout (World : Type) where
  /-- The node itself. -/
  self : NodeId
  /-- Its peers, in order. -/
  peers : List (Peer World)
  /-- The offsets that one request spans. -/
  page : UInt64
  /-- There is at least one. -/
  page_pos : 0 < page.toNat

namespace Fanout

variable {World : Type}

/-- The fanout of a node with given peers; a page of no offsets counts as
one. -/
def ofPeers
    (self : NodeId)
    (peers : List (Peer World))
    (page : UInt64) :
    Fanout World :=
  if positive : 0 < page.toNat then ⟨self, peers, page, positive⟩
  else ⟨self, peers, 1, by decide⟩

@[simp]
theorem self_ofPeers
    (self : NodeId)
    (peers : List (Peer World))
    (page : UInt64) :
    (ofPeers self peers page).self = self := by
  unfold ofPeers
  split <;> rfl

@[simp]
theorem peers_ofPeers
    (self : NodeId)
    (peers : List (Peer World))
    (page : UInt64) :
    (ofPeers self peers page).peers = peers := by
  unfold ofPeers
  split <;> rfl

/-- The fanout that a membership gives a node that reaches its peers in a given
way; on its own it has none. -/
def ofMembership
    (membership : Cluster.Membership)
    (timing : Cluster.Timing)
    (reach : Cluster.Member → Peer World) :
    Fanout World :=
  let peers := if membership.isClustered then membership.peers.map reach else []
  ofPeers membership.self peers timing.page

section

variable (membership : Cluster.Membership) (timing : Cluster.Timing)
  (reach : Cluster.Member → Peer World)

@[simp]
theorem self_ofMembership :
    (ofMembership membership timing reach).self = membership.self :=
  self_ofPeers ..

theorem peers_ofMembership :
    (ofMembership membership timing reach).peers =
      if membership.isClustered then membership.peers.map reach else [] :=
  peers_ofPeers ..

end

/-- Whether there are no peers. -/
def isInert (fanout : Fanout World) : Bool :=
  fanout.peers.isEmpty

/-- The ids of the peers, in order. -/
def ids (fanout : Fanout World) : List NodeId :=
  fanout.peers.map (·.id)

/-- The peer of that id, if there is one. -/
def peer? (fanout : Fanout World) (id : NodeId) : Option (Peer World) :=
  fanout.peers.find? (·.id == id)

/-- The diagnostic text of a fanout. -/
def debug (fanout : Fanout World) : String :=
  let peers := ", ".intercalate (fanout.ids.map NodeId.debug)
  "Fanout \x7b self_id: " ++ NodeId.debug fanout.self ++ ", peers: [" ++
    peers ++ "], page: "
    ++ toString fanout.page ++ " \x7d"

/-! ## Broadcasts -/

/-- What became of a broadcast. -/
structure Broadcast where
  /-- How many peers the batch was sent to. -/
  sent : Nat := 0
  /-- What they answered, those that failed left out. -/
  acks : List Ack := []
  deriving DecidableEq

/-- Send a batch to peers in turn. -/
def send
    (batch : List Message)
    (world : World) :
    List (Peer World) → Broadcast × World
  | [] => ({}, world)
  | peer :: rest =>
      let (answer, world) := peer.replicate batch world
      let (others, world) := send batch world rest
      let acks := match answer with
        | .ok ack => ack :: others.acks
        | .error _ => others.acks
      (⟨others.sent + 1, acks⟩, world)

/-- Send a batch to every peer; an empty one is not sent. -/
def broadcast
    (fanout : Fanout World)
    (batch : List Message)
    (world : World) :
    Broadcast × World :=
  if batch.isEmpty then ({}, world) else send batch world fanout.peers

end Fanout

end MessageBroker
