import MessageBroker.Peer
import MessageBroker.Replica

/-!
# Nodes that reach each other directly

Several nodes in one place reach each other without frames and connections.  A
node of such a fleet can be cut off, so that every call to it fails, or made to
drop the batches that others send it, which it counts.
-/

namespace MessageBroker

/-- A node of a fleet. -/
structure Fleet.Node where
  id : NodeId
  limits : Limits
  /-- What it holds. -/
  store : Store
  /-- Whether it is cut off. -/
  isCutOff : Bool := false
  /-- Whether it drops batches. -/
  isDropping : Bool := false
  /-- How many batches it has dropped. -/
  dropped : Nat := 0

/-- Nodes in one place. -/
abbrev Fleet := List Fleet.Node

namespace Fleet

/-- The node of that id, if there is one. -/
def node? (fleet : Fleet) (id : NodeId) : Option Node :=
  fleet.find? (·.id == id)

/-- Change the node of that id. -/
def change (fleet : Fleet) (id : NodeId) (update : Node → Node) : Fleet :=
  fleet.map fun node => if node.id == id then update node else node

/-- The failure of a call to a node that is cut off. -/
def unreachable (id : NodeId) : TransportError :=
  .connectFailed id "local" "unreachable"

/-- The node of that id, if it can be reached. -/
def reach (fleet : Fleet) (id : NodeId) : Except TransportError Node :=
  match fleet.node? id with
  | some node => if node.isCutOff then .error (unreachable id) else .ok node
  | none => .error (unreachable id)

/-- What a node did, an error of its own being a failure that it reports. -/
def reported {α : Type} (id : NodeId) : Except Error α → Except TransportError α
  | .ok found => .ok found
  | .error error => .error (.remote id error.message)

/-- Have a node store a batch. -/
def replicate
    (id : NodeId)
    (batch : List Message)
    (fleet : Fleet) :
    Except TransportError Ack × Fleet :=
  match fleet.reach id with
  | .error error => (.error error, fleet)
  | .ok node =>
      if node.isDropping then
        (.error (.timedOut id ⟨0⟩),
          fleet.change id fun node => { node with dropped := node.dropped + 1 })
      else
        let (result, store) := Replica.replicate node.limits node.store batch
        (reported id result, fleet.change id fun node =>
          { node with store := store })

/-- Read a window of a partition of a node. -/
def range
    (id : NodeId)
    (home : PartitionKey)
    (window : Log.Window)
    (fleet : Fleet) :
    Except TransportError (List Message) × Fleet :=
  match fleet.reach id with
  | .error error => (.error error, fleet)
  | .ok node =>
      (reported id (Replica.range node.limits node.store.keyspace home window),
        fleet)

/-- Ask whether a node is there. -/
def ping (id : NodeId) (fleet : Fleet) : Except TransportError Unit × Fleet :=
  ((fleet.reach id).map fun _ => (), fleet)

/-- A node of the fleet as the others can use it. -/
def peer (id : NodeId) : Peer Fleet where
  id := id
  replicate := replicate id
  range := range id
  ping := ping id

end Fleet

end MessageBroker
