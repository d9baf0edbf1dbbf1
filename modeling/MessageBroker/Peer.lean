import MessageBroker.Request
import MessageBroker.Response
import MessageBroker.Transport

/-!
# Peers

A peer is another node as this one can use it.  What lies between the two, and
what the other node holds, is the world; every call may change it, whether or
not it succeeds.
-/

namespace MessageBroker

/-- Another node, beyond the world. -/
structure Peer (World : Type) where
  id : NodeId
  /-- Have it store a batch. -/
  replicate : List Message → World → Except TransportError Ack × World
  /-- Read a window of one of its partitions. -/
  range : PartitionKey → Log.Window → World →
    Except TransportError (List Message) × World
  /-- Ask whether it is there. -/
  ping : World → Except TransportError Unit × World

namespace Peer

/-- A call on a part of the world, as a call on the whole. -/
def lift
    {Part World Result : Type}
    (get : World → Part)
    (set : Part → World → World)
    (call : Part → Result × Part)
    (world : World) :
    Result × World :=
  let (found, part) := call (get world)
  (found, set part world)

/-- A peer beyond a part of the world, as a peer beyond the whole. -/
def within
    {Part World : Type}
    (get : World → Part)
    (set : Part → World → World)
    (peer : Peer Part) :
    Peer World where
  id := peer.id
  replicate batch := lift get set (peer.replicate batch)
  range home window := lift get set (peer.range home window)
  ping := lift get set peer.ping

end Peer

end MessageBroker
