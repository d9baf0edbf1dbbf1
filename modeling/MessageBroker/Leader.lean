import MessageBroker.Fanout

/-!
# Precedence among nodes

Nodes hold no election.  The leader is the first node in order of precedence
that can be reached, the node itself counting as reachable; the source from
which a node reconciles is the first other node that can be reached.  A node
that is not among the peers cannot be reached.
-/

namespace MessageBroker.Leader

variable {World : Type}

/-- Whether the node of that id gives a sign of life. -/
def isReachable
    (fanout : Fanout World)
    (id : NodeId)
    (world : World) :
    Bool × World :=
  match fanout.peer? id with
  | none => (false, world)
  | some peer =>
      let (answer, world) := peer.ping world
      (answer.isOk, world)

/-- The first node of an order that is the node itself or can be reached. -/
def firstOf
    (fanout : Fanout World)
    (world : World) :
    List NodeId → NodeId × World
  | [] => (fanout.self, world)
  | id :: rest =>
      if id = fanout.self then (id, world)
      else
        let (reachable, world) := isReachable fanout id world
        if reachable then (id, world) else firstOf fanout world rest

/-- The first other node of an order that can be reached. -/
def source?
    (fanout : Fanout World)
    (world : World) :
    List NodeId → Option NodeId × World
  | [] => (none, world)
  | id :: rest =>
      if id = fanout.self then source? fanout world rest
      else
        let (reachable, world) := isReachable fanout id world
        if reachable then (some id, world) else source? fanout world rest

end MessageBroker.Leader
