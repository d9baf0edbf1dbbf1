import MessageBroker.Cluster.Roster

/-!
# Membership

A node knows its own id and the roster of its cluster.  A roster of at most one
node is no cluster, and such a node need not be on it; a node of a cluster must
be.
-/

namespace MessageBroker.Cluster

/-- What a node knows of its cluster. -/
structure Membership where
  /-- The node's own id. -/
  self : NodeId
  roster : Roster
  deriving DecidableEq

/-- The file that may hold a roster. -/
inductive ConfigFile where
  /-- There is no such file. -/
  | missing
  /-- It is a directory. -/
  | directory
  /-- It has this content. -/
  | content (bytes : Bytes)
  deriving DecidableEq

namespace Membership

/-- The membership of a node on its own. -/
def alone (self : NodeId) : Membership :=
  ⟨self, []⟩

/-- The membership that a roster gives a node. -/
def ofRoster
    (self : NodeId)
    (roster : Roster) :
    Except ConfigError Membership := do
  roster.check
  if 1 < roster.length ∧ roster.all (·.id != self) then
    .error (.unknownSelf self)
  else return ⟨self, roster⟩

/-- The membership that a file gives a node. -/
def load (self : NodeId) : ConfigFile → Except ConfigError Membership
  | .missing => .ok (alone self)
  | .directory => .error .unreadable
  | .content bytes =>
      if (Bytes.toText? bytes).isNone then .error .unreadable
      else do ofRoster self (← Roster.read bytes)

/-- Whether there is more than one node. -/
def isClustered (membership : Membership) : Bool :=
  1 < membership.roster.length

/-- The other nodes, in order. -/
def peers (membership : Membership) : Roster :=
  membership.roster.filter (·.id != membership.self)

/-- The node's own address, if the roster has it. -/
def selfHost? (membership : Membership) : Option String :=
  (membership.roster.find? (·.id == membership.self)).map (·.host)

/-- The ids of all nodes in order of precedence. -/
def order (membership : Membership) : List NodeId :=
  if membership.roster.isEmpty then [membership.self]
  else membership.roster.map (·.id)

end Membership

end MessageBroker.Cluster
