/-!
# Node ids

A node is known by a name of its own choosing.
-/

namespace MessageBroker

/-- The name of a node. -/
abbrev NodeId := String

/-- The diagnostic text of a node id. -/
def NodeId.debug (id : NodeId) : String :=
  s!"node({id})"

end MessageBroker
