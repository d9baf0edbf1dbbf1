import MessageBroker.Json
import MessageBroker.NodeId

/-!
# Rosters

A roster lists the nodes of a cluster in order of precedence, each with the
address at which the others reach it.  It is acceptable when every id and every
address says something and no id comes twice.
-/

namespace MessageBroker.Cluster

/-- A node of a cluster. -/
structure Member where
  id : NodeId
  /-- Its address. -/
  host : String
  deriving DecidableEq

/-- What is wrong with a member of a roster. -/
inductive MemberFault where
  /-- The member at a position has no id. -/
  | emptyId (position : Nat)
  /-- A member has no address. -/
  | emptyHost (id : NodeId)
  /-- An id was used before. -/
  | repeated (id : NodeId)
  deriving DecidableEq

/-- The wording of a member's fault. -/
def MemberFault.message : MemberFault → String
  | .emptyId position => s!"node {position} has an empty id"
  | .emptyHost id => s!"node {id} has an empty host"
  | .repeated id => s!"duplicate node id {id}"

/-- What is wrong with a timing. -/
inductive TimingFault where
  /-- A timeout is zero. -/
  | timeout
  /-- The interval between reconciliations is zero. -/
  | interval
  /-- The page of a catch-up is empty. -/
  | page
  deriving DecidableEq

/-- The wording of a timing's fault. -/
def TimingFault.message : TimingFault → String
  | .timeout => "timeouts must be positive"
  | .interval => "reconcile_interval must be positive"
  | .page => "catch_up_page must be positive"

/-- Why a configuration is refused. -/
inductive ConfigError where
  /-- The file cannot be read as a text. -/
  | unreadable
  /-- The text is no roster. -/
  | malformed
  /-- A member is not acceptable. -/
  | invalidMember (fault : MemberFault)
  /-- A cluster does not list the node itself. -/
  | unknownSelf (id : NodeId)
  /-- The timing is not acceptable. -/
  | invalidTiming (fault : TimingFault)
  deriving DecidableEq

/-- The wording of a refused configuration. -/
def ConfigError.message : ConfigError → String
  | .unreadable => "failed to read the cluster config"
  | .malformed => "invalid cluster config"
  | .invalidMember fault => s!"invalid node: {fault.message}"
  | .unknownSelf id => s!"node {id} is not in the cluster config"
  | .invalidTiming fault => s!"invalid timing: {fault.message}"

/-- The nodes of a cluster, in order of precedence. -/
abbrev Roster := List Member

namespace Roster

/-- A member is acceptable after those that come before it. -/
def checkMember
    (earlier : Roster)
    (member : Member) :
    Except ConfigError Unit :=
  if member.id.isEmpty then .error (.invalidMember (.emptyId earlier.length))
  else if member.host.isEmpty then
    .error (.invalidMember (.emptyHost member.id))
  else if earlier.any (·.id == member.id) then
    .error (.invalidMember (.repeated member.id))
  else .ok ()

/-- The members that follow `earlier` are acceptable; the first one that is not
is reported. -/
def checkFrom (earlier : Roster) : Roster → Except ConfigError Unit
  | [] => .ok ()
  | member :: rest => do
      checkMember earlier member
      checkFrom (earlier ++ [member]) rest

/-- Every member is acceptable; the first one that is not is reported. -/
def check (roster : Roster) : Except ConfigError Unit :=
  checkFrom [] roster

/-- The member that a part of a document describes. -/
def memberOf? (part : Json) : Option Member := do
  match ← part.fields? ["id", "host"] with
  | [id, host] => return ⟨← id.text?, ← host.text?⟩
  | _ => none

/-- The roster that a document describes. -/
def ofDocument? (document : Bytes) : Option Roster := do
  match ← (← Json.parse? document).fields? ["nodes"] with
  | [nodes] => (← nodes.elements).mapM memberOf?
  | _ => none

/-- A member as a part of a document. -/
def describe (member : Member) : String :=
  "\x7b\"id\":" ++ Json.quoted member.id ++ ",\"host\":" ++
    Json.quoted member.host ++ "\x7d"

/-- The document that describes a roster. -/
def document (roster : Roster) : Bytes :=
  Bytes.ofText <| "\x7b\"nodes\":[" ++ ",".intercalate (roster.map describe) ++
    "]\x7d"

/-- Read an acceptable roster from a document. -/
def read (document : Bytes) : Except ConfigError Roster :=
  match ofDocument? document with
  | some roster => do
      roster.check
      return roster
  | none => .error .malformed

end Roster

end MessageBroker.Cluster
