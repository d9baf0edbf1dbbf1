import MessageBroker.Broker
import MessageBroker.Client
import MessageBroker.Reconciliation

/-!
# Nodes

A node starts from its options, its cluster's roster and what it has stored.
Everything is checked in order, and the first thing that is not acceptable keeps
the node from starting.  A node of a cluster listens at its own address, which
is the one in its options or else the one in the roster.
-/

namespace MessageBroker

/-- How a node is set up. -/
structure Node.Options where
  id : NodeId
  /-- The file with the roster, if one is named. -/
  config : Option Cluster.ConfigFile := none
  /-- The address to listen at, if it is not the one in the roster. -/
  listen : Option String := none
  /-- How its queues behave. -/
  queue : Queue.Settings := {}
  /-- How it deals with others. -/
  timing : Cluster.Timing := {}
  /-- What it admits. -/
  limits : Limits := {}

/-- Why a node does not start. -/
inductive Node.StartError where
  /-- Its configuration is refused. -/
  | config (error : Cluster.ConfigError)
  /-- It cannot listen. -/
  | transport (error : TransportError)
  /-- Its settings are refused, or what it has stored is damaged or out of
  reach. -/
  | broker (error : Error)
  /-- It has no address. -/
  | missingSelfHost (id : NodeId)
  deriving DecidableEq

/-- A running node. -/
structure Node where
  /-- How it was set up. -/
  options : Node.Options
  /-- What it knows of its cluster. -/
  membership : Cluster.Membership
  /-- The address that it listens at, if it is in a cluster. -/
  address : Option String
  /-- What it holds. -/
  store : Store

namespace Node

/-- The wording of a failed start. -/
def StartError.message : StartError → String
  | .config error => s!"configuration error: {error.message}"
  | .transport error => s!"transport error: {error.message}"
  | .broker error => error.message
  | .missingSelfHost id => s!"no peer address configured for node {id}"

/-- The settings are usable; the first one that is not is reported. -/
def Options.check (options : Options) : Except StartError Unit := do
  options.queue.validate.mapError .broker
  options.timing.validate.mapError .config
  options.limits.validate.mapError .broker

/-- The membership that the options give. -/
def Options.membership (options : Options) :
    Except StartError Cluster.Membership :=
  match options.config with
  | some file => (Cluster.Membership.load options.id file).mapError .config
  | none => .ok (.alone options.id)

/-- The store with its ends counted anew, where it can be opened at all. -/
def openStore (disk : Option Store) : Except StartError Store :=
  match disk with
  | some store => store.forgetful.rebuild.mapError .broker
  | none => .error (.broker (.storage "open" .unavailable))

/-- The address at which a node of a cluster listens. -/
def Options.address
    (options : Options)
    (membership : Cluster.Membership) :
    Except StartError String :=
  match options.listen <|> membership.selfHost? with
  | some address => .ok address
  | none => .error (.missingSelfHost options.id)

/-- Listen at the node's address, if it is in a cluster. -/
def Options.listenAt
    (options : Options)
    (membership : Cluster.Membership)
    (bind : String → Except String Unit) :
    Except StartError (Option String) :=
  if membership.isClustered then do
    let address ← options.address membership
    match bind address with
    | .ok () => return some address
    | .error reason => .error (.transport (.bindFailed address reason))
  else .ok none

/-- Start a node on what it has stored, if that can be opened; `bind` says which
addresses can be listened at. -/
def start
    (options : Options)
    (disk : Option Store)
    (bind : String → Except String Unit) :
    Except StartError Node := do
  options.check
  let membership ← options.membership
  let store ← openStore disk
  let address ← options.listenAt membership bind
  return ⟨options, membership, address, store⟩

variable {World : Type}

/-- The peers of a node over a network. -/
def fanout
    (node : Node)
    (network : Network World) :
    Fanout (Client.Lines World) :=
  .ofMembership node.membership node.options.timing
    (Client.reach network node.options.timing)

/-- The first node in order of precedence that can be reached. -/
def leader
    (node : Node)
    (network : Network World)
    (lines : Client.Lines World) :
    NodeId × Client.Lines World :=
  Leader.firstOf (node.fanout network) lines node.membership.order

/-- Reconcile, if the node is in a cluster. -/
def reconcile
    (node : Node)
    (network : Network World)
    (lines : Client.Lines World) :
    Option Reconciliation.Report × Node × Client.Lines World :=
  if node.membership.isClustered then
    let (report, store, lines) :=
      Reconciliation.run (node.fanout network) node.membership.order
        node.store lines
    (some report, { node with store := store }, lines)
  else (none, node, lines)

/-- Store a post and send its message to every peer. -/
def publish
    (node : Node)
    (network : Network World)
    (lines : Client.Lines World)
    (post : Broker.Post) :
    Except Error (Broker.Receipt × Node × Client.Lines World) := do
  let (receipt, store, lines) ←
    Broker.publish node.options.limits (node.fanout network) node.store
      lines post
  return (receipt, { node with store := store }, lines)

end Node

end MessageBroker
