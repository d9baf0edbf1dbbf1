import MessageBroker.Node
import MessageBroker.Text.Decimal
import MessageBroker.Text.Fields

/-!
# The command line

A server is told who it is, where its data is, and which topics should be there
once it is ready.  A topic is written as its name, a colon and its count of
partitions; one that is already there, or that the catalog refuses, is passed
over.
-/

namespace MessageBroker.CommandLine

/-- A topic that should be there. -/
structure TopicSpec where
  name : String
  /-- Its count of partitions. -/
  partitions : UInt32
  deriving DecidableEq

/-- Read a topic from an argument. -/
def TopicSpec.read (argument : String) : Except String TopicSpec :=
  match Fields.splitOnce? ':' argument.toList with
  | none =>
      .error s!"invalid topic format '{argument}', expected 'name:partitions'"
  | some (name, partitions) =>
      if name.isEmpty then .error "topic name cannot be empty"
      else match Decimal.read? UInt32.size partitions with
        | none =>
            .error
              s!"invalid partition count '{String.ofList partitions}' in topic '{argument}'"
        | some 0 => .error "partition count must be positive"
        | some count => .ok ⟨String.ofList name, .ofNat count⟩

/-- What a server is told. -/
structure Arguments where
  /-- The node's id. -/
  node : NodeId := "n1"
  /-- The directory of its data. -/
  dataDirectory : String := "data"
  /-- The file with the roster. -/
  clusterConfig : String := "cluster.json"
  /-- The address to listen at, if it is not the one in the roster. -/
  listen : Option String := none
  /-- The topics that should be there, in order. -/
  topics : List TopicSpec := []
  /-- Who creates them. -/
  creator : String := "admin"

namespace Arguments

/-- The arguments with one more option and its value. -/
def add
    (arguments : Arguments)
    (option value : String) :
    Except String Arguments :=
  match option with
  | "--node-id" => .ok { arguments with node := value }
  | "--data-dir" => .ok { arguments with dataDirectory := value }
  | "--cluster-config" => .ok { arguments with clusterConfig := value }
  | "--listen-addr" => .ok { arguments with listen := some value }
  | "--creator" => .ok { arguments with creator := value }
  | "--topic" => do
      return { arguments with topics :=
        arguments.topics ++ [← TopicSpec.read value] }
  | _ => .error s!"unexpected argument '{option}' found"

/-- Read options, each with its value after an equals sign or in the next
argument. -/
def readOnto (arguments : Arguments) : List String → Except String Arguments
  | [] => .ok arguments
  | argument :: rest =>
      match Fields.splitOnce? '=' argument.toList, rest with
      | some (option, value), rest => do
          readOnto
            (← arguments.add (String.ofList option) (String.ofList value)) rest
      | none, value :: rest => do readOnto (← arguments.add argument value) rest
      | none, [] =>
          .error s!"a value is required for '{argument}' but none was supplied"

/-- Read a command line; the first argument that is not acceptable is
reported. -/
def read (arguments : List String) : Except String Arguments :=
  readOnto {} arguments

/-- The options of the node that a server runs. -/
def options
    (arguments : Arguments)
    (config : Cluster.ConfigFile) :
    Node.Options where
  id := arguments.node
  config := some config
  listen := arguments.listen

/-- Create the topics that are not there yet. -/
def createTopics (arguments : Arguments) (node : Node) : Node :=
  arguments.topics.foldl
    (fun node topic =>
      let entry := ⟨topic.name, topic.partitions, arguments.creator⟩
      match Catalog.createTopic node.store.keyspace node.options.limits
          entry with
      | .ok keyspace =>
          { node with store := { node.store with keyspace := keyspace } }
      | .error _ => node)
    node

end Arguments

/-- Start the node that a command line asks for, with its topics. -/
def boot
    (arguments : Arguments)
    (config : Cluster.ConfigFile)
    (disk : Option Store)
    (bind : String → Except String Unit) :
    Except Node.StartError Node := do
  return arguments.createTopics
    (← Node.start (arguments.options config) disk bind)

end MessageBroker.CommandLine
