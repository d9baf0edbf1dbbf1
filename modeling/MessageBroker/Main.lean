import MessageBroker.CommandLine
import MessageBroker.Keyspace.Snapshot

/-!
# The server

The program reads its command line, the roster and the stored records, starts
the node, and keeps the records for the next run.  It stays until its input
ends.
-/

namespace MessageBroker.Server

/-- The content of a file, or what there is instead. -/
def readConfig (path : String) : IO Cluster.ConfigFile := do
  try
    return .content (← IO.FS.readBinFile path).toList
  catch
    | .noFileOrDirectory .. => return .missing
    | _ => return .directory

/-- The file of records in a directory. -/
def recordsFile (directory : String) : String :=
  directory ++ "/records"

/-- The records of an earlier run, none where there was no such run. -/
def readRecords (directory : String) : IO (Option Keyspace) := do
  try
    IO.FS.createDirAll directory
    return Keyspace.ofSnapshot?
      (← IO.FS.readBinFile (recordsFile directory)).toList
  catch
    | .noFileOrDirectory .. => return some .empty
    | _ => return none

/-- Run a server. -/
def serve (arguments : CommandLine.Arguments) : IO UInt32 := do
  let config ← readConfig arguments.clusterConfig
  let records ← readRecords arguments.dataDirectory
  let seed ← IO.monoNanosNow
  let disk := records.map fun keyspace => ⟨keyspace, .empty, .series seed⟩
  match CommandLine.boot arguments config disk fun _ => .ok () with
  | .error error =>
      IO.eprintln error.message
      return 1
  | .ok node =>
      let snapshot := node.store.keyspace.toSnapshot.toByteArray
      IO.FS.writeBinFile (recordsFile arguments.dataDirectory) snapshot
      IO.eprintln "Node ready"
      let _ ← (← IO.getStdin).getLine
      return 0

end MessageBroker.Server

/-- Run the server that a command line asks for. -/
def main (arguments : List String) : IO UInt32 := do
  match MessageBroker.CommandLine.Arguments.read arguments with
  | .error message =>
      IO.eprintln message
      return 2
  | .ok arguments => MessageBroker.Server.serve arguments
