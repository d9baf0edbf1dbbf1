import MessageBroker.Log
import MessageBroker.Partition.Order

/-!
# The index of partition ends

A node remembers the next offset of every partition that it has written, so that
it need not ask the keyspace.  The memory only rises.  After a restart it is
counted anew from the keys of the stored messages; a partition that holds the
greatest offset cannot be counted, and then the memory is left as it was.
-/

namespace MessageBroker

/-- The next offset of every remembered partition. -/
abbrev Ends := OrderedMap PartitionKey Offset

namespace Ends

/-- The remembered end of a partition, zero where there is none. -/
def next (ends : Ends) (home : PartitionKey) : Offset :=
  (ends.get? home).getD 0

/-- Raise the end of a partition; a lower one is ignored, but remembers the
partition. -/
def raise (ends : Ends) (home : PartitionKey) (candidate : Offset) : Ends :=
  match ends.get? home with
  | some current =>
      if current < candidate then ends.insert home candidate else ends
  | none => ends.insert home candidate

/-- The greatest stored offset of every partition, among entries whose keys read
as messages. -/
def greatest (entries : List (Bytes × Bytes)) : Ends :=
  (entries.filterMap fun entry => Key.readMessage? entry.1).foldl
    (fun found (home, offset) => found.raise home offset) .empty

/-- The greatest stored offset of every partition. -/
def stored (keyspace : Keyspace) : Ends :=
  greatest (keyspace.withStem Key.messages)

/-- Add the end after one greatest offset. -/
def addSuccessor
    (ends : Ends)
    (entry : PartitionKey × Offset) :
    Except Error Ends := do
  return ends.insert entry.1 (← Log.successor entry.1 entry.2)

/-- Count the ends of all partitions from the stored messages. -/
def rebuild (keyspace : Keyspace) : Except Error Ends :=
  (stored keyspace).entries.foldlM addSuccessor .empty

end Ends

end MessageBroker
