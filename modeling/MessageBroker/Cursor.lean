import MessageBroker.Keyspace.Record
import MessageBroker.Limits

/-!
# Reading positions

A group of readers keeps one offset for every partition that it reads: where it
goes on.  Positions are set, not advanced, so a group may go back.
-/

namespace MessageBroker.Cursor

/-- The position of a group in a partition, if it has set one. -/
def position?
    (keyspace : Keyspace)
    (group : String)
    (home : PartitionKey) :
    Except Error (Option Offset) :=
  keyspace.counter? "get_offset" (.cursor group home)

/-- Set the position of a group in a partition. -/
def commit
    (keyspace : Keyspace)
    (limits : Limits)
    (group : String)
    (home : PartitionKey)
    (offset : Offset) :
    Except Error Keyspace := do
  limits.checkName "group" group
  return keyspace.setCounter (.cursor group home) offset

end MessageBroker.Cursor
