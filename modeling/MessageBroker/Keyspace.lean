import MessageBroker.Bytes.Order
import MessageBroker.OrderedMap

/-!
# The keyspace

A node keeps everything in one ordered map from byte strings to byte strings.
Records of different kinds are told apart by how their keys begin, and a scan
takes the entries of one kind, or of one part of it, in key order.
-/

namespace MessageBroker

instance : StrictOrder Bytes where
  irrefl := List.lt_irrefl
  trans := List.lt_trans
  trichotomy := Bytes.lt_trichotomy

/-- An ordered map from byte strings to byte strings. -/
abbrev Keyspace := OrderedMap Bytes Bytes

namespace Keyspace

/-- The entries whose keys begin with a stem, in key order. -/
def withStem (keyspace : Keyspace) (stem : String) : List (Bytes × Bytes) :=
  let stem := Bytes.ofText stem
  keyspace.entries.filter fun entry => stem.isPrefixOf entry.1

/-- The entries from one key up to but not including another, in key order. -/
def between (keyspace : Keyspace) (start stop : Bytes) : List (Bytes × Bytes) :=
  keyspace.entries.filter fun entry =>
    decide (¬ entry.1 < start) && decide (entry.1 < stop)

/-- The longest front of the entries whose values, with `total` bytes already
taken, stay within a budget. -/
def whileWithin (budget total : Nat) :
    List (Bytes × Bytes) → List (Bytes × Bytes)
  | [] => []
  | entry :: rest =>
      if total + entry.2.length ≤ budget then
        entry :: whileWithin budget (total + entry.2.length) rest
      else []

/-- The longest front of the entries whose values stay within a budget, and the
first entry whatever its size. -/
def fitting (budget : Nat) : List (Bytes × Bytes) → List (Bytes × Bytes)
  | [] => []
  | entry :: rest => entry :: whileWithin budget entry.2.length rest

end Keyspace

end MessageBroker
