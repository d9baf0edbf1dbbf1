import MessageBroker.Log.Ends
import MessageBroker.Queue

/-!
# What a node holds

A node's records outlive it; the ends that it remembers and its supply of fresh
ids do not.  Storing a message raises the remembered end of its partition
together with the stored one, and uses up a fresh id only where the message came
without an id.

A change that fails leaves everything as it was, and a run of changes ends at
the first that fails.  The medium itself never fails here: `Medium` says which
keys it would refuse, and its other failures are left out.
-/

namespace MessageBroker

/-- How many messages were stored, and how many were there before. -/
structure Tally where
  /-- Messages stored. -/
  applied : Nat := 0
  /-- Messages found at offsets already taken. -/
  duplicates : Nat := 0
  deriving DecidableEq

/-- The tally with one more message. -/
def Tally.add (tally : Tally) : Log.Outcome → Tally
  | .applied => { tally with applied := tally.applied + 1 }
  | .duplicate => { tally with duplicates := tally.duplicates + 1 }

/-- A node's records, its memory of partition ends and its supply of ids. -/
structure Store where
  /-- The records. -/
  keyspace : Keyspace
  /-- The remembered ends. -/
  ends : Ends
  /-- The supply of ids. -/
  ids : IdSource

namespace Store

/-- A store without records. -/
def empty (ids : IdSource) : Store :=
  ⟨.empty, .empty, ids⟩

/-- The supply of ids once a message has its id. -/
def idsAfter (store : Store) (message : Message) : IdSource :=
  if message.id.isNil then store.ids.advance else store.ids

/-- Store a message at the next offset of its partition. -/
def append
    (store : Store)
    (message : Message) :
    Except Error (Message × Store) := do
  let appended ← Log.append store.keyspace store.ids.upcoming message
  let ends := store.ends.raise message.home appended.next
  return (appended.message, ⟨appended.keyspace, ends, store.idsAfter message⟩)

/-- Store a message at the offset it has, unless that offset is taken. -/
def place
    (store : Store)
    (message : Message) :
    Except Error (Log.Outcome × Store) := do
  let placed ← Log.place store.keyspace store.ids.upcoming message
  let ends := store.ends.raise message.home placed.next
  return (placed.outcome, ⟨placed.keyspace, ends, store.idsAfter message⟩)

/-- Store messages in turn at the offsets they have, up to the first that fails;
those before it stay. -/
def placeAll
    (tally : Tally)
    (store : Store) :
    List Message → Except Error Tally × Store
  | [] => (.ok tally, store)
  | message :: rest =>
      match store.place message with
      | .ok (outcome, store) => placeAll (tally.add outcome) store rest
      | .error error => (.error error, store)

/-- Put a message at the tail of a queue. -/
def enqueue
    (store : Store)
    (queue : String)
    (message : Message) :
    Except Error (MessageId × Store) := do
  let enqueued ← Queue.enqueue store.keyspace store.ids.upcoming queue message
  return (enqueued.id, ⟨enqueued.keyspace, store.ends, store.idsAfter message⟩)

/-- The remembered end of a partition, zero where there is none. -/
def next (store : Store) (home : PartitionKey) : Offset :=
  store.ends.next home

/-- The store without its memory of ends, as it is right after a restart. -/
def forgetful (store : Store) : Store :=
  { store with ends := .empty }

/-- Count the ends of all partitions from the records. -/
def rebuild (store : Store) : Except Error Store := do
  return { store with ends := ← Ends.rebuild store.keyspace }

end Store

end MessageBroker
