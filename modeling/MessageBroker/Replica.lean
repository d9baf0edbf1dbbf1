import MessageBroker.Frame
import MessageBroker.Limits
import MessageBroker.Request
import MessageBroker.Response
import MessageBroker.Store

/-!
# What a node does for others

A node stores the batches that others send it and reads out the windows that
they ask for.  A batch is stored message by message; where one fails, those
before it stay.  A window is cut to a page that one frame can carry, but a page
of a window that holds messages is never empty.
-/

namespace MessageBroker

/-- The tally of a batch as others are told it. -/
def Ack.ofTally (tally : Tally) : Ack :=
  ⟨.ofNat tally.applied, .ofNat tally.duplicates⟩

namespace Replica

/-- Store a batch of messages at the offsets they have. -/
def replicate
    (limits : Limits)
    (store : Store)
    (batch : List Message) :
    Except Error Ack × Store :=
  if limits.batchMessages.toNat < batch.length then
    (.error (.invalidArgument "batch"
      (.overBatch batch.length limits.batchMessages)), store)
  else
    let (result, store) := store.placeAll {} batch
    (result.map Ack.ofTally, store)

/-- The messages that a page of a window may have. -/
def pageMessages (limits : Limits) (window : Log.Window) : Nat :=
  match window.stop with
  | some stop =>
      min (stop.toNat - window.start.toNat) limits.rangeMessages.toNat
  | none => limits.rangeMessages.toNat

/-- The stored bytes that a page may have. -/
def pageBytes (limits : Limits) : Nat :=
  min limits.frameBytes.toNat Frame.maxBody - Limits.batchOverhead

/-- Read a page of a window. -/
def range
    (limits : Limits)
    (keyspace : Keyspace)
    (home : PartitionKey)
    (window : Log.Window) :
    Except Error (List Message) :=
  Log.read keyspace home window (pageMessages limits window) (pageBytes limits)

/-- What is found, or the failure in words. -/
def answer {α : Type} (respond : α → Response) : Except Error α → Response
  | .ok found => respond found
  | .error error => .failure error.message

/-- Do what another node asks. -/
def handle (limits : Limits) (store : Store) : Request → Response × Store
  | .replicate batch =>
      let (result, store) := replicate limits store batch
      (answer .ack result, store)
  | .range home window =>
      (answer .batch (range limits store.keyspace home window), store)
  | .ping => (.pong, store)

end Replica

end MessageBroker
