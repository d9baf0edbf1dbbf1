import MessageBroker.Peer

/-!
# A peer that answers from a script

A scripted peer gives prepared answers to requests for windows, one after the
other, and empty pages once it has no more; it remembers what it was asked.
Batches it ignores.
-/

namespace MessageBroker.Peer

/-- The answers that are left and the requests so far. -/
structure Script where
  /-- The answers, next one first. -/
  answers : List (Except TransportError (List Message))
  /-- The requests, first one first. -/
  asked : List (PartitionKey × Log.Window) := []

/-- The peer with a given id that answers from a script. -/
def scripted (id : NodeId) : Peer Script where
  id := id
  replicate _ script := (.ok {}, script)
  range home window script :=
    let asked := script.asked ++ [(home, window)]
    match script.answers with
    | [] => (.ok [], ⟨[], asked⟩)
    | answer :: rest => (answer, ⟨rest, asked⟩)
  ping script := (.ok (), script)

end MessageBroker.Peer
