import MessageBroker.Log

/-!
# Requests between nodes

A node asks three things of another: to store a batch of messages at the offsets
they have, to read a window of a partition, and to say that it is there.
-/

namespace MessageBroker

/-- What a node asks of another. -/
inductive Request where
  /-- Store these messages at the offsets they have. -/
  | replicate (batch : List Message)
  /-- Read a window of a partition. -/
  | range (home : PartitionKey) (window : Log.Window)
  /-- Say that you are there. -/
  | ping
  deriving DecidableEq

end MessageBroker
