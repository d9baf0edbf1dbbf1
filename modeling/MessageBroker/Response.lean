import MessageBroker.Message

/-!
# Responses between nodes

Each kind of request has its kind of response, and any request may be answered
by a failure in words.
-/

namespace MessageBroker

/-- How many messages of a batch were stored, and how many were there before. -/
structure Ack where
  /-- Messages stored. -/
  applied : UInt32 := 0
  /-- Messages found at offsets already taken. -/
  duplicates : UInt32 := 0
  deriving DecidableEq

/-- What a node answers another. -/
inductive Response where
  /-- The batch was stored. -/
  | ack (counts : Ack)
  /-- The messages of the window. -/
  | batch (messages : List Message)
  /-- The node is there. -/
  | pong
  /-- The request failed. -/
  | failure (message : String)
  deriving DecidableEq

end MessageBroker
