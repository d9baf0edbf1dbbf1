import MessageBroker.Error
import MessageBroker.Frame
import MessageBroker.NodeId
import MessageBroker.Text.Duration

/-!
# What can go wrong between nodes

An error between nodes names the peer where there is one.  Seen from a node's
operations it is a failed replication to that peer; a failure without a peer is
laid to the address, or to a peer that is not known.
-/

namespace MessageBroker

/-- Why an exchange with another node failed. -/
inductive TransportError where
  /-- An address cannot be listened at. -/
  | bindFailed (address reason : String)
  /-- There is no way to a peer. -/
  | connectFailed (peer : NodeId) (address reason : String)
  /-- A peer did not answer in time. -/
  | timedOut (peer : NodeId) (limit : Duration)
  /-- A peer ended the connection before it had answered. -/
  | closed (peer : NodeId)
  /-- A peer answered with a failure. -/
  | remote (peer : NodeId) (message : String)
  /-- A peer answered another kind of request. -/
  | unexpectedResponse (peer : NodeId)
  /-- A frame is not acceptable. -/
  | codec (fault : FrameError)
  /-- The connection broke. -/
  | broken (reason : String)
  deriving DecidableEq

namespace TransportError

/-- The name of an error's kind, by which programs tell errors apart. -/
def kind : TransportError → String
  | .bindFailed .. => "BindFailed"
  | .connectFailed .. => "ConnectFailed"
  | .timedOut .. => "Timeout"
  | .closed _ => "Closed"
  | .remote .. => "Remote"
  | .unexpectedResponse _ => "UnexpectedResponse"
  | .codec _ => "Codec"
  | .broken _ => "Io"

/-- The wording of an error between nodes. -/
def message : TransportError → String
  | .bindFailed address reason => s!"failed to bind to {address}: {reason}"
  | .connectFailed peer address reason =>
      s!"failed to connect to peer {peer} at {address}: {reason}"
  | .timedOut peer limit =>
      s!"request to peer {peer} timed out after {limit.text}"
  | .closed peer => s!"connection to peer {peer} closed"
  | .remote peer message => s!"peer {peer} returned error: {message}"
  | .unexpectedResponse peer => s!"unexpected response from peer {peer}"
  | .codec fault => s!"codec error: {fault.message}"
  | .broken reason => s!"I/O error: {reason}"

/-- Whom an error is laid to. -/
def culprit : TransportError → String
  | .bindFailed address _ => address
  | .connectFailed peer _ _ => peer
  | .timedOut peer _ => peer
  | .closed peer => peer
  | .remote peer _ => peer
  | .unexpectedResponse peer => peer
  | .codec _ => "unknown"
  | .broken _ => "unknown"

/-- An error between nodes as an operation reports it. -/
def toError (error : TransportError) : Error :=
  .replication error.culprit error.message

end TransportError

end MessageBroker
