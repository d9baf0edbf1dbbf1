import MessageBroker.Replica
import MessageBroker.Request.Codec
import MessageBroker.Response.Codec

/-!
# Serving a connection

Bytes arrive in chunks, cut anywhere.  A connection keeps what does not make up
a frame yet, answers every whole frame in order, and ends at the first that is
not acceptable; what was answered before stays answered.

A request is handled by a task of its own.  Where such a task breaks off instead
of ending, its connection answers a failure that says so.  Only a medium that
refuses a key makes a task break off, so that answer is left out here.
-/

namespace MessageBroker

/-- The serving side of a connection. -/
structure Connection where
  /-- What has arrived and was not answered yet. -/
  waiting : Bytes := []
  /-- Why the connection was ended, once it was. -/
  fault : Option FrameError := none
  deriving DecidableEq

namespace Connection

/-- The frame of a response, or of the failure to make one. -/
def responseFrame (response : Response) : Except FrameError Bytes :=
  match response.encode with
  | .ok frame => .ok frame
  | .error fault => (Response.failure fault.message).encode

/-- What a connection has sent and where it stands. -/
structure Progress where
  /-- The bytes sent, in pieces, last one first. -/
  sent : List Bytes := []
  connection : Connection
  store : Store

/-- All bytes sent, in order. -/
def Progress.bytes (progress : Progress) : Bytes :=
  progress.sent.reverse.flatten

/-- Answer the whole frames at the front of the bytes. -/
def answerAll
    (limits : Limits)
    (store : Store)
    (sent : List Bytes)
    (bytes : Bytes) :
    Progress :=
  if bytes.isEmpty then ⟨sent, {}, store⟩
  else match _read : Request.decode bytes with
    | .ok (request, rest) =>
        let (response, store) := Replica.handle limits store request
        match responseFrame response with
        | .ok frame => answerAll limits store (frame :: sent) rest
        | .error fault => ⟨sent, ⟨rest, some fault⟩, store⟩
    | .error (.incomplete ..) => ⟨sent, ⟨bytes, none⟩, store⟩
    | .error fault => ⟨sent, ⟨bytes, some fault⟩, store⟩
termination_by bytes.length
decreasing_by exact Request.length_lt_of_decode _read

/-- Take in one more chunk; a connection that has ended takes in nothing. -/
def Progress.receive
    (limits : Limits)
    (progress : Progress)
    (chunk : Bytes) :
    Progress :=
  if progress.connection.fault.isSome then progress
  else answerAll limits progress.store progress.sent
    (progress.connection.waiting ++ chunk)

/-- Serve a connection that brings these chunks. -/
def serve (limits : Limits) (store : Store) (chunks : List Bytes) : Progress :=
  chunks.foldl (Progress.receive limits) ⟨[], {}, store⟩

end Connection

end MessageBroker
