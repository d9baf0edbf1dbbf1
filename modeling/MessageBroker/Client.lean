import MessageBroker.Cluster.Timing
import MessageBroker.Peer
import MessageBroker.Request.Codec
import MessageBroker.Response.Codec

/-!
# Calling a peer over a network

A client keeps at most one connection to its peer.  A call connects where there
is none, sends the frame of the request and reads chunks until they make up the
frame of a response; what is left of the last chunk is dropped, chunks that were
not read wait for the next call.

A response keeps the connection, also one that reports a failure or answers
another kind of request.  Every other error drops it, except that a request
without a frame is not sent at all.
-/

namespace MessageBroker

/-! ## Networks -/

/-- How a connection attempt ends. -/
inductive Attempt where
  /-- There is a connection. -/
  | connected
  /-- The attempt is refused. -/
  | refused (reason : String)
  /-- Nothing happens. -/
  | silent
  deriving DecidableEq

/-- How the arrivals on a connection end. -/
inductive Ending where
  /-- The other side has ended the connection. -/
  | closed
  /-- Nothing more happens. -/
  | silent
  deriving DecidableEq

/-- What arrives on a connection. -/
structure Arrivals where
  /-- Chunks of bytes, first one first. -/
  chunks : List Bytes
  /-- What follows them. -/
  ending : Ending

/-- A way to reach addresses and to have something sent back. -/
structure Network (World : Type) where
  /-- Connect to an address. -/
  connect : String → World → Attempt × World
  /-- Send bytes on the connection. -/
  transmit : Bytes → World → Arrivals × World

/-- A network on which every attempt is refused for one reason. -/
def Network.refusing {World : Type} (reason : String) : Network World where
  connect _ world := (.refused reason, world)
  transmit _ world := (⟨[], .closed⟩, world)

/-! ## Clients -/

/-- A client of one peer. -/
structure Client (World : Type) where
  peer : NodeId
  address : String
  /-- How long to wait. -/
  timing : Cluster.Timing
  network : Network World

/-- A client's connection, if it has one, and the world beyond. -/
structure Line (World : Type) where
  /-- The chunks that have arrived and were not read, where there is a
  connection. -/
  unread : Option (List Bytes) := none
  world : World

namespace Client

variable {World : Type}

/-- Why a connection attempt failed, given how long the caller waits for a
response. -/
def attemptError?
    (client : Client World)
    (limit : Duration) :
    Attempt → Option TransportError
  | .connected => none
  | .refused reason => some (.connectFailed client.peer client.address reason)
  | .silent =>
      if client.timing.connect.nanoseconds ≤ limit.nanoseconds then
        some (.connectFailed client.peer client.address "connection timed out")
      else some (.timedOut client.peer limit)

/-- The connection, made where there is none; its chunks that were not read. -/
def connection
    (client : Client World)
    (limit : Duration)
    (line : Line World) :
    Except TransportError (List Bytes) × World :=
  match line.unread with
  | some unread => (.ok unread, line.world)
  | none =>
      let (attempt, world) := client.network.connect client.address line.world
      match client.attemptError? limit attempt with
      | none => (.ok [], world)
      | some error => (.error error, world)

/-- Why there is no response once everything has arrived. -/
def shortfall
    (client : Client World)
    (limit : Duration)
    (ending : Ending) :
    FrameError → TransportError
  | .incomplete .. =>
      match ending with
      | .closed => .closed client.peer
      | .silent => .timedOut client.peer limit
  | fault => .codec fault

/-- Read chunks until they make up a response, `arrived` being what is there
already. -/
def await
    (client : Client World)
    (limit : Duration)
    (ending : Ending)
    (arrived : Bytes) :
    List Bytes → Except TransportError (Response × List Bytes)
  | [] =>
      match Response.decode arrived with
      | .ok (response, _) => .ok (response, [])
      | .error fault => .error (client.shortfall limit ending fault)
  | chunk :: rest =>
      match Response.decode arrived with
      | .ok (response, _) => .ok (response, chunk :: rest)
      | .error (.incomplete ..) =>
          await client limit ending (arrived ++ chunk) rest
      | .error fault => .error (.codec fault)

/-- Send a frame and read the response. -/
def exchange
    (client : Client World)
    (limit : Duration)
    (frame : Bytes)
    (unread : List Bytes)
    (world : World) :
    Except TransportError Response × Line World :=
  let (arrivals, world) := client.network.transmit frame world
  match client.await limit arrivals.ending [] (unread ++ arrivals.chunks) with
  | .error error => (.error error, ⟨none, world⟩)
  | .ok (.failure message, unread) =>
      (.error (.remote client.peer message), ⟨some unread, world⟩)
  | .ok (response, unread) => (.ok response, ⟨some unread, world⟩)

/-- Have a peer do something, waiting no longer than a limit. -/
def call
    (client : Client World)
    (limit : Duration)
    (request : Request)
    (line : Line World) :
    Except TransportError Response × Line World :=
  match request.encode with
  | .error fault => (.error (.codec fault), line)
  | .ok frame =>
      match client.connection limit line with
      | (.error error, world) => (.error error, ⟨none, world⟩)
      | (.ok unread, world) => client.exchange limit frame unread world

/-- A response of the kind that was asked for. -/
def expected
    {Found : Type}
    (client : Client World)
    (select : Response → Option Found)
    (answer : Except TransportError Response) :
    Except TransportError Found := do
  match select (← answer) with
  | some found => return found
  | none => .error (.unexpectedResponse client.peer)

/-- Call a peer and select from its response. -/
def ask
    {Found : Type}
    (client : Client World)
    (limit : Duration)
    (select : Response → Option Found)
    (request : Request)
    (line : Line World) :
    Except TransportError Found × Line World :=
  let (answer, line) := client.call limit request line
  (client.expected select answer, line)

/-- The counts of an acknowledgement. -/
def counts? : Response → Option Ack
  | .ack counts => some counts
  | _ => none

/-- The messages of a batch. -/
def messages? : Response → Option (List Message)
  | .batch messages => some messages
  | _ => none

/-- A sign of life. -/
def sign? : Response → Option Unit
  | .pong => some ()
  | _ => none

/-- The peer that a client calls. -/
def toPeer (client : Client World) : Peer (Line World) where
  id := client.peer
  replicate batch := client.ask client.timing.request counts? (.replicate batch)
  range home window :=
    client.ask client.timing.request messages? (.range home window)
  ping := client.ask client.timing.probe sign? .ping

/-! ## Peers with a line each -/

/-- Every peer's line. -/
abbrev Lines (World : Type) := NodeId → Line World

/-- The lines with one of them replaced. -/
def setLine
    (id : NodeId)
    (line : Line World)
    (lines : Lines World) :
    Lines World :=
  fun other => if other = id then line else lines other

/-- The peer behind its own line. -/
def reach
    (network : Network World)
    (timing : Cluster.Timing)
    (member : Cluster.Member) :
    Peer (Lines World) :=
  (toPeer ⟨member.id, member.host, timing, network⟩).within (· member.id)
    (setLine member.id)

end Client

end MessageBroker
