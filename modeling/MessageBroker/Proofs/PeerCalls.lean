import MessageBroker.Fleet
import MessageBroker.Proofs.ServedStreams

/-!
# A peer over a network is the peer itself

A client sends the frame of a request, the node that it calls serves the
connection, and the client reads until it has the frame of a response.  Where
the network carries the bytes of both sides unaltered, it does not matter how it
cuts them into chunks: a part of a frame is never taken for the whole, and the
whole is not waited beyond.  So a call gives what the node does when it is asked
in place, and leaves the node as that does.

What a peer reports as a failure comes back as such, in its words.  That is also
how a response comes back that has no frame.  No other error occurs.
-/

namespace MessageBroker

/-! ## Parts of frames -/

/-- A front of a frame without its end is no whole frame. -/
theorem Frame.partial_of_front
    {front more body : Bytes}
    (small : body.length ≤ maxBody)
    (whole : front ++ more = Bytes.littleEndian headerSize body.length ++ body)
    (missing : more ≠ []) :
    Partial front := by
  have some : 0 < more.length := List.length_pos_iff.2 missing
  have lengths := congrArg List.length whole
  rw [List.length_append, List.length_append, Bytes.length_littleEndian]
    at lengths
  by_cases short : front.length < headerSize
  · exact .inl short
  · have long : headerSize ≤ front.length := Nat.le_of_not_lt short
    have header : front.take headerSize =
        Bytes.littleEndian headerSize body.length := by
      have fronts := congrArg (List.take headerSize) whole
      rw [List.take_append_of_le_length long,
        List.take_left' (Bytes.length_littleEndian headerSize body.length)]
          at fronts
      exact fronts
    refine .inr ⟨body.length, front.drop headerSize, small, ?_, ?_⟩
    · rw [← header, List.take_append_drop]
    · rw [List.length_drop]
      omega

namespace Client

variable {World : Type} (client : Client World)

/-- Chunks that make up a frame are read to the last, and give its response. -/
theorem await_of_frame
    (limit : Duration)
    (ending : Ending)
    {response : Response}
    {frame : Bytes}
    (encoded : response.encode = .ok frame)
    {chunks : List Bytes}
    {arrived : Bytes}
    (some : ∀ chunk ∈ chunks, chunk ≠ [])
    (whole : arrived ++ chunks.flatten = frame) :
    client.await limit ending arrived chunks = .ok (response, []) := by
  induction chunks generalizing arrived with
  | nil =>
      have read := Response.faithful.decodes response frame encoded []
      rw [List.flatten_nil, List.append_nil] at whole
      rw [List.append_nil, ← whole] at read
      simp only [await, read]
  | cons chunk rest step =>
      obtain ⟨here, later⟩ := List.forall_mem_cons.1 some
      rw [List.flatten_cons] at whole
      obtain ⟨_, small, framed⟩ :=
        (Response.faithful.encodes response frame).1 encoded
      have part : Frame.Partial arrived := by
        refine Frame.partial_of_front small (whole.trans framed) ?_
        exact List.append_ne_nil_of_left_ne_nil here _
      obtain ⟨needed, found, short⟩ :=
        Response.runsShort_decode_iff.2 (.inl part)
      simp only [await, short]
      exact step later (by rw [List.append_assoc]; exact whole)

end Client

/-! ## Networks that carry bytes unaltered -/

/-- The serving side of a connection to a node, and what the node holds. -/
structure Host where
  connection : Connection
  store : Store

/-- A network whose connections reach a node that serves them.  The bytes sent
arrive there in some chunks, and what the node sends comes back in chunks that
have some bytes each. -/
structure Network.Carries
    {World : Type}
    (network : Network World)
    (limits : Limits)
    (host : World → Host) :
    Prop where
  connects : ∀ address world,
    (network.connect address world).1 = .connected ∧
      host (network.connect address world).2 = ⟨{}, (host world).store⟩
  transmits : ∀ bytes world, ∃ chunks : List Bytes,
    ∃ progress : Connection.Progress, chunks.flatten = bytes ∧
      chunks.foldl (Connection.Progress.receive limits)
          ⟨[], (host world).connection, (host world).store⟩ =
        progress ∧
      host (network.transmit bytes world).2 =
        ⟨progress.connection, progress.store⟩ ∧
      (network.transmit bytes world).1.chunks.flatten = progress.bytes ∧
      ∀ chunk ∈ (network.transmit bytes world).1.chunks, chunk ≠ []

/-- A network that brings every byte by itself. -/
def Network.bytewise (limits : Limits) : Network Host where
  connect _ host := (.connected, ⟨{}, host.store⟩)
  transmit bytes host :=
    let progress :=
      (bytes.map fun byte => [byte]).foldl (Connection.Progress.receive limits)
        ⟨[], host.connection, host.store⟩
    (⟨progress.bytes.map fun byte => [byte], .silent⟩,
      ⟨progress.connection, progress.store⟩)

theorem Network.carries_bytewise (limits : Limits) :
    (bytewise limits).Carries limits id where
  connects _ _ := ⟨rfl, rfl⟩
  transmits bytes host := by
    have whole : ∀ bytes : Bytes,
        (bytes.map fun byte => [byte]).flatten = bytes := by
      intro bytes
      rw [← List.flatMap_def, List.flatMap_singleton']
    refine ⟨bytes.map fun byte => [byte], _, whole bytes, rfl, rfl, whole _, ?_⟩
    intro chunk inside
    obtain ⟨byte, _, rfl⟩ := List.mem_map.1 inside
    exact List.cons_ne_nil _ _

/-- Nothing is under way: there is no connection, or one on which both sides
have read everything. -/
def Line.Idle {World : Type} (host : World → Host) (line : Line World) : Prop :=
  ∀ unread, line.unread = some unread → unread = [] ∧
    (host line.world).connection = {}

/-! ## Calls -/

namespace Connection

/-- A connection that brings one request is sent the frame of its answer. -/
theorem serve_request
    {limits : Limits}
    {store : Store}
    {request : Request}
    {chunks : List Bytes}
    {frame answer : Bytes}
    (encoded : request.encode = .ok frame)
    (whole : chunks.flatten = frame)
    (framed : responseFrame (Replica.handle limits store request).1 =
      .ok answer) :
    (serve limits store chunks).bytes = answer ∧
    (serve limits store chunks).connection = {} ∧
    (serve limits store chunks).store =
      (Replica.handle limits store request).2 := by
  have read := Request.faithful.decodes request frame encoded []
  rw [List.append_nil] at read
  have alike := serve_alike limits store chunks
  rw [whole, answerAll_of_ok read, framed] at alike
  simp only [answerAll_nil] at alike
  have isOpen := alike.fault
  exact ⟨alike.bytes_eq.trans (by simp [Progress.bytes]),
    alike.connection_eq isOpen, alike.store⟩

end Connection

namespace Client

variable {World : Type} {client : Client World} {limits : Limits}
  {host : World → Host} {line : Line World} {request : Request} {frame : Bytes}

/-- A response as a call gives it: a failure is an error of the peer, in its
words, and so is the reason why a response has no frame. -/
def relayed
    (client : Client World)
    (response : Response) :
    Except TransportError Response :=
  match response.encode with
  | .ok _ =>
      match response with
      | .failure message => .error (.remote client.peer message)
      | found => .ok found
  | .error fault => .error (.remote client.peer fault.message)

/-- What a node did, as it comes back over a network. -/
def carried
    {Found : Type}
    (client : Client World)
    (respond : Found → Response) :
    Except Error Found → Except TransportError Found
  | .ok found =>
      match (respond found).encode with
      | .ok _ => .ok found
      | .error fault => .error (.remote client.peer fault.message)
  | .error error => .error (.remote client.peer error.message)

theorem exchange_of_answer
    {response : Response}
    {answer : Bytes}
    (framed : Connection.responseFrame response = .ok answer)
    (limit : Duration)
    (world : World)
    (each : ∀ chunk ∈ (client.network.transmit frame world).1.chunks,
      chunk ≠ [])
    (whole : (client.network.transmit frame world).1.chunks.flatten = answer) :
    client.exchange limit frame [] world =
      (client.relayed response,
        ⟨some [], (client.network.transmit frame world).2⟩) := by
  have arrives : [] ++ (client.network.transmit frame world).1.chunks.flatten =
      answer :=
    whole
  unfold Connection.responseFrame at framed
  split at framed
  · rename_i own encoded
    cases framed
    have read := client.await_of_frame limit
      (client.network.transmit frame world).1.ending encoded each arrives
    simp only [exchange, List.nil_append, read, relayed, encoded]
    cases response <;> rfl
  · rename_i fault refused
    have read := client.await_of_frame limit
      (client.network.transmit frame world).1.ending framed each arrives
    simp only [exchange, List.nil_append, read, relayed, refused]

/-- On an idle line there is a connection on which nothing is under way, or one
is made. -/
theorem connection_of_idle
    (carries : client.network.Carries limits host)
    (idle : line.Idle host)
    (limit : Duration) :
    ∃ world, client.connection limit line = (.ok [], world) ∧
      host world = ⟨{}, (host line.world).store⟩ := by
  cases unread : line.unread with
  | none =>
      obtain ⟨connected, reached⟩ := carries.connects client.address line.world
      refine ⟨(client.network.connect client.address line.world).2, ?_, reached⟩
      simp only [connection, unread, connected, attemptError?]
  | some chunks =>
      obtain ⟨rfl, fresh⟩ := idle chunks unread
      refine ⟨line.world, by simp only [connection, unread], ?_⟩
      rw [← fresh]

/-- A call gives what the node answers, and leaves the line idle and the node as
that does. -/
theorem call_of_frame
    (carries : client.network.Carries limits host)
    (idle : line.Idle host)
    (measurable : (host line.world).store.Measurable)
    (limit : Duration)
    (encoded : request.encode = .ok frame) :
    ∃ after,
      client.call limit request line =
        (client.relayed
            (Replica.handle limits (host line.world).store request).1, after) ∧
      after.Idle host ∧
      (host after.world).store =
        (Replica.handle limits (host line.world).store request).2 := by
  obtain ⟨world, connected, reached⟩ := connection_of_idle carries idle limit
  obtain ⟨answer, framed⟩ :=
    @Replica.exists_answer_frame limits _ _ _ encoded measurable
  obtain ⟨chunks, progress, whole, served, left, back, each⟩ :=
    carries.transmits frame world
  rw [reached] at served
  obtain ⟨sent, fresh, store⟩ := Connection.serve_request encoded whole framed
  rw [Connection.serve, served] at sent fresh store
  have given := exchange_of_answer framed limit world each (back.trans sent)
  refine ⟨⟨some [], (client.network.transmit frame world).2⟩, ?_, ?_, ?_⟩
  · rw [call, encoded]
    simp only [connected]
    exact given
  · rintro unread ⟨⟩
    rw [left]
    exact ⟨rfl, fresh⟩
  · rw [left]
    exact store

/-! ## Peers -/

/-- The words of an error fit a frame. -/
theorem relayed_failure
    {error : Error}
    (brief : error.Brief) :
    client.relayed (.failure error.message) =
      .error (.remote client.peer error.message) := by
  have fits : (Response.failure error.message).Fits := trivial
  have few : error.message.utf8ByteSize ≤ 70000 := brief
  have room : 4 + 70000 + 1 ≤ Frame.maxBody := by decide
  obtain ⟨frame, encoded⟩ := (Response.faithful.exists_frame_iff fits).2 (by
    rw [Response.body, List.length_cons, Response.length_layout, Response.size]
    omega)
  simp only [relayed, encoded]

/-- What is selected from a response that is relayed is what the node did. -/
theorem expected_relayed
    {Found : Type}
    (respond : Found → Response)
    (select : Response → Option Found)
    (selects : ∀ found, select (respond found) = some found)
    (rejects : ∀ message, select (.failure message) = none)
    (result : Except Error Found)
    (brief : ∀ error, result = .error error → error.Brief) :
    client.expected select (client.relayed (Replica.answer respond result)) =
      client.carried respond result := by
  cases result with
  | error error =>
      rw [Replica.answer, relayed_failure (brief error rfl)]
      rfl
  | ok found =>
      have isOther : ∀ message, respond found ≠ .failure message := by
        intro message same
        have chosen := selects found
        rw [same, rejects] at chosen
        cases chosen
      simp only [Replica.answer, relayed, carried]
      cases (respond found).encode with
      | error fault => rfl
      | ok frame =>
          simp only [expected, ok_bind, selects]
          rfl

theorem carried_ack (result : Except Error Ack) :
    client.carried .ack result = Fleet.reported client.peer result := by
  cases result with
  | error error => rfl
  | ok counts =>
      have fits : (Response.ack counts).Fits := trivial
      obtain ⟨frame, encoded⟩ := (Response.faithful.exists_frame_iff fits).2 (by
        rw [Response.body, List.length_cons, Response.length_layout,
          Response.size]
        decide)
      simp only [carried, encoded, Fleet.reported]

/-- Whatever fails at a node or on the way back is an error of the peer. -/
theorem remote_of_carried
    {Found : Type}
    {respond : Found → Response}
    {result : Except Error Found}
    {error : TransportError}
    (failed : client.carried respond result = .error error) :
    ∃ words, error = .remote client.peer words := by
  unfold carried at failed
  split at failed
  · split at failed
    · cases failed
    · cases failed
      exact ⟨_, rfl⟩
  · cases failed
    exact ⟨_, rfl⟩

/-- Over a network that carries bytes unaltered, every call whose request has a
frame gives what the node does when it is asked in place, and leaves the node as
that does: a response as it is, a failure or the reason why a response has no
frame as an error of the peer, in the same words.  So a peer stores batches,
reads windows and gives signs of life as the node itself does, and whatever
fails is an error of the peer. -/
theorem calls_agree
    (carries : client.network.Carries limits host)
    (idle : line.Idle host)
    (measurable : (host line.world).store.Measurable) :
    (∀ limit request frame, Request.encode request = .ok frame →
      ∃ after,
        client.call limit request line =
          (client.relayed
              (Replica.handle limits (host line.world).store request).1,
            after) ∧
        after.Idle host ∧
        (host after.world).store =
          (Replica.handle limits (host line.world).store request).2 ∧
        (host after.world).store.Measurable) ∧
    (∀ batch frame, (Request.replicate batch).encode = .ok frame →
      (client.toPeer.replicate batch line).1 =
        Fleet.reported client.peer
          (Replica.replicate limits (host line.world).store batch).1 ∧
      ∀ error, (client.toPeer.replicate batch line).1 = .error error →
        ∃ words, error = .remote client.peer words) ∧
    (∀ home window frame, (Request.range home window).encode = .ok frame →
      (client.toPeer.range home window line).1 =
        client.carried .batch
          (Replica.range limits (host line.world).store.keyspace home window) ∧
      ∀ error, (client.toPeer.range home window line).1 = .error error →
        ∃ words, error = .remote client.peer words) ∧
    (client.toPeer.ping line).1 = .ok () := by
  refine ⟨fun limit request frame encoded => ?_, fun batch frame encoded => ?_,
    fun home window frame encoded => ?_, ?_⟩
  · obtain ⟨after, given, still, store⟩ :=
      call_of_frame carries idle measurable limit encoded
    refine ⟨after, given, still, store, ?_⟩
    rw [store]
    exact Replica.measurable_handle measurable
  · obtain ⟨after, given, _⟩ :=
      call_of_frame carries idle measurable client.timing.request encoded
    have same : (client.toPeer.replicate batch line).1 =
        client.carried .ack
          (Replica.replicate limits (host line.world).store batch).1 := by
      rw [← expected_relayed .ack counts? (fun _ => rfl) (fun _ => rfl) _
        fun _ failed => Replica.brief_of_replicate encoded measurable failed]
      simp only [toPeer, ask, given, Replica.handle]
    refine ⟨same.trans (carried_ack _), fun error failed => ?_⟩
    exact remote_of_carried (same.symm.trans failed)
  · obtain ⟨after, given, _⟩ :=
      call_of_frame carries idle measurable client.timing.request encoded
    have same : (client.toPeer.range home window line).1 =
        client.carried .batch
          (Replica.range limits (host line.world).store.keyspace home
            window) := by
      rw [← expected_relayed .batch messages? (fun _ => rfl) (fun _ => rfl) _
        fun _ failed => Replica.brief_of_range failed]
      simp only [toPeer, ask, given, Replica.handle]
    exact ⟨same, fun error failed => remote_of_carried (same.symm.trans failed)⟩
  · obtain ⟨after, given, _⟩ :=
      @call_of_frame _ client limits host line .ping _ carries idle measurable
        client.timing.probe rfl
    simp only [toPeer, ask, given, Replica.handle]
    rfl

/-- A node is sent one of two messages byte by byte.  It stores the one, and
refuses the other because no offset follows its own. -/
theorem calls_agree_bytewise :
    let client : Client Host := ⟨"n2", "a:1", {}, .bytewise {}⟩
    let line : Line Host := ⟨none, ⟨{}, .empty (.series 0)⟩⟩
    (client.toPeer.replicate [{ topic := "t" }] line).1 = .ok ⟨1, 0⟩ ∧
    (client.toPeer.replicate
          [{ topic := "t", offset := 18446744073709551615 }] line).1 =
      .error (.remote "n2"
        "invalid argument 'offset': t/0 is full at offset 18446744073709551615") := by
  intro client line
  have carries : client.network.Carries {} id := Network.carries_bytewise {}
  have idle : line.Idle id := fun _ unread => nomatch unread
  have measurable : (id line.world).store.Measurable :=
    Keyspace.Measurable.empty
  obtain ⟨_, replicates, _⟩ := calls_agree carries idle measurable
  exact ⟨(replicates _ _ rfl).1.trans (by decide +kernel),
    (replicates _ _ rfl).1.trans (by decide +kernel)⟩

end Client

end MessageBroker
