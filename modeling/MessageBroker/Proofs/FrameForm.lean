import MessageBroker.Proofs.FrameFields
import MessageBroker.Request.Codec
import MessageBroker.Response.Codec

/-!
# Frames carry requests and responses exactly

A kind of value is framed faithfully when its writer frames just the values
whose fields and whose body fit, and its reader gets those values back, whatever
follows the frame.  Readers take more than writers write: they pass over bytes
after the fields, and over an unused end of a window.  But what they take has a
frame of its own, no longer than what was read.

Requests and responses write a tag and fields and read them back, so one
argument serves both; what is left to each is what its fields say.
-/

namespace MessageBroker

namespace Frame

/-- The frames of a kind of value are those of the values that fit, and say just
those values. -/
structure Faithful
    {Value : Type}
    (encode : Value → Except FrameError Bytes)
    (decode : Bytes → Except FrameError (Value × Bytes))
    (Fits : Value → Prop)
    (body : Value → Bytes) :
    Prop where
  encodes : ∀ value frame, encode value = .ok frame ↔
    Fits value ∧ (body value).length ≤ maxBody ∧
      frame = Bytes.littleEndian headerSize (body value).length ++ body value
  decodes : ∀ value frame, encode value = .ok frame →
    ∀ rest, decode (frame ++ rest) = .ok (value, rest)
  recodes : ∀ bytes value rest, decode bytes = .ok (value, rest) →
    ∃ read frame, bytes = read ++ rest ∧ encode value = .ok frame ∧
      frame.length ≤ read.length ∧ decode frame = .ok (value, [])

/-- A value that fits has a frame exactly when the longest body has room for
it. -/
theorem Faithful.exists_frame_iff
    {Value : Type}
    {encode : Value → Except FrameError Bytes}
    {decode : Bytes → Except FrameError (Value × Bytes)}
    {Fits : Value → Prop}
    {body : Value → Bytes}
    (faithful : Faithful encode decode Fits body)
    {value : Value}
    (fits : Fits value) :
    (∃ frame, encode value = .ok frame) ↔ (body value).length ≤ maxBody := by
  constructor
  · rintro ⟨frame, encoded⟩
    exact ((faithful.encodes value frame).1 encoded).2.1
  · intro room
    exact ⟨_, (faithful.encodes value _).2 ⟨fits, room, rfl⟩⟩

/-- A kind of value is framed faithfully when its fields are read back and take
no more bytes than they were read from.  A reader may pass over bytes after the
fields, so what was read may be framed in fewer. -/
theorem Faithful.of_fields
    {Value : Type}
    {Fits : Value → Prop}
    {check : Value → Except FrameError Unit}
    {tag : Value → UInt8}
    {size : Value → Nat}
    {layout : Value → Bytes}
    {ofFields : UInt8 → Bytes → Except FrameError Value}
    (checks : ∀ value, check value = .ok () ↔ Fits value)
    (sized : ∀ value, (layout value).length = size value)
    (reads : ∀ value, Fits value → size value < maxBody →
      ofFields (tag value) (layout value) = .ok value)
    (accepts : ∀ first fields value, ofFields first fields = .ok value →
      Fits value ∧ size value ≤ fields.length) :
    Faithful
      (fun value => do
        check value
        enclose (tag value) (size value) fun _ => layout value)
      (fun bytes => do
        let found ← find bytes
        return (← ofFields found.tag found.fields, found.rest))
      Fits
      (fun value => tag value :: layout value) := by
  have encodes : ∀ value frame,
      (do check value; enclose (tag value) (size value) fun _ => layout value) =
          .ok frame ↔
        Fits value ∧
        size value + 1 ≤ maxBody ∧
        frame =
          Bytes.littleEndian headerSize (size value + 1) ++ tag value ::
            layout value := by
    intro value frame
    rw [bind_eq_ok_iff]
    constructor
    · rintro ⟨⟨⟩, checked, enclosed⟩
      exact ⟨(checks value).1 checked, enclose_eq_ok_iff.1 enclosed⟩
    · rintro ⟨fits, enclosed⟩
      exact ⟨(), (checks value).2 fits, enclose_eq_ok_iff.2 enclosed⟩
  have decodes : ∀ value, Fits value → size value + 1 ≤ maxBody → ∀ rest,
      (do
        let found ← find
          (Bytes.littleEndian headerSize (size value + 1) ++
            tag value :: layout value ++ rest)
        return (← ofFields found.tag found.fields, found.rest)) =
      .ok (value, rest) := by
    intro value fits small rest
    rw [← sized value] at small ⊢
    have found : find
          (Bytes.littleEndian headerSize ((layout value).length + 1) ++
            tag value :: layout value ++ rest) =
        .ok ⟨tag value, layout value, rest⟩ :=
      find_eq_ok_iff.2 ⟨small, rfl⟩
    rw [found, ok_bind, reads value fits (sized value ▸ small), ok_bind]
    rfl
  constructor
  case encodes =>
      intro value frame
      rw [encodes, List.length_cons, sized]
  case decodes =>
      intro value frame encoded rest
      obtain ⟨fits, small, rfl⟩ := (encodes value frame).1 encoded
      exact decodes value fits small rest
  case recodes =>
      intro bytes value rest decoded
      obtain ⟨⟨first, fields, after⟩, found, decoded⟩ :=
        bind_eq_ok_iff.1 decoded
      obtain ⟨value', accepted, same⟩ := bind_eq_ok_iff.1 decoded
      cases same
      obtain ⟨small, rfl⟩ := find_eq_ok_iff.1 found
      obtain ⟨fits, shorter⟩ := accepts first fields value accepted
      have smaller : size value + 1 ≤ maxBody :=
        Nat.le_trans (Nat.succ_le_succ shorter) small
      refine ⟨_, _, rfl, (encodes value _).2 ⟨fits, smaller, rfl⟩, ?_, ?_⟩
      · simp only [List.length_append, Bytes.length_littleEndian,
          List.length_cons, sized]
        omega
      · have whole := decodes value fits smaller []
        rw [List.append_nil] at whole
        exact whole

end Frame

/-! ## Requests -/

namespace Request

/-- Every message and the topic of a request fit their lengths. -/
def Fits : Request → Prop
  | .replicate batch => ∀ message ∈ batch, message.Fits
  | .range home _ => home.topic.utf8ByteSize ≤ 65535
  | .ping => True

/-- The body of a request's frame. -/
def body (request : Request) : Bytes :=
  request.tag :: request.layout

theorem check_eq_ok_iff (request : Request) :
    request.check = .ok () ↔ request.Fits := by
  cases request with
  | replicate batch => exact Frame.checkBatch_eq_ok_iff
  | range home window =>
      have fits : Message.checkLength .topic 2 home.topic.utf8ByteSize =
            .ok () ↔
          home.topic.utf8ByteSize ≤ 65535 :=
        Message.checkLength_eq_ok_iff
      rw [check, Fits, ← fits]
      cases Message.checkLength .topic 2 home.topic.utf8ByteSize <;> simp
  | ping => simp [check, Fits]

theorem length_layout (request : Request) :
    request.layout.length = request.size := by
  cases request with
  | replicate batch => exact Frame.length_batchLayout batch
  | range home window =>
      simp [layout, size, windowSize, Message.prefixed, Bytes.length_ofText]
      omega
  | ping => rfl

/-- The fields of a window's request say its topic, its bounds and whether the
second one counts. -/
theorem readRange_eq_ok_iff
    {fields : Bytes}
    {request : Request} :
    readRange fields = .ok request ↔
      ∃ topic partition start bounded stop rest,
        topic.utf8ByteSize < Bytes.capacity 2 ∧
        partition < Bytes.capacity 4 ∧
        start < Bytes.capacity 8 ∧
        bounded < Bytes.capacity 1 ∧
        stop < Bytes.capacity 8 ∧
        fields =
          Message.prefixed 2 (Bytes.ofText topic) ++
            Bytes.littleEndian 4 partition ++ Bytes.littleEndian 8 start ++
            Bytes.littleEndian 1 bounded ++ Bytes.littleEndian 8 stop ++ rest ∧
        request =
          .range ⟨topic, .ofNat partition⟩
            ⟨.ofNat start,
              if bounded = 0 then none else some (.ofNat stop)⟩ := by
  constructor
  · intro read
    obtain ⟨⟨topic, afterTopic⟩, readsTopic, read⟩ := bind_eq_ok_iff.1 read
    obtain ⟨⟨⟩, _, read⟩ := bind_eq_ok_iff.1 read
    obtain ⟨⟨partition, afterPartition⟩, readsPartition, read⟩ :=
      bind_eq_ok_iff.1 read
    obtain ⟨⟨start, afterStart⟩, readsStart, read⟩ := bind_eq_ok_iff.1 read
    obtain ⟨⟨bounded, afterBounded⟩, readsBounded, read⟩ :=
      bind_eq_ok_iff.1 read
    obtain ⟨⟨stop, rest⟩, readsStop, read⟩ := bind_eq_ok_iff.1 read
    cases read
    obtain ⟨topicSmall, rfl⟩ := Frame.text_eq_ok_iff.1 readsTopic
    obtain ⟨partitionSmall, rfl⟩ := Frame.word_eq_ok_iff.1 readsPartition
    obtain ⟨startSmall, rfl⟩ := Frame.word_eq_ok_iff.1 readsStart
    obtain ⟨boundedSmall, rfl⟩ := Frame.word_eq_ok_iff.1 readsBounded
    obtain ⟨stopSmall, rfl⟩ := Frame.word_eq_ok_iff.1 readsStop
    refine ⟨topic, partition, start, bounded, stop, rest, topicSmall,
      partitionSmall, startSmall, boundedSmall, stopSmall, ?_, rfl⟩
    simp only [List.append_assoc]
  · rintro ⟨topic, partition, start, bounded, stop, rest, topicSmall,
      partitionSmall, startSmall, boundedSmall, stopSmall, rfl, rfl⟩
    simp only [readRange, List.append_assoc]
    rw [Frame.text_eq_ok_iff.2 ⟨topicSmall, rfl⟩, ok_bind,
      Frame.ensure_eq_ok_iff.2 (by simp [windowSize]; omega), ok_bind,
      Frame.word_eq_ok_iff.2 ⟨partitionSmall, rfl⟩, ok_bind,
      Frame.word_eq_ok_iff.2 ⟨startSmall, rfl⟩, ok_bind,
      Frame.word_eq_ok_iff.2 ⟨boundedSmall, rfl⟩, ok_bind,
      Frame.word_eq_ok_iff.2 ⟨stopSmall, rfl⟩, ok_bind]
    rfl

theorem ofFields_layout
    (request : Request)
    (fits : request.Fits)
    (small : request.size < Frame.maxBody) :
    ofFields request.tag request.layout = .ok request := by
  have words : Frame.maxBody < Bytes.capacity 4 := by decide
  cases request with
  | replicate batch =>
      have few : batch.length < Bytes.capacity 4 :=
        Nat.lt_of_le_of_lt (Frame.length_le_batchSize batch)
          (Nat.lt_trans small words)
      have read : Frame.batch (Frame.batchLayout batch) = .ok batch :=
        Frame.batch_eq_ok_iff.2 ⟨few, fits, [], (List.append_nil _).symm⟩
      simp [ofFields, tag, layout, read, Except.map]
  | range home window =>
      have read : readRange (Request.range home window).layout =
          .ok (.range home window) := by
        refine readRange_eq_ok_iff.2 ⟨home.topic, home.partition.toNat,
          window.start.toNat, if window.stop.isSome then 1 else 0,
          (window.stop.getD 0).toNat, [], Nat.lt_succ_of_le fits,
          home.partition.toNat_lt, window.start.toNat_lt, ?_,
          (window.stop.getD 0).toNat_lt, (List.append_nil _).symm, ?_⟩
        · split <;> decide
        · obtain ⟨start, stop⟩ := window
          cases stop <;> simp
      simp [ofFields, tag, read]
  | ping => rfl

theorem fits_of_ofFields
    (first : UInt8)
    (fields : Bytes)
    (request : Request)
    (read : ofFields first fields = .ok request) :
    request.Fits ∧ request.size ≤ fields.length := by
  rw [← length_layout]
  unfold ofFields at read
  split at read
  · obtain ⟨batch, listed, rfl⟩ := map_eq_ok_iff.1 read
    obtain ⟨_, fitting, rest, rfl⟩ := Frame.batch_eq_ok_iff.1 listed
    refine ⟨fitting, ?_⟩
    simp [layout]
  · split at read
    · obtain ⟨topic, partition, start, bounded, stop, rest, topicSmall, _, _, _,
          _, rfl, rfl⟩ :=
        readRange_eq_ok_iff.1 read
      refine ⟨Nat.le_of_lt_succ topicSmall, ?_⟩
      simp [layout]
      omega
    · split at read
      · cases read
        exact ⟨trivial, Nat.zero_le _⟩
      · cases read

theorem faithful : Frame.Faithful encode decode Fits body :=
  .of_fields check_eq_ok_iff length_layout ofFields_layout fits_of_ofFields

end Request

/-! ## Responses -/

namespace Response

/-- Every message of a response fits its lengths. -/
def Fits : Response → Prop
  | .batch messages => ∀ message ∈ messages, message.Fits
  | _ => True

/-- The body of a response's frame. -/
def body (response : Response) : Bytes :=
  response.tag :: response.layout

theorem check_eq_ok_iff (response : Response) :
    response.check = .ok () ↔ response.Fits := by
  cases response with
  | batch messages => exact Frame.checkBatch_eq_ok_iff
  | _ => simp [check, Fits]

theorem length_layout (response : Response) :
    response.layout.length = response.size := by
  cases response with
  | batch messages => exact Frame.length_batchLayout messages
  | failure message =>
      simp [layout, size, Message.prefixed, Bytes.length_ofText]
  | _ => simp [layout, size]

theorem readAck_eq_ok_iff
    {fields : Bytes}
    {response : Response} :
    readAck fields = .ok response ↔
      ∃ applied duplicates rest, applied < Bytes.capacity 4 ∧
        duplicates < Bytes.capacity 4 ∧
        fields =
          Bytes.littleEndian 4 applied ++ Bytes.littleEndian 4 duplicates ++
            rest ∧
        response = .ack ⟨.ofNat applied, .ofNat duplicates⟩ := by
  constructor
  · intro read
    obtain ⟨⟨⟩, _, read⟩ := bind_eq_ok_iff.1 read
    obtain ⟨⟨applied, afterApplied⟩, readsApplied, read⟩ :=
      bind_eq_ok_iff.1 read
    obtain ⟨⟨duplicates, rest⟩, readsDuplicates, read⟩ := bind_eq_ok_iff.1 read
    cases read
    obtain ⟨appliedSmall, rfl⟩ := Frame.word_eq_ok_iff.1 readsApplied
    obtain ⟨duplicatesSmall, rfl⟩ := Frame.word_eq_ok_iff.1 readsDuplicates
    exact ⟨applied, duplicates, rest, appliedSmall, duplicatesSmall,
      (List.append_assoc _ _ _).symm, rfl⟩
  · rintro ⟨applied, duplicates, rest, appliedSmall, duplicatesSmall, rfl, rfl⟩
    simp only [readAck, List.append_assoc]
    rw [Frame.ensure_eq_ok_iff.2 (by simp; omega), ok_bind,
      Frame.word_eq_ok_iff.2 ⟨appliedSmall, rfl⟩, ok_bind,
      Frame.word_eq_ok_iff.2 ⟨duplicatesSmall, rfl⟩, ok_bind]
    rfl

theorem ofFields_layout
    (response : Response)
    (fits : response.Fits)
    (small : response.size < Frame.maxBody) :
    ofFields response.tag response.layout = .ok response := by
  have words : Frame.maxBody < Bytes.capacity 4 := by decide
  cases response with
  | ack counts =>
      have read : readAck (Response.ack counts).layout = .ok (.ack counts) :=
        readAck_eq_ok_iff.2 ⟨counts.applied.toNat, counts.duplicates.toNat, [],
          counts.applied.toNat_lt, counts.duplicates.toNat_lt,
          (List.append_nil _).symm, by simp⟩
      simp [ofFields, tag, read]
  | batch messages =>
      have few : messages.length < Bytes.capacity 4 :=
        Nat.lt_of_le_of_lt (Frame.length_le_batchSize messages)
          (Nat.lt_trans small words)
      have read : Frame.batch (Frame.batchLayout messages) = .ok messages :=
        Frame.batch_eq_ok_iff.2 ⟨few, fits, [], (List.append_nil _).symm⟩
      simp [ofFields, tag, layout, read, Except.map]
  | pong => rfl
  | failure message =>
      have short : message.utf8ByteSize < Bytes.capacity 4 := by
        rw [size] at small
        omega
      have read : Frame.text "error" 4 (Response.failure message).layout =
          .ok (message, []) :=
        Frame.text_eq_ok_iff.2 ⟨short, (List.append_nil _).symm⟩
      simp [ofFields, tag, read, Except.map]

theorem fits_of_ofFields
    (first : UInt8)
    (fields : Bytes)
    (response : Response)
    (read : ofFields first fields = .ok response) :
    response.Fits ∧ response.size ≤ fields.length := by
  rw [← length_layout]
  unfold ofFields at read
  split at read
  · obtain ⟨applied, duplicates, rest, _, _, rfl, rfl⟩ :=
      readAck_eq_ok_iff.1 read
    refine ⟨trivial, ?_⟩
    simp [layout]
    omega
  · split at read
    · obtain ⟨messages, listed, rfl⟩ := map_eq_ok_iff.1 read
      obtain ⟨_, fitting, rest, rfl⟩ := Frame.batch_eq_ok_iff.1 listed
      refine ⟨fitting, ?_⟩
      simp [layout]
    · split at read
      · cases read
        exact ⟨trivial, Nat.zero_le _⟩
      · split at read
        · obtain ⟨⟨message, rest⟩, spelled, rfl⟩ := map_eq_ok_iff.1 read
          obtain ⟨_, rfl⟩ := Frame.text_eq_ok_iff.1 spelled
          refine ⟨trivial, ?_⟩
          simp [layout]
        · cases read

theorem faithful : Frame.Faithful encode decode Fits body :=
  .of_fields check_eq_ok_iff length_layout ofFields_layout fits_of_ofFields

end Response

/-! ## What frames carry -/

/-- Requests and responses are framed faithfully.  The body of a batch is five
bytes and the sizes of its messages, and no frame that is written has a count of
messages or a length of words beyond what its four bytes say. -/
theorem Frame.carries_exactly :
    Frame.Faithful Request.encode Request.decode Request.Fits Request.body ∧
    Frame.Faithful Response.encode Response.decode Response.Fits Response.body ∧
    (∀ batch : List Message,
      (Request.replicate batch).body.length =
        5 + (batch.map Message.encodedSize).sum ∧
      (Response.batch batch).body.length =
        5 + (batch.map Message.encodedSize).sum) ∧
    (∀ batch frame,
      Request.encode (.replicate batch) = .ok frame ∨
        Response.encode (.batch batch) = .ok frame →
      batch.length < 2 ^ 32) ∧
    ∀ words frame, Response.encode (.failure words) = .ok frame →
      words.utf8ByteSize < 2 ^ 32 := by
  have sizes : ∀ batch : List Message,
      (Request.replicate batch).body.length =
        5 + (batch.map Message.encodedSize).sum ∧
      (Response.batch batch).body.length =
        5 + (batch.map Message.encodedSize).sum := by
    intro batch
    have layout :=
      (Frame.length_batchLayout batch).trans (Frame.batchSize_eq batch)
    constructor
    · rw [Request.body, List.length_cons, Request.layout, layout]
      omega
    · rw [Response.body, List.length_cons, Response.layout, layout]
      omega
  have bodies : Frame.maxBody < 2 ^ 32 := by decide
  refine ⟨Request.faithful, Response.faithful, sizes,
    fun batch frame written => ?_,
    fun words frame written => ?_⟩
  · have few := Frame.length_le_batchSize batch
    rw [Frame.batchSize_eq] at few
    rcases written with written | written
    · have small := ((Request.faithful.encodes _ _).1 written).2.1
      rw [(sizes batch).1] at small
      omega
    · have small := ((Response.faithful.encodes _ _).1 written).2.1
      rw [(sizes batch).2] at small
      omega
  · have small := ((Response.faithful.encodes _ _).1 written).2.1
    rw [Response.body, List.length_cons, Response.length_layout, Response.size]
      at small
    omega

end MessageBroker
