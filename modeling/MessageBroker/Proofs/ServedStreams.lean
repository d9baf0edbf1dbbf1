import Mathlib.Data.List.Induction
import MessageBroker.Proofs.AnswerFrames
import MessageBroker.Proofs.StalledConnections

/-!
# What a stream of bytes is answered

The bytes of a connection arrive in chunks, cut anywhere.  A reader that does
not ask for more bytes has decided: more bytes change nothing but what is left
over.  So it makes no difference whether a frame is read as soon as it is whole
or together with others, and what a stream is answered depends on its bytes
alone.

`Answers` says what that is: the requests at the front are answered in turn, one
frame for each, up to the end of the bytes, to a part that asks for more, or to
a fault that ends the connection.
-/

namespace MessageBroker

/-! ## Readers that have decided -/

namespace Frame

variable {Value : Type} {bytes : Bytes}

/-- More bytes change nothing about a frame that is found, or is found to be
wrong. -/
theorem find_append
    (decided : ¬ RunsShort (find bytes))
    (more : Bytes) :
    find (bytes ++ more) =
      (find bytes).map fun found =>
        { found with rest := found.rest ++ more } := by
  cases sought : find bytes with
  | ok found =>
      obtain ⟨tag, fields, rest⟩ := found
      obtain ⟨small, rfl⟩ := find_eq_ok_iff.1 sought
      exact find_eq_ok_iff.2 ⟨small, List.append_assoc _ _ _⟩
  | error fault =>
      rw [sought] at decided
      unfold find at sought
      split at sought
      · cases sought
        exact absurd ⟨_, _, rfl⟩ decided
      · rename_i size following header
        obtain ⟨few, rfl⟩ := Bytes.word?_eq_some_iff.1 header
        have longer : Bytes.word? headerSize
            (Bytes.littleEndian headerSize size ++ following ++ more) =
              some (size, following ++ more) :=
          Bytes.word?_eq_some_iff.2 ⟨few, List.append_assoc _ _ _⟩
        split at sought
        · rename_i large
          cases sought
          simp only [find, longer, if_pos large]
          rfl
        · split at sought
          · cases sought
            exact absurd ⟨_, _, rfl⟩ decided
          · split at sought
            · cases sought
            · cases sought
              exact absurd ⟨_, _, rfl⟩ decided

theorem decode_append
    {ofFields : UInt8 → Bytes → Except FrameError Value}
    (decided : ¬ RunsShort (do
      let found ← find bytes
      return (← ofFields found.tag found.fields, found.rest)))
    (more : Bytes) :
    (do
      let found ← find (bytes ++ more)
      return (← ofFields found.tag found.fields, found.rest)) =
    (do
      let found ← find bytes
      return (← ofFields found.tag found.fields, found.rest)).map
        fun (value, rest) => (value, rest ++ more) := by
  have found : ¬ RunsShort (find bytes) :=
    fun short => decided (runsShort_bind_iff.2 (.inl short))
  rw [find_append found]
  cases find bytes with
  | error fault => rfl
  | ok found =>
      cases fields : ofFields found.tag found.fields with
      | error fault => simp [Except.map, fields, bind, Except.bind]
      | ok value =>
          simp [Except.map, fields, bind, Except.bind, pure, Except.pure]

end Frame

/-- More bytes change nothing about a request that is read, or is found to be
wrong. -/
theorem Request.decode_append
    {bytes : Bytes}
    (decided : ¬ Frame.RunsShort (decode bytes))
    (more : Bytes) :
    decode (bytes ++ more) =
      (decode bytes).map fun (request, rest) => (request, rest ++ more) :=
  Frame.decode_append decided more

namespace Connection

variable {limits : Limits} {store : Store} {sent : List Bytes} {bytes : Bytes}

/-! ## Answering at once or in parts -/

theorem answerAll_nil : answerAll limits store sent [] = ⟨sent, {}, store⟩ := by
  unfold answerAll
  rw [if_pos List.isEmpty_nil]

theorem answerAll_of_wrong
    {fault : FrameError}
    (wrong : Request.decode bytes = .error fault)
    (decided : ¬ Frame.RunsShort (Request.decode bytes)) :
    answerAll limits store sent bytes = ⟨sent, ⟨bytes, some fault⟩, store⟩ := by
  have some : bytes ≠ [] := by
    rintro rfl
    exact decided ⟨_, _, rfl⟩
  unfold answerAll
  rw [if_neg (by simpa using some)]
  split
  · rename_i request rest read
    rw [wrong] at read
    cases read
  · rename_i needed found short
    exact absurd ⟨needed, found, short⟩ decided
  · rename_i other read
    rw [wrong] at read
    cases read
    rfl

theorem answerAll_of_ok
    {request : Request}
    {rest : Bytes}
    (read : Request.decode bytes = .ok (request, rest)) :
    answerAll limits store sent bytes =
      match responseFrame (Replica.handle limits store request).1 with
      | .ok frame =>
          answerAll limits (Replica.handle limits store request).2
            (frame :: sent) rest
      | .error fault =>
          ⟨sent, ⟨rest, some fault⟩,
              (Replica.handle limits store request).2⟩ := by
  have some : bytes ≠ [] := by
    rintro rfl
    cases read
  rw [answerAll, if_neg (by simpa using some)]
  split
  · rename_i request' rest' read'
    rw [read] at read'
    cases read'
    rfl
  · rename_i needed found short
    rw [read] at short
    cases short
  · rename_i fault other wrong
    rw [read] at wrong
    cases wrong

/-- Two connections that have sent, stored and refused the same, and that wait
for the rest of the same bytes as long as they are open. -/
structure Progress.Alike (first second : Progress) : Prop where
  sent : first.sent = second.sent
  store : first.store = second.store
  fault : first.connection.fault = second.connection.fault
  waiting : first.connection.fault = none →
    first.connection.waiting = second.connection.waiting

namespace Progress.Alike

variable {first second third : Progress}

theorem refl (progress : Progress) : progress.Alike progress :=
  ⟨rfl, rfl, rfl, fun _ => rfl⟩

theorem symm (alike : first.Alike second) : second.Alike first :=
  ⟨alike.sent.symm, alike.store.symm, alike.fault.symm,
    fun isOpen => (alike.waiting (alike.fault.trans isOpen)).symm⟩

theorem trans
    (front : first.Alike second)
    (back : second.Alike third) :
    first.Alike third :=
  ⟨front.sent.trans back.sent, front.store.trans back.store,
    front.fault.trans back.fault,
    fun isOpen =>
      (front.waiting isOpen).trans
      (back.waiting (front.fault.symm.trans isOpen))⟩

theorem bytes_eq (alike : first.Alike second) : first.bytes = second.bytes := by
  rw [bytes, bytes, alike.sent]

theorem connection_eq
    (alike : first.Alike second)
    (isOpen : first.connection.fault = none) :
    first.connection = second.connection := by
  have waiting := alike.waiting isOpen
  have fault := alike.fault
  cases firstConnection : first.connection
  cases secondConnection : second.connection
  rw [firstConnection, secondConnection] at waiting fault
  dsimp only at waiting fault
  rw [waiting, fault]

/-- What arrives next is answered alike. -/
theorem receive
    (alike : first.Alike second)
    (chunk : Bytes) :
    (first.receive limits chunk).Alike (second.receive limits chunk) := by
  unfold Progress.receive
  rw [← alike.fault]
  split
  · exact alike
  · rename_i isOpen
    rw [← alike.waiting (Option.not_isSome_iff_eq_none.1 isOpen), ← alike.store,
      ← alike.sent]
    exact refl _

end Progress.Alike

/-- Bytes are answered alike whether they arrive at once or in two parts. -/
theorem answerAll_append
    (limits : Limits)
    (store : Store)
    (sent : List Bytes)
    (bytes more : Bytes) :
    (answerAll limits store sent (bytes ++ more)).Alike
      ((answerAll limits store sent bytes).receive limits more) := by
  fun_induction answerAll limits store sent bytes with
  | case1 store sent bytes nothing =>
      rw [List.isEmpty_iff.1 nothing]
      exact .refl _
  | case2 store sent bytes some request rest read response store' handled frame
      framed step =>
      have longer : Request.decode (bytes ++ more) =
          .ok (request, rest ++ more) := by
        rw [Request.decode_append
          (by rw [read]; exact Frame.not_runsShort_ok _), read]
        rfl
      rw [answerAll_of_ok longer, handled]
      simp only [framed]
      exact step
  | case3 store sent bytes some request rest read response store' handled fault
      unframed =>
      have longer : Request.decode (bytes ++ more) =
          .ok (request, rest ++ more) := by
        rw [Request.decode_append
          (by rw [read]; exact Frame.not_runsShort_ok _), read]
        rfl
      rw [answerAll_of_ok longer, handled]
      simp only [unframed]
      exact ⟨rfl, rfl, rfl, fun isOpen =>
        absurd isOpen (Option.some_ne_none fault)⟩
  | case4 => exact .refl _
  | case5 store sent bytes some fault other wrong =>
      have decided : ¬ Frame.RunsShort (Request.decode bytes) := by
        rintro ⟨needed, found, short⟩
        rw [wrong] at short
        cases short
        exact other needed found rfl
      have longer : Request.decode (bytes ++ more) = .error fault := by
        rw [Request.decode_append decided, wrong]
        rfl
      have stays : ¬ Frame.RunsShort (Request.decode (bytes ++ more)) := by
        rw [longer, ← wrong]
        exact decided
      rw [answerAll_of_wrong longer stays]
      exact ⟨rfl, rfl, rfl, fun isOpen =>
        absurd isOpen (Option.some_ne_none fault)⟩

/-- Chunks are answered like the bytes that they make up. -/
theorem serve_alike
    (limits : Limits)
    (store : Store)
    (chunks : List Bytes) :
    (serve limits store chunks).Alike
      (answerAll limits store [] chunks.flatten) := by
  induction chunks using List.reverseRecOn with
  | nil =>
      rw [List.flatten_nil, answerAll_nil]
      exact .refl _
  | append_singleton front last step =>
      rw [serve, List.foldl_append, List.flatten_append, List.flatten_singleton]
      exact (step.receive last).trans
        (answerAll_append limits store [] front.flatten last).symm

/-! ## What a stream is answered -/

/-- The frame that stands for a response, or the fault of not having one: its
own frame, or else that of the failure to make it. -/
inductive Framed (response : Response) : Except FrameError Bytes → Prop where
  /-- The response has a frame. -/
  | own
      {frame : Bytes}
      (encoded : response.encode = .ok frame) :
      Framed response (.ok frame)
  /-- The response has no frame, and the reason is told instead. -/
  | failure {fault : FrameError} (refused : response.encode = .error fault) :
      Framed response (Response.failure fault.message).encode

theorem framed_iff
    {response : Response}
    {attempt : Except FrameError Bytes} :
    Framed response attempt ↔ responseFrame response = attempt := by
  constructor
  · intro framed
    cases framed with
    | own encoded => rw [responseFrame, encoded]
    | failure refused => rw [responseFrame, refused]
  · rintro rfl
    unfold responseFrame
    split
    · rename_i frame encoded
      exact .own encoded
    · rename_i fault refused
      exact .failure refused

/-- What has become of a stream. -/
structure Outcome where
  /-- The frames sent, first one first. -/
  frames : List Bytes
  /-- The store that is left. -/
  store : Store
  /-- Why the connection was ended, if it was. -/
  fault : Option FrameError

/-- What has become of a stream so far. -/
def Progress.outcome (progress : Progress) : Outcome :=
  ⟨progress.sent.reverse, progress.store, progress.connection.fault⟩

theorem Progress.Alike.outcome_eq
    {first second : Progress}
    (alike : first.Alike second) :
    first.outcome = second.outcome := by
  rw [Progress.outcome, Progress.outcome, alike.sent, alike.store, alike.fault]

/-- The outcome with frames sent before. -/
def Outcome.after (earlier : List Bytes) (outcome : Outcome) : Outcome :=
  { outcome with frames := earlier ++ outcome.frames }

/-- How a stream is answered. -/
inductive Answers (limits : Limits) : Store → Bytes → Outcome → Prop where
  /-- No bytes are left. -/
  | done {store : Store} : Answers limits store [] ⟨[], store, none⟩
  /-- The reader asks for more bytes. -/
  | waits {store : Store} {bytes : Bytes} (some : bytes ≠ [])
      (short : Frame.RunsShort (Request.decode bytes)) :
      Answers limits store bytes ⟨[], store, none⟩
  /-- What stands next is no request, and ends the connection. -/
  | refuses {store : Store} {bytes : Bytes} {fault : FrameError}
      (wrong : Request.decode bytes = .error fault)
      (decided : ¬ Frame.RunsShort (Request.decode bytes)) :
      Answers limits store bytes ⟨[], store, some fault⟩
  /-- A request is handled and answered, and what follows it is answered in the
  store that it leaves. -/
  | answers {store after : Store} {bytes rest frame : Bytes} {request : Request}
      {response : Response} {later : Outcome}
      (read : Request.decode bytes = .ok (request, rest))
      (handled : Replica.handle limits store request = (response, after))
      (framed : Framed response (.ok frame))
      (next : Answers limits after rest later) :
      Answers limits store bytes (later.after [frame])
  /-- A request is handled, but neither its response nor the failure to make one
  has a frame.  That takes a store with a value longer than eight bytes can
  say. -/
  | unanswerable {store after : Store} {bytes rest : Bytes} {request : Request}
      {response : Response} {fault : FrameError}
      (beyond : ¬ store.Measurable)
      (read : Request.decode bytes = .ok (request, rest))
      (handled : Replica.handle limits store request = (response, after))
      (unframed : Framed response (.error fault)) :
      Answers limits store bytes ⟨[], after, some fault⟩

/-- What answering a stream comes to is how it is answered. -/
theorem Answers.outcome_eq
    {outcome : Outcome}
    (answers : Answers limits store bytes outcome)
    (sent : List Bytes) :
    (answerAll limits store sent bytes).outcome =
      outcome.after sent.reverse := by
  induction answers generalizing sent with
  | done => simp [answerAll_nil, Progress.outcome, Outcome.after]
  | waits some short =>
      simp [answerAll_of_runsShort some short, Progress.outcome, Outcome.after]
  | refuses wrong decided =>
      simp [answerAll_of_wrong wrong decided, Progress.outcome, Outcome.after]
  | answers read handled framed next step =>
      rw [answerAll_of_ok read, handled, framed_iff.1 framed]
      exact (step _).trans (by simp [Outcome.after])
  | unanswerable beyond read handled unframed =>
      rw [answerAll_of_ok read, handled, framed_iff.1 unframed]
      simp [Progress.outcome, Outcome.after]

/-- A request that is read has a frame for its answer, in a store whose values
can be measured. -/
theorem exists_answer_frame
    {request : Request}
    {rest : Bytes}
    (read : Request.decode bytes = .ok (request, rest))
    (measurable : store.Measurable) :
    ∃ answer,
      responseFrame (Replica.handle limits store request).1 = .ok answer := by
  obtain ⟨_, frame, _, encoded, _⟩ :=
    Request.faithful.recodes bytes request rest read
  exact Replica.exists_answer_frame encoded measurable

/-- Every stream is answered in some way.  The induction is that of answering,
so the frames sent before stay in it. -/
theorem exists_answers
    (limits : Limits)
    (store : Store)
    (bytes : Bytes) :
    ∃ outcome, Answers limits store bytes outcome := by
  suffices anySent : ∀ sent : List Bytes, ∃ outcome,
      Answers limits store bytes outcome by
    exact anySent []
  intro sent
  fun_induction answerAll limits store sent bytes with
  | case1 store sent bytes nothing =>
      rw [List.isEmpty_iff.1 nothing]
      exact ⟨_, .done⟩
  | case2 store sent bytes some request rest read response store' handled frame
      framed step =>
      obtain ⟨later, next⟩ := step
      exact ⟨_, .answers read handled (framed_iff.2 framed) next⟩
  | case3 store sent bytes some request rest read response store' handled fault
      unframed =>
      refine ⟨_,
        .unanswerable (fun measurable => ?_) read handled
          (framed_iff.2 unframed)⟩
      obtain ⟨answer, framed⟩ :=
        @exists_answer_frame limits _ _ _ _ read measurable
      rw [handled, unframed] at framed
      cases framed
  | case4 store sent bytes some needed found short =>
      exact ⟨_, .waits (by simpa using some) ⟨needed, found, short⟩⟩
  | case5 store sent bytes some fault other wrong =>
      refine ⟨_, .refuses wrong ?_⟩
      rintro ⟨needed, found, short⟩
      rw [wrong] at short
      cases short
      exact other needed found rfl

theorem answers_iff {outcome : Outcome} :
    Answers limits store bytes outcome ↔
      (answerAll limits store [] bytes).outcome = outcome := by
  have front : ∀ outcome : Outcome, outcome.after [] = outcome := fun _ => rfl
  constructor
  · intro answers
    exact (answers.outcome_eq []).trans (front outcome)
  · rintro rfl
    obtain ⟨outcome, answers⟩ := exists_answers limits store bytes
    rw [answers.outcome_eq [], List.reverse_nil, front]
    exact answers

/-- A stream leaves a store whose values can be measured as such. -/
theorem Answers.measurable
    {outcome : Outcome}
    (answers : Answers limits store bytes outcome)
    (measurable : store.Measurable) :
    outcome.store.Measurable := by
  induction answers with
  | done => exact measurable
  | waits => exact measurable
  | refuses => exact measurable
  | @answers store after _ _ _ request response _ _ handled _ _ step =>
      apply step
      have kept := @Replica.measurable_handle limits _ request measurable
      rw [handled] at kept
      exact kept
  | unanswerable beyond => exact absurd measurable beyond

/-- What becomes of a stream is what answering its bytes comes to, however they
are cut into chunks.  Other chunks of the same bytes are sent the same bytes,
leave the same store and end in the same way, and as long as the connection is
open it waits with the same bytes.  A store whose values can be measured, in
which every request has a frame for its answer, stays one. -/
theorem answers_stream
    (limits : Limits)
    (store : Store)
    (chunks : List Bytes) :
    (∀ outcome, Answers limits store chunks.flatten outcome ↔
      (serve limits store chunks).outcome = outcome) ∧
    (∀ others : List Bytes, others.flatten = chunks.flatten →
      (serve limits store others).bytes = (serve limits store chunks).bytes ∧
      (serve limits store others).outcome =
        (serve limits store chunks).outcome ∧
      ((serve limits store others).connection.fault = none →
        (serve limits store others).connection =
          (serve limits store chunks).connection)) ∧
    (store.Measurable → (serve limits store chunks).store.Measurable) := by
  have alike := serve_alike limits store chunks
  have comes : ∀ outcome, Answers limits store chunks.flatten outcome ↔
      (serve limits store chunks).outcome = outcome := by
    intro outcome
    rw [answers_iff, alike.outcome_eq]
  refine ⟨comes, fun others same => ?_, fun measurable => ?_⟩
  · have both := (serve_alike limits store others).trans (same ▸ alike.symm)
    exact ⟨both.bytes_eq, both.outcome_eq, both.connection_eq⟩
  · exact ((comes _).2 rfl).measurable measurable

end Connection

end MessageBroker
