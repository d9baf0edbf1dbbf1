import MessageBroker.Client
import MessageBroker.Connection
import MessageBroker.Proofs.FrameShortage

/-!
# What connections wait for

Both sides of a connection wait for more bytes whenever their reader asks for
more.  That is right for a part of a frame, which the bytes to come make whole.
Behind a whole frame that is short, however, a side waits for bytes that cannot
help: whatever arrives is kept and nothing is read any more, also no later
frame.  The serving side stays in that state, the calling side gives up when the
connection ends or its time is over.
-/

namespace MessageBroker

namespace Connection

/-! ## The serving side -/

variable {limits : Limits} {store : Store} {sent : List Bytes} {bytes : Bytes}

theorem answerAll_of_runsShort
    (some : bytes ≠ [])
    (short : Frame.RunsShort (Request.decode bytes)) :
    answerAll limits store sent bytes = ⟨sent, ⟨bytes, none⟩, store⟩ := by
  obtain ⟨needed, found, stops⟩ := short
  unfold answerAll
  rw [if_neg (by simpa using some)]
  split
  · rename_i request rest read
    rw [stops] at read
    cases read
  · rfl
  · rename_i fault other read
    rw [stops] at read
    cases read
    exact absurd rfl (other needed found)

/-- A connection that is open keeps nothing, or bytes on which the reader runs
short. -/
def Progress.Waits (progress : Progress) : Prop :=
  progress.connection.fault = none →
    progress.connection.waiting = [] ∨
      Frame.RunsShort (Request.decode progress.connection.waiting)

theorem waits_answerAll
    (limits : Limits)
    (store : Store)
    (sent : List Bytes)
    (bytes : Bytes) :
    (answerAll limits store sent bytes).Waits := by
  fun_induction answerAll limits store sent bytes with
  | case1 store sent bytes nothing => exact fun _ => .inl rfl
  | case2 store sent bytes some request rest read response store' handled frame
      framed step =>
      exact step
  | case3 => rintro ⟨⟩
  | case4 store sent bytes some needed found read =>
      exact fun _ => .inr ⟨needed, found, read⟩
  | case5 => rintro ⟨⟩

theorem waits_foldl_receive
    {progress : Progress}
    (waits : progress.Waits)
    (chunks : List Bytes) :
    (chunks.foldl (Progress.receive limits) progress).Waits := by
  induction chunks generalizing progress with
  | nil => exact waits
  | cons chunk rest step =>
      apply step
      unfold Progress.receive
      split
      · exact waits
      · exact waits_answerAll _ _ _ _

/-- A connection that waits behind a short frame keeps all that arrives, and
does nothing else. -/
theorem foldl_receive_of_leads
    {waiting : Bytes}
    (leads : Frame.Leads Request.Short waiting)
    (chunks : List Bytes) :
    chunks.foldl (Progress.receive limits) ⟨sent, ⟨waiting, none⟩, store⟩ =
      ⟨sent, ⟨waiting ++ chunks.flatten, none⟩, store⟩ := by
  induction chunks generalizing waiting with
  | nil => simp
  | cons chunk rest step =>
      have longer := leads.append chunk
      have received :
          Progress.receive limits ⟨sent, ⟨waiting, none⟩, store⟩ chunk =
            ⟨sent, ⟨waiting ++ chunk, none⟩, store⟩ :=
        answerAll_of_runsShort longer.ne_nil
          (Request.runsShort_decode_iff.2 (.inr longer))
      rw [List.foldl_cons, received, step longer, List.flatten_cons,
        List.append_assoc]

end Connection

/-! ## The calling side -/

namespace Client

variable {World : Type} (client : Client World) (limit : Duration)
  (ending : Ending)

/-- The failure of a call to which no response has come. -/
def unanswered : TransportError :=
  match ending with
  | .closed => .closed client.peer
  | .silent => .timedOut client.peer limit

/-- Behind a short frame a call reads all that arrives, and fails as if nothing
had come. -/
theorem await_of_leads
    {arrived : Bytes}
    (leads : Frame.Leads Response.Short arrived)
    (chunks : List Bytes) :
    client.await limit ending arrived chunks =
      .error (client.unanswered limit ending) := by
  induction chunks generalizing arrived with
  | nil =>
      obtain ⟨needed, found, stops⟩ :=
        Response.runsShort_decode_iff.2 (.inr leads)
      simp only [await, stops]
      rfl
  | cons chunk rest step =>
      obtain ⟨needed, found, stops⟩ :=
        Response.runsShort_decode_iff.2 (.inr leads)
      simp only [await, stops]
      exact step (leads.append chunk)

end Client

/-! ## What is waited for -/

/-- Readers ask for more bytes on a part of a frame and on a whole frame that is
short, so they ask for the rest of a frame alone exactly where no short one
leads.  An open connection waits for nothing, for the rest of a frame, or behind
a short one; there it keeps whatever arrives, answers nothing and stores
nothing.  A call that meets a short frame fails once nothing more arrives. -/
theorem Connection.waits_for_missing_bytes
    (bytes : Bytes)
    (limits : Limits)
    (sent : List Bytes)
    (store : Store)
    {World : Type}
    (client : Client World)
    (limit : Duration)
    (ending : Ending)
    (chunks : List Bytes) :
    ((Frame.RunsShort (Request.decode bytes) ↔
        Frame.Partial bytes ∨ Frame.Leads Request.Short bytes) ∧
      ((Frame.RunsShort (Request.decode bytes) ↔ Frame.Partial bytes) ↔
        ¬ Frame.Leads Request.Short bytes)) ∧
    ((Frame.RunsShort (Response.decode bytes) ↔
        Frame.Partial bytes ∨ Frame.Leads Response.Short bytes) ∧
      ((Frame.RunsShort (Response.decode bytes) ↔ Frame.Partial bytes) ↔
        ¬ Frame.Leads Response.Short bytes)) ∧
    ((serve limits store chunks).connection.fault = none →
      (serve limits store chunks).connection.waiting = [] ∨
      Frame.Partial (serve limits store chunks).connection.waiting ∨
      Frame.Leads Request.Short
        (serve limits store chunks).connection.waiting) ∧
    (Frame.Leads Request.Short bytes →
      chunks.foldl (Progress.receive limits) ⟨sent, ⟨bytes, none⟩, store⟩ =
        ⟨sent, ⟨bytes ++ chunks.flatten, none⟩, store⟩) ∧
    (Frame.Leads Response.Short bytes →
      client.await limit ending bytes chunks =
        .error (client.unanswered limit ending)) := by
  have requests : Frame.RunsShort (Request.decode bytes) ↔
      Frame.Partial bytes ∨ Frame.Leads Request.Short bytes :=
    Request.runsShort_decode_iff
  have responses : Frame.RunsShort (Response.decode bytes) ↔
      Frame.Partial bytes ∨ Frame.Leads Response.Short bytes :=
    Response.runsShort_decode_iff
  refine ⟨⟨requests, Frame.partial_only_iff requests⟩,
    ⟨responses, Frame.partial_only_iff responses⟩, fun isOpen => ?_,
    fun leads => foldl_receive_of_leads leads chunks,
    fun leads => client.await_of_leads limit ending leads chunks⟩
  have start : Progress.Waits ⟨[], {}, store⟩ := fun _ => .inl rfl
  rw [← Request.runsShort_decode_iff]
  exact waits_foldl_receive start chunks isOpen

/-- An acknowledgement without its counts hides the sign of life behind it. -/
theorem Connection.waits_for_missing_bytes_ack :
    Frame.Leads Response.Short [1, 0, 0, 0, 64] ∧
    (⟨"n1", "a:1", {}, .refusing "no route"⟩ : Client Unit).await ⟨0⟩ .closed
        [1, 0, 0, 0, 64] [[1, 0, 0, 0, 66]] =
      .error (.closed "n1") := by
  have leads : Frame.Leads Response.Short [1, 0, 0, 0, 64] :=
    ⟨[64], [], .counts (by decide), by decide, rfl⟩
  have waits :=
    waits_for_missing_bytes [1, 0, 0, 0, 64] {} [] (.empty (.series 0))
      (⟨"n1", "a:1", {}, .refusing "no route"⟩ : Client Unit) ⟨0⟩ .closed
        [[1, 0, 0, 0, 66]]
  obtain ⟨_, _, _, _, unanswered⟩ := waits
  exact ⟨leads, unanswered leads⟩

/-- The whole frame of a request that ends within the length of its topic is
taken for a part of a frame, and the sign of life that is asked for behind it is
never given. -/
theorem Connection.whole_frame_runs_short :
    Frame.RunsShort (Request.decode [2, 0, 0, 0, 2, 0]) ∧
    ¬ Frame.Partial [2, 0, 0, 0, 2, 0] ∧
    (serve {} (.empty (.series 0)) [[2, 0, 0, 0, 2, 0], [1, 0, 0, 0, 3]]).sent =
      [] := by
  have leads : Frame.Leads Request.Short [2, 0, 0, 0, 2, 0] :=
    ⟨[2, 0], [], .topic (.inl (by decide)), by decide, rfl⟩
  have short := Request.runsShort_decode_iff.2 (.inr leads)
  have first :
      Progress.receive {} ⟨[], {}, .empty (.series 0)⟩ [2, 0, 0, 0, 2, 0] =
        ⟨[], ⟨[2, 0, 0, 0, 2, 0], none⟩, .empty (.series 0)⟩ :=
    answerAll_of_runsShort (List.cons_ne_nil _ _) short
  refine ⟨short, Frame.not_partial_of_leads leads, ?_⟩
  rw [serve, List.foldl_cons, first, foldl_receive_of_leads leads]

end MessageBroker
