import MessageBroker.Proofs.KeptSessions

/-!
# Groups that read a partition

Nobody else moves a reader's position, and what its partition holds is only
added to.  So the batches that the reader receives lie end to end: together they
are the first messages that were published to the partition, as many as its
position says.
-/

namespace MessageBroker.Session

variable {World : Type} {setup : Setup World} {reader : Reader}
  {session : Session World}

/-! ## How far a reader is -/

/-- The number of messages that a reader has received: the position that it has
still to set, or else the one it has set. -/
def reached (session : Session World) (position : Option Offset) : Nat :=
  (session.unset?.getD (position.getD 0)).toNat

/-- How far a reader with a position is. -/
structure Progress
    (reader : Reader)
    (session : Session World)
    (position : Option Offset) :
    Prop where
  stored :
    session.store.keyspace.get? (Key.cursor reader.group reader.home).bytes =
      position.map Record.ofCounter
  within : session.reached position ≤
    (messagesIn reader.home session.published).length
  received : session.received =
    (messagesIn reader.home session.published).take (session.reached position)
  /-- A position that is still to be set lies ahead. -/
  ahead : ∀ next, session.unset? = some next → position.getD 0 < next

theorem Progress.start
    (reader : Reader)
    (ids : IdSource)
    (world : World) :
    Progress reader (start ids world) none where
  stored := rfl
  within := Nat.le_refl _
  received := rfl
  ahead _ := nofun

variable {position : Option Offset}

/-- A reader has received at least what lies before its position. -/
theorem Progress.position_le (progress : Progress reader session position) :
    (position.getD 0).toNat ≤ session.reached position := by
  unfold reached
  cases unset : session.unset? with
  | none => exact Nat.le_refl _
  | some next =>
      exact Nat.le_of_lt (UInt64.lt_iff_toNat_lt.1 (progress.ahead next unset))

/-- The reader sets its position. -/
theorem Progress.set
    (progress : Progress reader session position)
    (kept : session.Kept)
    {limits : Limits}
    {next : Offset}
    (unset : session.unset? = some next)
    {keyspace : Keyspace}
    (done : Broker.commit limits session.store.keyspace reader.group reader.home
        next =
      .ok keyspace) :
    Progress reader (session.settle keyspace) (some next) := by
  have within := progress.within
  have received := progress.received
  unfold reached at within received
  rw [unset] at within received
  refine ⟨?_, within, received, nofun⟩
  have set :=
    Broker.position_commit kept.intact.logs.legible done reader.group
      reader.home
  rw [if_pos ⟨rfl, rfl⟩] at set
  exact set

/-- The reader receives what a pull brings. -/
theorem Progress.receive
    (progress : Progress reader session position)
    (kept : session.Kept)
    (unset : session.unset? = none)
    {batch : List Message}
    (front : batch <+:
      (messagesIn reader.home session.published).drop (position.getD 0).toNat) :
    Progress reader (session.receive batch) position := by
  have within := progress.within
  have received := progress.received
  unfold reached at within received
  rw [unset] at within received
  by_cases nothing : batch = []
  · subst nothing
    refine ⟨progress.stored, within, ?_, nofun⟩
    exact (List.append_nil _).trans received
  · rcases kept.carries.next_of_front front nothing with ⟨next, follows, number⟩
    have next? : (session.receive batch).unset? = some next := follows
    have short := front.length_le
    rw [List.length_drop] at short
    refine ⟨progress.stored, ?_, ?_, ?_⟩
    · unfold reached
      rw [next?, Option.getD_some, number]
      exact (Nat.le_sub_iff_add_le' within).1 short
    · unfold reached
      rw [next?, Option.getD_some, number]
      show session.received ++ batch =
        (messagesIn reader.home session.published).take _
      rw [List.take_add, ← List.prefix_iff_eq_take.1 front, received]
      rfl
    · intro other same
      rw [← Option.some.inj (next?.symm.trans same), UInt64.lt_iff_toNat_lt,
        number]
      exact Nat.lt_add_of_pos_right (List.length_pos_iff.2 nothing)

/-- The reader takes its turn. -/
theorem Progress.turn
    (progress : Progress reader session position)
    (kept : session.Kept)
    (limits : Limits)
    (most : Nat) :
    ∃ position, Progress reader (session.turn limits reader most) position := by
  unfold Session.turn
  cases unset : session.unset? with
  | some next =>
      dsimp only
      split
      · rename_i done
        exact ⟨some next, progress.set kept unset done⟩
      · exact ⟨position, progress⟩
  | none =>
      dsimp only
      split
      · rename_i batch done
        rcases bind_eq_ok_iff.1 done with ⟨⟨⟩, known, _⟩
        rcases kept.pull progress.stored known most with ⟨_, again, front, _⟩
        cases Except.ok.inj (done.symm.trans again)
        exact ⟨position, progress.receive kept unset front⟩
      · exact ⟨position, progress⟩

/-- Only the reader's turn changes how far the reader is, and messages are only
added. -/
theorem others_perform
    (setup : Setup World)
    (reader : Reader)
    (session : Session World)
    {action : Action}
    (other : ∀ most, action ≠ .turn most) :
    (session.perform setup reader action).received = session.received ∧
    (session.perform setup reader action).unset? = session.unset? ∧
    session.published <+: (session.perform setup reader action).published := by
  unfold perform
  cases action with
  | turn most => exact absurd rfl (other most)
  | publish post =>
      dsimp only
      split
      · exact ⟨rfl, rfl, List.prefix_append _ _⟩
      · exact ⟨rfl, rfl, List.prefix_rfl⟩
  | sweep now => exact ⟨rfl, rfl, List.prefix_rfl⟩
  | catalog operation => exact ⟨rfl, rfl, List.prefix_rfl⟩
  | restart ids => exact ⟨rfl, rfl, List.prefix_rfl⟩
  | _ =>
      dsimp only
      split <;> exact ⟨rfl, rfl, List.prefix_rfl⟩

theorem Progress.perform
    (progress : Progress reader session position)
    (kept : session.Kept)
    {action : Action}
    (spared : action.Spares reader) :
    ∃ position,
      Progress reader (session.perform setup reader action) position := by
  by_cases own : ∃ most, action = .turn most
  · rcases own with ⟨most, rfl⟩
    exact progress.turn kept setup.limits most
  · have other : ∀ most, action ≠ .turn most :=
      fun most same => own ⟨most, same⟩
    rcases others_perform setup reader session other with
      ⟨received, unset, more, published⟩
    have reached : (session.perform setup reader action).reached position =
        session.reached position := by
      unfold Session.reached
      rw [unset]
    refine ⟨position, ?_, ?_, ?_, ?_⟩
    · rcases position_perform kept.intact action reader.group reader.home with
        same | ⟨offset, rfl | taken, _⟩
      · exact same.trans progress.stored
      · exact absurd rfl spared
      · exact absurd taken own
    · rw [reached, ← published, messagesIn_append, List.length_append]
      exact Nat.le_add_right_of_le progress.within
    · rw [reached, ← published, messagesIn_append, received,
        List.take_append_of_le_length progress.within]
      exact progress.received
    · rw [unset]
      exact progress.ahead

theorem Progress.run
    (progress : Progress reader session position)
    (kept : session.Kept)
    (setup : Setup World)
    {actions : List Action}
    (spared : ∀ action ∈ actions, action.Spares reader) :
    ∃ position,
      Progress reader (session.run setup reader actions) position := by
  induction actions generalizing session position with
  | nil => exact ⟨position, progress⟩
  | cons action rest induct =>
      rcases List.forall_mem_cons.1 spared with ⟨head, tail⟩
      rcases progress.perform kept head with ⟨_, progress⟩
      exact induct progress (kept.perform action) tail

/-! ## A reader that is left to take turns -/

/-- A turn in which the reader sets its position. -/
theorem turn_eq_set
    {limits : Limits}
    (most : Nat)
    {next : Offset}
    (unset : session.unset? = some next)
    {keyspace : Keyspace}
    (done : Broker.commit limits session.store.keyspace reader.group reader.home
        next =
      .ok keyspace) :
    session.turn limits reader most = session.settle keyspace := by
  unfold Session.turn
  rw [unset]
  dsimp only
  rw [done]

/-- A turn in which the reader pulls. -/
theorem turn_eq_receive
    (limits : Limits)
    {most : Nat}
    (unset : session.unset? = none)
    {batch : List Message}
    (done : Broker.pull session.store.keyspace reader.group reader.home most =
      .ok batch) :
    session.turn limits reader most = session.receive batch := by
  unfold Session.turn
  rw [unset]
  dsimp only
  rw [done]

/-- Two turns bring a reader that has not everything further on: it pulls some
messages, and then it sets its position behind them. -/
theorem Progress.advance
    (progress : Progress reader session position)
    (kept : session.Kept)
    (known : Broker.checkPartition session.store.keyspace reader.home = .ok ())
    (named : setup.limits.checkName "group" reader.group = .ok ())
    {most : Nat}
    (positive : 0 < most)
    (unset : session.unset? = none)
    (more : (position.getD 0).toNat <
      (messagesIn reader.home session.published).length) :
    ∃ next, position.getD 0 < next ∧
      Progress reader (session.run setup reader [.turn most, .turn most])
        (some next) ∧
      (session.run setup reader [.turn most, .turn most]).unset? = none := by
  rcases kept.pull progress.stored known most with
    ⟨batch, pulled, front, _, all⟩
  have some : batch ≠ [] :=
    fun nothing => Nat.not_le_of_lt more (all positive nothing)
  rcases kept.carries.next_of_front front some with ⟨next, follows, number⟩
  have first := turn_eq_receive setup.limits unset pulled
  have received := progress.receive kept unset front
  have keptThen : (session.receive batch).Kept :=
    first ▸ kept.perform (.turn most)
  have next? : (session.receive batch).unset? = .some next := follows
  rcases (kept.accepts known setup.limits).2 reader.group next named with
    ⟨keyspace, committed⟩
  have both : session.run setup reader [.turn most, .turn most] =
      (session.receive batch).settle keyspace :=
    (congrArg (·.turn setup.limits reader most) first).trans
      (turn_eq_set most next? committed)
  refine ⟨next, received.ahead next next?, ?_⟩
  rw [both]
  exact ⟨received.set keptThen next? committed, rfl⟩

/-- Turns change neither what was published nor which partitions there are. -/
theorem turns_keep
    (kept : session.Kept)
    (setup : Setup World)
    (reader : Reader)
    (most turns : Nat)
    (home : PartitionKey) :
    (session.run setup reader (.replicate turns (.turn most))).published =
      session.published ∧
    Broker.checkPartition
        (session.run setup reader
          (.replicate turns (.turn most))).store.keyspace home =
      Broker.checkPartition session.store.keyspace home := by
  induction turns generalizing session with
  | zero => exact ⟨rfl, rfl⟩
  | succ turns induct =>
      rcases induct (kept.perform (.turn most)) with ⟨published, known⟩
      have logs : (Action.turn most).area ≠ .logs := nofun
      have catalog : (Action.turn most).area ≠ .catalog := nofun
      rw [List.replicate_succ]
      exact ⟨published.trans (published_perform logs),
        known.trans (checkPartition_perform kept.intact catalog home)⟩

/-- A reader that has set its position and is left to take turns receives
everything.  The induction is on the number of messages ahead of its
position. -/
theorem Progress.finish_settled
    (progress : Progress reader session position)
    (kept : session.Kept)
    (known : Broker.checkPartition session.store.keyspace reader.home = .ok ())
    (named : setup.limits.checkName "group" reader.group = .ok ())
    {most : Nat}
    (positive : 0 < most)
    (unset : session.unset? = none) :
    ∃ turns,
      (session.run setup reader (.replicate turns (.turn most))).received =
        messagesIn reader.home session.published := by
  induction counted : (messagesIn reader.home session.published).length -
    (position.getD 0).toNat
    using Nat.strongRecOn generalizing session position with
  | ind ahead induct =>
      by_cases more :
          (position.getD 0).toNat <
            (messagesIn reader.home session.published).length
      · rcases progress.advance kept known named positive unset more with
          ⟨next, further, progress, unset⟩
        rcases turns_keep kept setup reader most 2 reader.home with
          ⟨published, same⟩
        have fewer :
            (messagesIn reader.home session.published).length - next.toNat <
              ahead := by
          rw [UInt64.lt_iff_toNat_lt] at further
          omega
        rw [← published] at fewer ⊢
        rcases induct _ fewer progress (kept.run setup reader _)
          (same.trans known) unset rfl with
          ⟨turns, whole⟩
        exact ⟨turns + 2, whole⟩
      · have reached : session.reached position = (position.getD 0).toNat := by
          unfold reached
          rw [unset]
          rfl
        refine ⟨0, progress.received.trans ?_⟩
        rw [reached]
        exact List.take_of_length_le (Nat.le_of_not_lt more)

/-- A reader that is left to take turns receives everything. -/
theorem Progress.finish
    (progress : Progress reader session position)
    (kept : session.Kept)
    (known : Broker.checkPartition session.store.keyspace reader.home = .ok ())
    (named : setup.limits.checkName "group" reader.group = .ok ())
    {most : Nat}
    (positive : 0 < most) :
    ∃ turns,
      (session.run setup reader (.replicate turns (.turn most))).received =
        messagesIn reader.home session.published := by
  cases unset : session.unset? with
  | none => exact progress.finish_settled kept known named positive unset
  | some next =>
      rcases (kept.accepts known setup.limits).2 reader.group next named with
        ⟨keyspace, committed⟩
      have set : session.run setup reader [.turn most] =
          session.settle keyspace :=
        turn_eq_set most unset committed
      rcases turns_keep kept setup reader most 1 reader.home with
        ⟨published, same⟩
      have progressed : Progress reader (session.run setup reader [.turn most])
          (some next) := by
        rw [set]
        exact progress.set kept unset committed
      have unset : (session.run setup reader [.turn most]).unset? = none :=
        congrArg (·.unset?) set
      rcases progressed.finish_settled (kept.run setup reader _)
        (same.trans known) named positive
        unset with ⟨turns, whole⟩
      exact ⟨turns + 1, whole.trans (congrArg _ published)⟩

/-! ## Whole runs -/

/-- Whatever a broker is asked to do, as long as nobody else sets the reader's
position: what the reader received are the first messages of its partition, in
the order of publishing and each once, and their number is the reader's
position, or the position it has still to set when it has just pulled.  The next
pull, if the partition exists, goes on right there, and it brings nothing only
where the reader has everything; if the group's name is accepted, the reader
comes to have everything when it is left to take turns.  Pulls and commits are
accepted for every partition of every topic, and for the partition of a receipt
as long as nobody deletes its topic. -/
theorem reads_once_in_order
    (setup : Setup World)
    (reader : Reader)
    (ids : IdSource)
    (world : World)
    {actions : List Action}
    (spared : ∀ action ∈ actions, action.Spares reader)
    {session : Session World}
    (ran : run setup reader (start ids world) actions = session) :
    (∃ position,
      Cursor.position? session.store.keyspace reader.group reader.home =
        .ok position ∧
      (position.getD 0).toNat ≤
        (messagesIn reader.home session.published).length ∧
      (session.unset? = none →
        session.received =
          (messagesIn reader.home session.published).take
            (position.getD 0).toNat) ∧
      (∀ next, session.unset? = some next →
        position.getD 0 < next ∧
        next.toNat ≤ (messagesIn reader.home session.published).length ∧
        session.received =
          (messagesIn reader.home session.published).take next.toNat) ∧
      ∀ count,
        Catalog.partitionCount session.store.keyspace reader.home.topic =
          .ok count →
        reader.home.partition < count →
        ∀ most, ∃ batch,
          Broker.pull session.store.keyspace reader.group reader.home most =
            .ok batch ∧
          batch <+:
            (messagesIn reader.home session.published).drop
              (position.getD 0).toNat ∧
          batch.length ≤ most ∧
          (0 < most →
            (batch = [] ↔
              (position.getD 0).toNat =
                (messagesIn reader.home session.published).length))) ∧
    (∀ count,
      Catalog.partitionCount session.store.keyspace reader.home.topic =
        .ok count →
      reader.home.partition < count →
      setup.limits.checkName "group" reader.group = .ok () →
      ∀ most, 0 < most →
        ∃ turns,
          (session.run setup reader (.replicate turns (.turn most))).received =
            messagesIn reader.home session.published) ∧
    (∀ (index : Nat) (message : Message),
      (messagesIn reader.home session.published)[index]? = some message →
      message.offset.toNat = index) ∧
    (∀ home count,
      Catalog.partitionCount session.store.keyspace home.topic = .ok count →
      home.partition < count →
      Broker.Accepts setup.limits session.store.keyspace home) ∧
    ∀ post receipt store world,
      Broker.publish setup.limits setup.fanout session.store session.world
          post =
        .ok (receipt, store, world) →
      ∀ later, (∀ user, .catalog (.deleteTopic post.topic user) ∉ later) →
        Broker.Accepts setup.limits
          (session.run setup reader (.publish post :: later)).store.keyspace
          ⟨post.topic, receipt.partition⟩ := by
  have kept := (Kept.start ids world).run setup reader actions
  rcases (Progress.start reader ids world).run (.start ids world) setup
      spared with
    ⟨position, progress⟩
  rw [ran] at kept progress
  have within := progress.within
  have received := progress.received
  have behind := progress.position_le
  refine ⟨⟨position, Cursor.position?_eq progress.stored,
    Nat.le_trans behind within, ?_, ?_, ?_⟩, ?_,
    fun _ _ => kept.carries.numbered, ?_, ?_⟩
  · intro unset
    unfold reached at received
    rw [unset] at received
    exact received
  · intro next unset
    unfold reached at within received
    rw [unset] at within received
    exact ⟨progress.ahead next unset, within, received⟩
  · intro count counted inside most
    have known := Broker.checkPartition_eq_ok_iff.2 ⟨count, counted, inside⟩
    rcases kept.pull progress.stored known most with
      ⟨batch, done, front, short, all⟩
    refine ⟨batch, done, front, short, fun positive =>
      ⟨fun nothing => ?_, fun whole => ?_⟩⟩
    · exact Nat.le_antisymm (Nat.le_trans behind within) (all positive nothing)
    · rw [whole, List.drop_length] at front
      exact List.prefix_nil.1 front
  · intro count counted inside named most positive
    have known := Broker.checkPartition_eq_ok_iff.2 ⟨count, counted, inside⟩
    exact progress.finish kept known named positive
  · intro home count counted inside
    exact kept.accepts
      (Broker.checkPartition_eq_ok_iff.2 ⟨count, counted, inside⟩) setup.limits
  · intro post receipt store world done later stays
    exact kept.accepts_receipt done stays

/-- A broker on its own. -/
def alone : Setup Unit where
  limits := {}
  settings := {}
  fanout := .ofPeers "a" [] 1

/-- The reader of a partition whose topic begins like another. -/
def first : Reader where
  group := "g"
  home := ⟨"t", 0⟩

/-- The reader takes turns while messages are published and another group sets
its position. -/
def busy : Session Unit :=
  run alone first (start (.series 0) ())
    [.catalog (.createTopic ⟨"t", 1, "u"⟩),
      .catalog (.createTopic ⟨"t-1", 2, "u"⟩), .publish ⟨"t", "k", [1], "p"⟩,
      .publish ⟨"t-1", "k", [2], "p"⟩, .turn 1, .publish ⟨"t", "l", [3], "p"⟩,
      .commit "g-1" ⟨"t", 0⟩ 7, .turn 1, .restart (.series 9), .turn 5,
      .publish ⟨"t", "m", [4], "p"⟩, .turn 5]

/-- The reader has set its position behind the first two of three messages. -/
theorem reads_once_in_order_busy :
    (∃ position,
      Cursor.position? busy.store.keyspace "g" ⟨"t", 0⟩ = .ok position ∧
      busy.received =
        (messagesIn ⟨"t", 0⟩ busy.published).take (position.getD 0).toNat) ∧
    busy.received.map (·.payload) = [[1], [3]] ∧
    Broker.Accepts {} busy.store.keyspace ⟨"t-1", 1⟩ := by
  rcases reads_once_in_order alone first (.series 0) () (by decide)
    (rfl : _ = busy) with
    ⟨⟨position, stored, _, received, _⟩, _, _, accepted, _⟩
  refine ⟨⟨position, stored, received (by decide +kernel)⟩,
    by decide +kernel, ?_⟩
  exact accepted ⟨"t-1", 1⟩ 2 (by decide +kernel) (by decide)

end MessageBroker.Session
