import MessageBroker.Proofs.CatchingUp
import MessageBroker.Reconciliation

/-!
# Reconciling copies records

A reconciliation is a catch-up on every partition that the catalog lists, each
from the end that the node had when it began.  With a source that shows a
keyspace, a node grows by records of it that lie at or beyond those ends, and by
nothing below them.  Without failures, every one of its catch-ups succeeded.
-/

namespace MessageBroker

variable {World : Type}

namespace Leader

/-- Pings leave the world as it is. -/
def Quiet (fanout : Fanout World) (world : World) : Prop :=
  ∀ peer ∈ fanout.peers, (peer.ping world).2 = world

variable {fanout : Fanout World} {world : World}

theorem isReachable_eq
    (quiet : Quiet fanout world)
    (id : NodeId) :
    (isReachable fanout id world).2 = world ∧
    ((isReachable fanout id world).1 = true →
      ∃ peer, fanout.peer? id = some peer ∧ (peer.ping world).1.isOk) := by
  unfold isReachable
  split
  · exact ⟨rfl, fun reachable => absurd reachable Bool.false_ne_true⟩
  · rename_i peer known
    exact ⟨quiet peer (List.mem_of_find?_eq_some known), fun reachable =>
      ⟨peer, known, reachable⟩⟩

/-- The source of a reconciliation is a peer that answered a ping. -/
theorem source?_eq
    (quiet : Quiet fanout world)
    (order : List NodeId) :
    (source? fanout world order).2 = world ∧
    ∀ id, (source? fanout world order).1 = some id →
      ∃ peer, fanout.peer? id = some peer ∧ (peer.ping world).1.isOk := by
  induction order with
  | nil =>
      refine ⟨rfl, fun id selected => ?_⟩
      cases selected
  | cons id rest step =>
      obtain ⟨same, answered⟩ := isReachable_eq quiet id
      unfold source?
      split
      · exact step
      · dsimp only
        split
        · rename_i reachable
          refine ⟨same, fun selected known => ?_⟩
          cases known
          exact answered reachable
        · rw [same]
          exact step

end Leader

namespace CatchUp

variable {fanout : Fanout World} {id : NodeId} {peer : Peer World}
  {world : World} {theirs : Keyspace} {ends : MessageBroker.Ends}
  {store : Store}

theorem run_eq
    (known : fanout.peer? id = some peer)
    (home : PartitionKey)
    (window : Log.Window)
    (store : Store)
    (world : World) :
    run fanout id home window store world =
      resume peer fanout.page home window.stop window.start {} store world := by
  unfold run
  rw [known]

end CatchUp

namespace Reconciliation

variable {fanout : Fanout World} {id : NodeId} {peer : Peer World}
  {world : World} {theirs : Keyspace} {ends remembered : MessageBroker.Ends}
  {store : Store}

/-- The messages that a keyspace holds at or beyond the ends that were
remembered. -/
def Missing
    (theirs : Keyspace)
    (remembered : MessageBroker.Ends)
    (message : Message) :
    Prop :=
  Log.Contains theirs message ∧ remembered.next message.home ≤ message.offset

/-- What the catch-ups of all listed partitions store, a reconciliation
stores. -/
theorem catchUpAll_grows_of
    (known : fanout.peer? id = some peer)
    {kind : Message → Prop}
    {homes : List PartitionKey}
    (each : ∀ home ∈ homes, ∀ store : Store, store.Sound →
      Store.Grows kind store
        (CatchUp.resume peer fanout.page home none (remembered.next home) {}
          store world).2.1 ∧
      (CatchUp.resume peer fanout.page home none (remembered.next home) {} store
          world).2.2 =
        world)
    (report : Report)
    (sound : store.Sound) :
    Store.Grows kind store
      (catchUpAll fanout id remembered report store world homes).2.1 ∧
    (catchUpAll fanout id remembered report store world homes).2.2 = world := by
  induction homes generalizing report store with
  | nil => exact ⟨.refl sound, rfl⟩
  | cons home rest step =>
      unfold catchUpAll
      rw [CatchUp.run_eq known]
      obtain ⟨grows, same⟩ := each home List.mem_cons_self store sound
      generalize CatchUp.resume peer fanout.page home none
        (remembered.next home) {} store world =
        outcome at grows same
      obtain ⟨result, store', world'⟩ := outcome
      subst same
      obtain ⟨grows', same'⟩ :=
        step (fun home inside => each home (List.mem_cons_of_mem _ inside))
          (report.add result) grows.sound
      exact ⟨grows.trans grows', same'⟩

/-- Whatever fails on the way, a reconciliation copies records from the
remembered ends on. -/
theorem catchUpAll_grows
    (known : fanout.peer? id = some peer)
    (shows : CatchUp.Shows peer world theirs)
    (source : Log.Sound theirs ends)
    (remembered : MessageBroker.Ends)
    (homes : List PartitionKey)
    (report : Report)
    (sound : store.Sound) :
    Store.Grows (Missing theirs remembered) store
      (catchUpAll fanout id remembered report store world homes).2.1 ∧
    (catchUpAll fanout id remembered report store world homes).2.2 = world := by
  apply catchUpAll_grows_of known ?_ report sound
  intro home _ store sound
  obtain ⟨grows, same⟩ :=
    CatchUp.resume_grows shows source fanout.page home none
      (remembered.next home) {} sound
  refine ⟨grows.weaken ?_, same⟩
  rintro message ⟨rfl, held, least⟩
  exact ⟨held, least⟩

/-- A reconciliation stores nothing beyond a hole of the source. -/
theorem catchUpAll_grows_below
    (known : fanout.peer? id = some peer)
    (shows : CatchUp.Shows peer world theirs)
    (source : Log.Sound theirs ends)
    {home : PartitionKey}
    {bound : Offset}
    (before : remembered.next home ≤ bound)
    (hole : CatchUp.Hole theirs home fanout.page bound)
    (homes : List PartitionKey)
    (report : Report)
    (sound : store.Sound) :
    Store.Grows
      (fun message =>
        Missing theirs remembered message ∧
        (message.home = home → message.offset < bound)) store
      (catchUpAll fanout id remembered report store world homes).2.1 := by
  refine (catchUpAll_grows_of known ?_ report sound).1
  intro other _ store sound
  obtain ⟨grows, same⟩ :=
    CatchUp.resume_grows shows source fanout.page other none
      (remembered.next other) {} sound
  refine ⟨?_, same⟩
  by_cases here : other = home
  · subst here
    apply (CatchUp.resume_grows_below shows source hole before {} sound).weaken
    rintro message ⟨⟨rfl, held, least⟩, below⟩
    exact ⟨⟨held, least⟩, fun _ => below⟩
  · apply grows.weaken
    rintro message ⟨rfl, held, least⟩
    exact ⟨⟨held, least⟩, fun same => absurd same here⟩

theorem failures_le_add
    (report : Report)
    (result : Except Error CatchUp.Report) :
    report.failures ≤ (report.add result).failures := by
  cases result with
  | ok caughtUp => exact Nat.le_refl _
  | error fault => exact Nat.le_succ _

theorem failures_le_catchUpAll
    (homes : List PartitionKey)
    (report : Report)
    (store : Store)
    (world : World) :
    report.failures ≤
      (catchUpAll fanout id remembered report store world
        homes).1.failures := by
  induction homes generalizing report store world with
  | nil => exact Nat.le_refl _
  | cons home rest step =>
      exact Nat.le_trans (failures_le_add report _) (step _ _ _)

/-- Without failures, every partition was caught up on until there was nothing
to see. -/
theorem catchUpAll_complete
    (known : fanout.peer? id = some peer)
    (shows : CatchUp.Shows peer world theirs)
    (yields : CatchUp.Yields peer world theirs)
    (source : Log.Sound theirs ends)
    (remembered : MessageBroker.Ends)
    {homes : List PartitionKey}
    (report : Report)
    (sound : store.Sound)
    (succeeds :
      (catchUpAll fanout id remembered report store world homes).1.failures ≤
        report.failures)
    {home : PartitionKey}
    (listed : home ∈ homes) :
    ∃ finish, remembered.next home ≤ finish ∧
      CatchUp.Ends theirs home fanout.page none finish ∧
      ∀ message, CatchUp.From theirs home (remembered.next home) message →
        message.offset < finish →
        Log.Holds
          (catchUpAll fanout id remembered report store world
            homes).2.1.keyspace home message.offset := by
  induction homes generalizing report store with
  | nil => cases listed
  | cons first rest step =>
      unfold catchUpAll at succeeds ⊢
      rw [CatchUp.run_eq known] at succeeds ⊢
      obtain ⟨grows, same⟩ :=
        CatchUp.resume_grows shows source fanout.page first none
          (remembered.next first) {} sound
      have complete :=
        CatchUp.resume_complete shows yields source fanout.page first none
          (remembered.next first) {} sound
      generalize CatchUp.resume peer fanout.page first none
        (remembered.next first) {} store world =
        outcome at grows same complete succeeds
      obtain ⟨result, store', world'⟩ := outcome
      subst same
      obtain ⟨later, _⟩ :=
        catchUpAll_grows known shows source remembered rest (report.add result)
          grows.sound
      have kept : (report.add result).failures ≤ report.failures :=
        Nat.le_trans (failures_le_catchUpAll rest _ store' world') succeeds
      cases result with
      | error fault => exact absurd kept (Nat.not_succ_le_self _)
      | ok caughtUp =>
          rcases List.mem_cons.1 listed with rfl | listed
          · obtain ⟨finish, least, ended, copied⟩ := complete caughtUp rfl
            refine ⟨finish, least, ended, fun message missing before => ?_⟩
            exact later.holds grows.sound (copied message missing before)
          · have still :=
              Nat.le_trans succeeds (failures_le_add report (.ok caughtUp))
            exact step (report.add (.ok caughtUp)) grows.sound still listed

theorem peer_add
    (report : Report)
    (result : Except Error CatchUp.Report) :
    (report.add result).peer = report.peer := by
  cases result <;> rfl

theorem peer_catchUpAll
    (fanout : Fanout World)
    (id : NodeId)
    (remembered : MessageBroker.Ends)
    (homes : List PartitionKey)
    (report : Report)
    (store : Store)
    (world : World) :
    (catchUpAll fanout id remembered report store world homes).1.peer =
      report.peer := by
  induction homes generalizing report store world with
  | nil => rfl
  | cons home rest step =>
      unfold catchUpAll
      rw [step, peer_add]

/-- What a reconciliation can come to: it has no source or no catalog to go by,
or it catches up on every listed partition from a peer that answered a ping. -/
theorem run_cases
    (quiet : Leader.Quiet fanout world)
    (order : List NodeId)
    (store : Store) :
    (∃ report, (report.peer = none ∨ 0 < report.failures) ∧
      run fanout order store world = (report, store, world)) ∨
    ∃ id peer topics, fanout.peer? id = some peer ∧
      (peer.ping world).1.isOk ∧
      Catalog.topics store.keyspace = .ok topics ∧
      run fanout order store world =
        catchUpAll fanout id store.ends { peer := some id } store world
          (homes topics) := by
  obtain ⟨same, answered⟩ := Leader.source?_eq quiet order
  unfold run
  split
  · exact .inl ⟨_, .inl rfl, rfl⟩
  · generalize Leader.source? fanout world order = source at same answered
    obtain ⟨selected, world'⟩ := source
    subst same
    cases selected with
    | none => exact .inl ⟨_, .inl rfl, rfl⟩
    | some id =>
        obtain ⟨peer, known, alive⟩ := answered id rfl
        cases listed : Catalog.topics store.keyspace with
        | error fault => exact .inl ⟨_, .inr Nat.one_pos, rfl⟩
        | ok topics => exact .inr ⟨id, peer, topics, known, alive, rfl, rfl⟩

/-- A report that names a source comes from a reconciliation that selected
it. -/
theorem source?_of_run
    (quiet : Leader.Quiet fanout world)
    {order : List NodeId}
    (selected : (run fanout order store world).1.peer = some id) :
    fanout.isInert = false ∧
    (Leader.source? fanout world order).1 = some id := by
  have same := (Leader.source?_eq quiet order).1
  unfold run at selected
  split at selected
  · cases selected
  · rename_i live
    refine ⟨by simpa using live, ?_⟩
    generalize Leader.source? fanout world order = source at same selected
    obtain ⟨chosen, world'⟩ := source
    cases chosen with
    | none => cases selected
    | some other =>
        dsimp only at selected
        split at selected
        · exact selected
        · rw [peer_catchUpAll] at selected
          exact selected

/-- A reconciliation with a source and a catalog catches up on every listed
partition. -/
theorem run_of_source?
    (quiet : Leader.Quiet fanout world)
    {order : List NodeId}
    (live : fanout.isInert = false)
    (chosen : (Leader.source? fanout world order).1 = some id)
    {topics : List Catalog.Topic}
    (listed : Catalog.topics store.keyspace = .ok topics) :
    run fanout order store world =
      catchUpAll fanout id store.ends { peer := some id } store world
        (homes topics) := by
  have same := (Leader.source?_eq quiet order).1
  unfold run
  rw [if_neg (by simp [live])]
  generalize Leader.source? fanout world order = source at same chosen
  obtain ⟨selected, world'⟩ := source
  subst same chosen
  simp only [listed]

end Reconciliation

end MessageBroker
