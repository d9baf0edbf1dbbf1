import MessageBroker.Proofs.Reconciling

/-!
# Reconciliations that add nothing

A reconciliation counts the messages that it stored.  Where it counted none,
every offset that is held afterwards was held before; where the source has a
hole at the end of every listed partition, it counts none and leaves the store
as it was.  The catalog is never changed, so a second reconciliation lists the
same partitions as the first, and it has the same source as long as the same
peers answer.
-/

namespace MessageBroker

namespace Catalog

/-- The keys of messages and counters are not among those of topics. -/
theorem not_front_topics
    {key : Key}
    (other : key.letter ≠ 0x74) :
    ¬ Bytes.ofText Key.topics <+: key.bytes := by
  have front : Bytes.ofText Key.topics = [0x74, Bytes.colon] := by decide
  rw [front, Key.bytes_eq_cons]
  intro stemmed
  exact other (List.cons_prefix_cons.1 stemmed).1.symm

theorem topics_place
    {store after : Store}
    {message : Message}
    {outcome : Log.Outcome}
    (done : store.place message = .ok (outcome, after)) :
    topics after.keyspace = topics store.keyspace := by
  have insert : ∀ (keyspace : Keyspace) (key : Key) (value : Bytes),
      key.letter ≠ 0x74 →
      topics (keyspace.insert key.bytes value) = topics keyspace := by
    intro keyspace key value other
    rw [topics, Keyspace.withStem_insert_other (not_front_topics other), topics]
  obtain ⟨placed, inner, _, same, _⟩ := Store.place_eq_ok_iff.1 done
  obtain ⟨_, _, _, _, _, _, written⟩ := Log.place_eq_ok_iff.1 inner
  rw [same, written]
  unfold Log.written OrderedMap.fill
  dsimp only
  have counter : ∀ (keyspace : Keyspace) (home : PartitionKey) (count : UInt64),
      topics (keyspace.setCounter (.nextOffset home) count) = topics keyspace :=
    fun keyspace home count =>
      insert keyspace (.nextOffset home) _ (by rw [Key.letter]; decide)
  have record : ∀ (keyspace : Keyspace) (home : PartitionKey) (offset : Offset)
      (value : Bytes),
      topics (keyspace.insert (Key.message home offset).bytes value) =
        topics keyspace :=
    fun keyspace home offset value =>
      insert keyspace (.message home offset) value (by rw [Key.letter]; decide)
  split <;> split <;> simp only [counter, record]

theorem topics_placeAll
    {batch : List Message}
    (tally : Tally)
    (store : Store) :
    topics (store.placeAll tally batch).2.keyspace = topics store.keyspace := by
  induction batch generalizing tally store with
  | nil => rfl
  | cons message rest step =>
      unfold Store.placeAll
      split
      · rename_i outcome next done
        rw [step, topics_place done]
      · rfl

end Catalog

/-! ## Counting what is new -/

namespace Store

variable {store after : Store}

theorem applied_le_add
    (tally : Tally)
    (outcome : Log.Outcome) :
    tally.applied ≤ (tally.add outcome).applied := by
  cases outcome with
  | applied => exact Nat.le_succ _
  | duplicate => exact Nat.le_refl _

theorem applied_le_placeAll
    {batch : List Message}
    {tally result : Tally}
    (done : store.placeAll tally batch = (.ok result, after)) :
    tally.applied ≤ result.applied := by
  induction batch generalizing store tally with
  | nil =>
      cases done
      exact Nat.le_refl _
  | cons message rest step =>
      unfold placeAll at done
      split at done
      · exact Nat.le_trans (applied_le_add tally _) (step done)
      · cases done

/-- A batch that counts nothing new brings nothing new. -/
theorem Sound.holds_of_placeAll
    {batch : List Message}
    {tally result : Tally}
    (sound : store.Sound)
    (free : ∀ message ∈ batch, ':' ∉ message.topic.toList)
    (done : store.placeAll tally batch = (.ok result, after))
    (idle : result.applied ≤ tally.applied)
    {home : PartitionKey}
    {offset : Offset}
    (held : Log.Holds after.keyspace home offset) :
    Log.Holds store.keyspace home offset := by
  induction batch generalizing store tally with
  | nil =>
      cases done
      exact held
  | cons message rest step =>
      unfold placeAll at done
      split at done
      · rename_i outcome next placed
        have headFree := free message List.mem_cons_self
        have restFree : ∀ other ∈ rest, ':' ∉ other.topic.toList :=
          fun other inside => free other (List.mem_cons_of_mem _ inside)
        have still := applied_le_placeAll done
        have before := step (sound.place headFree placed) restFree done
          (Nat.le_trans idle (applied_le_add tally outcome))
        rw [sound.holds_place headFree placed] at before
        rcases before with old | ⟨rfl, rfl⟩
        · exact old
        · obtain ⟨inner, placing, rfl, _⟩ := place_eq_ok_iff.1 placed
          obtain ⟨_, _, _, free?, _⟩ :=
            Log.Sound.place_get? sound headFree placing
          apply Decidable.byContradiction
          intro vacant
          rw [free?.2 vacant] at still
          exact absurd (Nat.le_trans still idle) (Nat.not_succ_le_self _)
      · cases done

end Store

variable {World : Type}

namespace CatchUp

variable {theirs : Keyspace} {ends : MessageBroker.Ends} {home : PartitionKey}
  {peer : Peer World} {world : World} {store : Store}

/-- A peer answers every window. -/
def Answers (peer : Peer World) (world : World) : Prop :=
  ∀ home window, ∃ page, (peer.range home window world).1 = .ok page

theorem topics_resume
    (size : UInt64)
    (stop : Option Offset)
    (cursor : Offset)
    (report : Report)
    (store : Store)
    (world : World) :
    Catalog.topics
        (resume peer size home stop cursor report store world).2.1.keyspace =
      Catalog.topics store.keyspace := by
  have kept : ∀ {store after : Store} {page : List Message}
      {result : Except Error Tally},
      store.placeAll {} page = (result, after) →
      Catalog.topics after.keyspace = Catalog.topics store.keyspace := by
    intro store after page result placed
    rw [← Catalog.topics_placeAll {} store, placed]
  fun_induction resume peer size home stop cursor report store world with
  | case1 => rfl
  | case2 => rfl
  | case3 cursor report store world window next page world' answer fault store'
      placed =>
      exact kept placed
  | case4 cursor report store world window next page world' answer tally store'
    placed report'
      last =>
      exact kept placed
  | case5 cursor report store world window next page world' answer tally store'
    placed report'
      cursor' further step =>
      exact step.trans (kept placed)

/-- At a hole of the peer, a catch-up ends at once. -/
theorem resume_of_hole
    (shows : Shows peer world theirs)
    (answers : Answers peer world)
    (source : Log.Sound theirs ends)
    {size : UInt64}
    {cursor : Offset}
    (hole : Hole theirs home size cursor)
    (report : Report)
    (store : Store) :
    resume peer size home none cursor report store world =
      (.ok report, store, world) := by
  have nothing := (ends_iff_hole source).2 hole _ rfl
  obtain ⟨same, front⟩ := shows home ⟨cursor, some (cursor.advance size)⟩
  obtain ⟨page, answer⟩ := answers home ⟨cursor, some (cursor.advance size)⟩
  have empty : page = [] := by
    have prefix' := front page answer
    rw [nothing] at prefix'
    exact List.prefix_nil.1 prefix'
  subst empty
  have answered : peer.range home ⟨cursor, some (cursor.advance size)⟩ world =
      (.ok [], world) :=
    Prod.ext answer same
  exact resume_of_last rfl answered rfl rfl report

theorem applied_le_resume
    {size : UInt64}
    {stop : Option Offset}
    {cursor : Offset}
    {report result : Report}
    (done : (resume peer size home stop cursor report store world).1 =
      .ok result) :
    report.applied ≤ result.applied := by
  fun_induction resume peer size home stop cursor report store world with
  | case1 => exact Nat.le_of_eq (congrArg (·.applied) (Except.ok.inj done))
  | case2 => cases done
  | case3 => cases done
  | case4 =>
      rw [← Except.ok.inj done]
      exact Nat.le_add_right _ _
  | case5 cursor report store world window next page world' answer tally store'
    placed report'
      cursor' further step =>
      exact Nat.le_trans (Nat.le_add_right _ _) (step done)

/-- A catch-up that counts nothing new brings nothing new. -/
theorem holds_of_resume
    (shows : Shows peer world theirs)
    (source : Log.Sound theirs ends)
    {size : UInt64}
    {stop : Option Offset}
    {cursor : Offset}
    {report result : Report}
    (sound : store.Sound)
    (done : (resume peer size home stop cursor report store world).1 =
      .ok result)
    (idle : result.applied ≤ report.applied)
    {other : PartitionKey}
    {offset : Offset}
    (held : Log.Holds
      (resume peer size home stop cursor report store world).2.1.keyspace other
      offset) :
    Log.Holds store.keyspace other offset := by
  have quiet : ∀ {world' : World} {window : Log.Window} {page : List Message}
      {store after : Store} {tally : Tally},
      peer.range home window world = (.ok page, world') → store.Sound →
      store.placeAll {} page = (.ok tally, after) → tally.applied ≤ 0 →
      Log.Holds after.keyspace other offset →
      Log.Holds store.keyspace other offset := by
    intro world' window page store after tally answer sound placed none held
    obtain ⟨_, front⟩ := shows.answer answer
    have free : ∀ message ∈ page, ':' ∉ message.topic.toList :=
      fun message inside =>
        source.free_of_record (from_of_mem_page source front inside).2.1
    exact sound.holds_of_placeAll free placed none held
  fun_induction resume peer size home stop cursor report store world with
  | case1 => exact held
  | case2 => cases done
  | case3 => cases done
  | case4 cursor report store world window next page world' answer tally store'
    placed report'
      last =>
      rw [← Except.ok.inj done] at idle
      exact quiet answer sound placed (Nat.le_of_add_le_add_left idle) held
  | case5 cursor report store world window next page world' answer tally store'
    placed report'
      cursor' further step =>
      obtain ⟨same, front⟩ := shows.answer answer
      subst same
      have counted : report.applied + tally.applied ≤ result.applied :=
        applied_le_resume done
      have none : tally.applied ≤ 0 := by omega
      have grows := grows_page source front sound
      rw [placed] at grows
      have still : result.applied ≤ report'.applied :=
        Nat.le_trans idle (Nat.le_add_right _ _)
      exact quiet answer sound placed none
        (step shows grows.sound done still held quiet)

end CatchUp

namespace Leader

variable {fanout : Fanout World} {world other : World}

theorem isReachable_congr
    (same : ∀ peer ∈ fanout.peers,
      (peer.ping other).1.isOk = (peer.ping world).1.isOk)
    (id : NodeId) :
    (isReachable fanout id other).1 = (isReachable fanout id world).1 := by
  unfold isReachable
  cases known : fanout.peer? id with
  | none => rfl
  | some peer => exact same peer (List.mem_of_find?_eq_some known)

/-- The source depends on nothing but which peers answer. -/
theorem source?_congr
    (quiet : Quiet fanout world)
    (quiet' : Quiet fanout other)
    (same : ∀ peer ∈ fanout.peers,
      (peer.ping other).1.isOk = (peer.ping world).1.isOk)
    (order : List NodeId) :
    (source? fanout other order).1 = (source? fanout world order).1 := by
  induction order with
  | nil => rfl
  | cons id rest step =>
      unfold source?
      split
      · exact step
      · dsimp only
        rw [isReachable_congr same, (isReachable_eq quiet id).1,
          (isReachable_eq quiet' id).1]
        split
        · rfl
        · exact step

theorem ne_self_of_source?
    (quiet : Quiet fanout world)
    {order : List NodeId}
    {id : NodeId}
    (selected : (source? fanout world order).1 = some id) :
    id ≠ fanout.self := by
  induction order with
  | nil => cases selected
  | cons first rest step =>
      unfold source? at selected
      split at selected
      · exact step selected
      · rename_i different
        dsimp only at selected
        split at selected
        · cases selected
          exact different
        · rw [(isReachable_eq quiet first).1] at selected
          exact step selected

end Leader

namespace Reconciliation

variable {fanout : Fanout World} {id : NodeId} {peer : Peer World}
  {world : World} {theirs : Keyspace} {ends remembered : MessageBroker.Ends}
  {store : Store}

theorem topics_catchUpAll
    (homes : List PartitionKey)
    (report : Report)
    (store : Store)
    (world : World) :
    Catalog.topics
        (catchUpAll fanout id remembered report store world
          homes).2.1.keyspace =
      Catalog.topics store.keyspace := by
  induction homes generalizing report store world with
  | nil => rfl
  | cons home rest step =>
      unfold catchUpAll
      refine (step _ _ _).trans ?_
      split
      · rfl
      · exact CatchUp.topics_resume _ _ _ _ _ _

/-- Where the source has holes at the ends of all listed partitions, nothing
happens. -/
theorem catchUpAll_of_holes
    (known : fanout.peer? id = some peer)
    (shows : CatchUp.Shows peer world theirs)
    (answers : CatchUp.Answers peer world)
    (source : Log.Sound theirs ends)
    {homes : List PartitionKey}
    (holes : ∀ home ∈ homes,
      CatchUp.Hole theirs home fanout.page (remembered.next home))
    (report : Report)
    (store : Store) :
    catchUpAll fanout id remembered report store world homes =
      ({ report with partitions := report.partitions + homes.length }, store,
        world) := by
  induction homes generalizing report with
  | nil => rfl
  | cons home rest step =>
      unfold catchUpAll
      rw [CatchUp.run_eq known,
        CatchUp.resume_of_hole shows answers source
          (holes home List.mem_cons_self)]
      refine (step
        (fun other inside => holes other (List.mem_cons_of_mem _ inside))
        _).trans ?_
      rw [Report.add, List.length_cons, Nat.add_assoc, Nat.add_comm 1]
      rfl

theorem partitions_add
    (report : Report)
    (result : Except Error CatchUp.Report) :
    (report.add result).partitions = report.partitions + 1 := by
  cases result <;> rfl

theorem partitions_catchUpAll
    (homes : List PartitionKey)
    (report : Report)
    (store : Store)
    (world : World) :
    (catchUpAll fanout id remembered report store world homes).1.partitions =
      report.partitions + homes.length := by
  induction homes generalizing report store world with
  | nil => rfl
  | cons home rest step =>
      unfold catchUpAll
      rw [step, partitions_add, List.length_cons, Nat.add_assoc, Nat.add_comm 1]

theorem applied_le_add
    (report : Report)
    (result : Except Error CatchUp.Report) :
    report.applied ≤ (report.add result).applied := by
  cases result with
  | ok caughtUp => exact Nat.le_add_right _ _
  | error fault => exact Nat.le_refl _

theorem applied_le_catchUpAll
    (homes : List PartitionKey)
    (report : Report)
    (store : Store)
    (world : World) :
    report.applied ≤
      (catchUpAll fanout id remembered report store world homes).1.applied := by
  induction homes generalizing report store world with
  | nil => exact Nat.le_refl _
  | cons home rest step =>
      exact Nat.le_trans (applied_le_add report _) (step _ _ _)

/-- A reconciliation without failures that counts nothing new brings nothing
new.  Neither total ever falls, so where it is the same in the end, no partition
raised it. -/
theorem holds_of_catchUpAll
    (known : fanout.peer? id = some peer)
    (shows : CatchUp.Shows peer world theirs)
    (source : Log.Sound theirs ends)
    {homes : List PartitionKey}
    {report : Report}
    (sound : store.Sound)
    (succeeds :
      (catchUpAll fanout id remembered report store world homes).1.failures ≤
        report.failures)
    (idle :
      (catchUpAll fanout id remembered report store world homes).1.applied ≤
        report.applied)
    {home : PartitionKey}
    {offset : Offset}
    (held : Log.Holds
      (catchUpAll fanout id remembered report store world homes).2.1.keyspace
      home offset) :
    Log.Holds store.keyspace home offset := by
  induction homes generalizing report store with
  | nil => exact held
  | cons first rest step =>
      unfold catchUpAll at succeeds idle held
      rw [CatchUp.run_eq known] at succeeds idle held
      obtain ⟨grows, same⟩ :=
        CatchUp.resume_grows shows source fanout.page first none
          (remembered.next first) {} sound
      have nothing : ∀ result,
          (CatchUp.resume peer fanout.page first none (remembered.next first) {}
              store world).1 =
            .ok result →
          result.applied ≤ 0 →
          Log.Holds
            (CatchUp.resume peer fanout.page first none (remembered.next first)
              {} store world).2.1.keyspace home offset →
          Log.Holds store.keyspace home offset :=
        fun result done none held =>
          CatchUp.holds_of_resume shows source sound done none held
      generalize CatchUp.resume peer fanout.page first none
        (remembered.next first) {} store world =
        outcome at grows same nothing succeeds idle held
      obtain ⟨result, store', world'⟩ := outcome
      subst same
      have kept : (report.add result).failures ≤ report.failures :=
        Nat.le_trans (failures_le_catchUpAll rest _ store' world') succeeds
      have counted : (report.add result).applied ≤ report.applied :=
        Nat.le_trans (applied_le_catchUpAll rest _ store' world') idle
      cases result with
      | error fault => exact absurd kept (Nat.not_succ_le_self _)
      | ok caughtUp =>
          have still :=
            Nat.le_trans succeeds (failures_le_add report (.ok caughtUp))
          have before := step grows.sound still
            (Nat.le_trans idle (applied_le_add report (.ok caughtUp))) held
          exact nothing caughtUp rfl (Nat.le_of_add_le_add_left counted) before

end Reconciliation

end MessageBroker
