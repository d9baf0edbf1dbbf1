import Mathlib.Algebra.GroupWithZero.Nat
import MessageBroker.Peer.Scripted
import MessageBroker.Proofs.Standstill

/-!
# What reconciliations report

A reconciliation that has a source and can read the catalog visits every
partition of every topic, whatever becomes of the others, and each visit is a
catch-up from the end that the node remembered when the reconciliation began.
Its report counts the visits, those that failed, and what the others stored.  A
visit that fails may have stored messages before it failed; those stay, and the
report leaves them out.
-/

namespace MessageBroker

/-! ## How many messages a log holds -/

namespace Log

/-- How many messages a keyspace holds. -/
def recordCount (keyspace : Keyspace) : Nat :=
  (keyspace.withStem Key.messages).length

/-- How many messages are new by an outcome. -/
def Outcome.added : Outcome → Nat
  | .applied => 1
  | .duplicate => 0

theorem recordCount_insert
    (keyspace : Keyspace)
    (key : Key)
    (content : Bytes) :
    recordCount (keyspace.insert key.bytes content) =
      recordCount keyspace +
        if key.letter = 0x6d ∧ keyspace.get? key.bytes = none then 1
        else 0 := by
  have front : Bytes.ofText Key.messages = [0x6d, Bytes.colon] := by decide
  rw [recordCount, Keyspace.length_withStem_insert, recordCount]
  simp only [Key.front_iff front]

theorem recordCount_fill
    (keyspace : Keyspace)
    (home : PartitionKey)
    (offset : Offset)
    (value : Bytes) :
    recordCount (keyspace.fill (Key.message home offset).bytes value) =
      recordCount keyspace + if Holds keyspace home offset then 0 else 1 := by
  unfold OrderedMap.fill
  by_cases held : (keyspace.get? (Key.message home offset).bytes).isSome
  · rw [if_pos held, if_pos (show Holds keyspace home offset from held),
      Nat.add_zero]
  · rw [if_neg held, if_neg (show ¬ Holds keyspace home offset from held),
      recordCount_insert, if_pos ⟨rfl, Option.not_isSome_iff_eq_none.1 held⟩]

theorem recordCount_written
    (keyspace : Keyspace)
    (message : Message)
    (value : Bytes)
    (current next : Offset) :
    recordCount (written keyspace message value current next) =
      recordCount keyspace +
        if Holds keyspace message.home message.offset then 0 else 1 := by
  have counter : (Key.nextOffset message.home).letter ≠ 0x6d := by
    rw [Key.letter]
    decide
  unfold written
  dsimp only
  split
  · rw [Keyspace.setCounter, recordCount_insert, if_neg fun both =>
      counter both.1, Nat.add_zero,
      recordCount_fill]
  · rw [recordCount_fill]

theorem recordCount_place
    {keyspace : Keyspace}
    {fresh : FreshId}
    {message : Message}
    {placed : Placed}
    (done : place keyspace fresh message = .ok placed) :
    recordCount placed.keyspace =
      recordCount keyspace + placed.outcome.added := by
  obtain ⟨value, current, _, _, _, outcome, same⟩ := place_eq_ok_iff.1 done
  rw [same, recordCount_written, outcome]
  split <;> rfl

end Log

namespace Store

/-- How many messages a store holds. -/
def recordCount (store : Store) : Nat :=
  Log.recordCount store.keyspace

variable {store after : Store}

theorem recordCount_place
    {message : Message}
    {outcome : Log.Outcome}
    (done : store.place message = .ok (outcome, after)) :
    after.recordCount = store.recordCount + outcome.added := by
  obtain ⟨placed, inner, rfl, same, _⟩ := place_eq_ok_iff.1 done
  rw [recordCount, same, Log.recordCount_place inner, recordCount]

theorem applied_add
    (tally : Tally)
    (outcome : Log.Outcome) :
    (tally.add outcome).applied = tally.applied + outcome.added := by
  cases outcome <;> rfl

theorem recordCount_le_placeAll
    (tally : Tally)
    (batch : List Message)
    (store : Store) :
    store.recordCount ≤ (store.placeAll tally batch).2.recordCount := by
  induction batch generalizing tally store with
  | nil => exact Nat.le_refl _
  | cons message rest step =>
      unfold placeAll
      split
      · rename_i outcome next placed
        have grown := recordCount_place placed
        exact Nat.le_trans (grown ▸ Nat.le_add_right _ _) (step _ next)
      · exact Nat.le_refl _

/-- A batch that is placed as a whole counts what it adds. -/
theorem recordCount_placeAll
    {batch : List Message}
    {tally result : Tally}
    (done : store.placeAll tally batch = (.ok result, after)) :
    after.recordCount + tally.applied = store.recordCount + result.applied := by
  induction batch generalizing store tally with
  | nil =>
      cases done
      rfl
  | cons message rest step =>
      unfold placeAll at done
      split at done
      · rename_i outcome next placed
        have counted := step done
        rw [applied_add, recordCount_place placed] at counted
        omega
      · cases done

end Store

variable {World : Type}

namespace CatchUp

variable {fanout : Fanout World} {peer : Peer World} {id : NodeId}
  {home : PartitionKey} {store : Store} {world : World}

/-- A catch-up takes nothing away, and one that succeeds counts what it adds. -/
theorem recordCount_resume
    (size : UInt64)
    (stop : Option Offset)
    (cursor : Offset)
    (report : Report)
    (store : Store)
    (world : World) :
    store.recordCount ≤
      (resume peer size home stop cursor report store world).2.1.recordCount ∧
    ∀ result,
      (resume peer size home stop cursor report store world).1 = .ok result →
      (resume peer size home stop cursor report store world).2.1.recordCount +
          report.applied =
        store.recordCount + result.applied := by
  have kept : ∀ {store after : Store} {page : List Message}
      {outcome : Except Error Tally},
      store.placeAll {} page = (outcome, after) →
      store.recordCount ≤ after.recordCount := by
    intro store after page outcome placed
    have least := Store.recordCount_le_placeAll {} page store
    rw [placed] at least
    exact least
  fun_induction resume peer size home stop cursor report store world with
  | case1 =>
      refine ⟨Nat.le_refl _, fun result done => ?_⟩
      cases done
      rfl
  | case2 =>
      refine ⟨Nat.le_refl _, fun result done => ?_⟩
      cases done
  | case3 cursor report store world window next page world' answer fault store'
      placed =>
      refine ⟨kept placed, fun result done => ?_⟩
      cases done
  | case4 cursor report store world window next page world' answer tally store'
    placed report'
      last =>
      refine ⟨kept placed, fun result done => ?_⟩
      cases done
      have counted : store'.recordCount + 0 =
          store.recordCount + tally.applied :=
        Store.recordCount_placeAll placed
      change store'.recordCount + report.applied =
        store.recordCount + (report.applied + tally.applied)
      omega
  | case5 cursor report store world window next page world' answer tally store'
    placed report'
      cursor' further step =>
      refine ⟨Nat.le_trans (kept placed) step.1, fun result done => ?_⟩
      have before : store'.recordCount + 0 =
          store.recordCount + tally.applied :=
        Store.recordCount_placeAll placed
      have later := step.2 result done
      rw [show report'.applied = report.applied + tally.applied from rfl]
        at later
      omega

theorem recordCount_run
    (fanout : Fanout World)
    (id : NodeId)
    (home : PartitionKey)
    (window : Log.Window)
    (store : Store)
    (world : World) :
    store.recordCount ≤
      (run fanout id home window store world).2.1.recordCount ∧
    ∀ result, (run fanout id home window store world).1 = .ok result →
      (run fanout id home window store world).2.1.recordCount =
        store.recordCount + result.applied := by
  cases known : fanout.peer? id with
  | none =>
      have fails : run fanout id home window store world =
          (.error (.notFound "peer" id), store, world) := by
        rw [run, known]
      rw [fails]
      refine ⟨Nat.le_refl _, fun result done => ?_⟩
      cases done
  | some peer =>
      rw [run_eq known]
      exact recordCount_resume fanout.page window.stop window.start {}
        store world

end CatchUp

namespace Leader

/-- A source is among the peers. -/
theorem mem_peers_of_source?
    {fanout : Fanout World}
    {world reached : World}
    {order : List NodeId}
    {id : NodeId}
    (selected : source? fanout world order = (some id, reached)) :
    ∃ peer, fanout.peer? id = some peer := by
  induction order generalizing world with
  | nil => cases selected
  | cons first rest step =>
      unfold source? at selected
      split at selected
      · exact step selected
      · dsimp only at selected
        split at selected
        · rename_i answers
          cases selected
          unfold isReachable at answers
          cases known : fanout.peer? id with
          | none =>
              rw [known] at answers
              cases answers
          | some peer => exact ⟨peer, rfl⟩
        · exact step selected

end Leader

namespace Reconciliation

/-! ## Visits -/

/-- A partition, and what a reconciliation finds when it comes to it. -/
structure Visit (World : Type) where
  /-- The partition. -/
  home : PartitionKey
  /-- The store just before. -/
  store : Store
  /-- The world just before. -/
  world : World

variable (fanout : Fanout World) (id : NodeId) (ends : Ends)

namespace Visit

variable (visit : Visit World)

/-- What the catch-up of a visit comes to, from the end that `ends` has for the
partition. -/
def outcome : Except Error CatchUp.Report × Store × World :=
  CatchUp.run fanout id visit.home ⟨ends.next visit.home, none⟩ visit.store
    visit.world

/-- The catch-up of a visit fails. -/
def failed : Bool :=
  !(visit.outcome fanout id ends).1.isOk

/-- How many messages a visit stores, whether or not it fails. -/
def added : Nat :=
  (visit.outcome fanout id ends).2.1.recordCount - visit.store.recordCount

/-- How many messages a visit counts as stored; one that fails counts none. -/
def counted : Nat :=
  match (visit.outcome fanout id ends).1 with
  | .ok caughtUp => caughtUp.applied
  | .error _ => 0

theorem recordCount_outcome :
    (visit.outcome fanout id ends).2.1.recordCount =
      visit.store.recordCount + visit.added fanout id ends :=
  (Nat.add_sub_cancel'
    (CatchUp.recordCount_run fanout id visit.home _ visit.store visit.world).1
    ).symm

/-- A visit that succeeds counts what it stores. -/
theorem added_eq :
    visit.added fanout id ends =
      visit.counted fanout id ends +
        if visit.failed fanout id ends then visit.added fanout id ends
        else 0 := by
  have exactly :=
    (CatchUp.recordCount_run fanout id visit.home ⟨ends.next visit.home, none⟩
      visit.store visit.world).2
  cases result : (visit.outcome fanout id ends).1 with
  | error fault =>
      have fails : visit.failed fanout id ends = true := by
        rw [failed, result]
        rfl
      rw [if_pos fails, counted, result, Nat.zero_add]
  | ok caughtUp =>
      have succeeds : visit.failed fanout id ends = false := by
        rw [failed, result]
        rfl
      have grown := visit.recordCount_outcome fanout id ends
      rw [outcome, exactly caughtUp result] at grown
      rw [succeeds, counted, result]
      exact (Nat.add_left_cancel grown).symm

end Visit

/-- The visits to partitions in turn, each where the one before has ended. -/
def visits
    (store : Store)
    (world : World) :
    List PartitionKey → List (Visit World)
  | [] => []
  | home :: rest =>
      let visit : Visit World := ⟨home, store, world⟩
      let (_, store, world) := visit.outcome fanout id ends
      visit :: visits store world rest

theorem visits_cons
    (home : PartitionKey)
    (rest : List PartitionKey)
    (store : Store)
    (world : World) :
    visits fanout id ends store world (home :: rest) =
      ⟨home, store, world⟩ ::
        visits fanout id ends
          (Visit.outcome fanout id ends ⟨home, store, world⟩).2.1
          (Visit.outcome fanout id ends ⟨home, store, world⟩).2.2 rest :=
  rfl

theorem home_visits
    (store : Store)
    (world : World)
    (homes : List PartitionKey) :
    (visits fanout id ends store world homes).map (·.home) = homes := by
  induction homes generalizing store world with
  | nil => rfl
  | cons home rest step => rw [visits_cons, List.map_cons, step]

theorem add_outcome
    (report : Report)
    (visit : Visit World) :
    report.add (visit.outcome fanout id ends).1 =
      ⟨report.peer, report.partitions + 1,
        report.applied + visit.counted fanout id ends,
        report.failures + if visit.failed fanout id ends then 1 else 0⟩ := by
  rw [Visit.counted, Visit.failed]
  cases (visit.outcome fanout id ends).1 <;> rfl

/-- Catching up on partitions in turn is to make these visits and to report on
them. -/
theorem catchUpAll_eq
    (report : Report)
    (store : Store)
    (world : World)
    (homes : List PartitionKey) :
    catchUpAll fanout id ends report store world homes =
      (⟨report.peer, report.partitions + homes.length,
          report.applied +
            ((visits fanout id ends store world homes).map
              (·.counted fanout id ends)).sum,
          report.failures +
            (visits fanout id ends store world homes).countP
              (·.failed fanout id ends)⟩,
        (visits fanout id ends store world homes).foldl
          (fun _ visit => (visit.outcome fanout id ends).2)
          (store, world)) := by
  induction homes generalizing report store world with
  | nil => rfl
  | cons home rest step =>
      have first : catchUpAll fanout id ends report store world (home :: rest) =
          catchUpAll fanout id ends
            (report.add (Visit.outcome fanout id ends ⟨home, store, world⟩).1)
            (Visit.outcome fanout id ends ⟨home, store, world⟩).2.1
            (Visit.outcome fanout id ends ⟨home, store, world⟩).2.2 rest := rfl
      rw [first, step, add_outcome, visits_cons, List.map_cons, List.sum_cons,
        List.countP_cons, List.foldl_cons, List.length_cons]
      dsimp only
      congr 2 <;> omega

/-- What was there and what each visit stored is there in the end. -/
theorem recordCount_visits
    (store : Store)
    (world : World)
    (homes : List PartitionKey) :
    ((visits fanout id ends store world homes).foldl
        (fun _ visit => (visit.outcome fanout id ends).2)
        (store, world)).1.recordCount =
      store.recordCount +
        ((visits fanout id ends store world homes).map
          (·.added fanout id ends)).sum := by
  induction homes generalizing store world with
  | nil => rfl
  | cons home rest step =>
      have grown :=
        Visit.recordCount_outcome fanout id ends ⟨home, store, world⟩
      rw [visits_cons, List.foldl_cons, step, grown, List.map_cons,
        List.sum_cons, Nat.add_assoc]

/-- What visits store is what they count, and what the failed ones among them
stored. -/
theorem sum_added (stops : List (Visit World)) :
    (stops.map (·.added fanout id ends)).sum =
      (stops.map (·.counted fanout id ends)).sum +
        ((stops.filter (·.failed fanout id ends)).map
          (·.added fanout id ends)).sum := by
  induction stops with
  | nil => rfl
  | cons visit rest step =>
      have one := visit.added_eq fanout id ends
      rw [List.map_cons, List.sum_cons, step, List.map_cons, List.sum_cons,
        List.filter_cons]
      split
      · rename_i fails
        rw [if_pos fails] at one
        rw [List.map_cons, List.sum_cons]
        omega
      · rename_i succeeds
        rw [if_neg succeeds] at one
        omega

theorem sum_added_failed_eq_zero_iff (stops : List (Visit World)) :
    ((stops.filter (·.failed fanout id ends)).map
          (·.added fanout id ends)).sum =
        0 ↔
      ∀ visit ∈ stops, visit.failed fanout id ends = true →
        visit.added fanout id ends = 0 := by
  rw [List.sum_eq_zero_iff_forall_eq_nat, List.forall_mem_map]
  simp only [List.mem_filter, and_imp]

/-! ## The partitions of a catalog -/

/-- The partitions of topics are as many as the topics have together. -/
theorem length_homes (topics : List Catalog.Topic) :
    (homes topics).length = (topics.map (·.partitions.toNat)).sum := by
  simp [homes, List.length_flatMap]

theorem homes_cons
    (topic : Catalog.Topic)
    (rest : List Catalog.Topic) :
    homes (topic :: rest) = homes [topic] ++ homes rest := by
  rw [homes, homes, homes, ← List.flatMap_append, List.singleton_append]

theorem mem_homes_singleton_iff
    {topic : Catalog.Topic}
    {home : PartitionKey} :
    home ∈ homes [topic] ↔
      topic.name = home.topic ∧
      home.partition.toNat < topic.partitions.toNat := by
  have bound : topic.partitions.toNat < UInt32.size := topic.partitions.toNat_lt
  rw [homes, List.flatMap_singleton, List.mem_map]
  constructor
  · rintro ⟨index, small, rfl⟩
    have below := List.mem_range.1 small
    refine ⟨rfl, ?_⟩
    rw [UInt32.toNat_ofNat_of_lt' (Nat.lt_trans below bound)]
    exact below
  · rintro ⟨same, below⟩
    refine ⟨home.partition.toNat, List.mem_range.2 below, ?_⟩
    rw [same, UInt32.ofNat_toNat]

theorem nodup_homes_singleton (topic : Catalog.Topic) :
    (homes [topic]).Nodup := by
  have bound : topic.partitions.toNat < UInt32.size := topic.partitions.toNat_lt
  have index : ∀ number ∈ List.range topic.partitions.toNat,
      (UInt32.ofNat number).toNat = number := fun number small =>
    UInt32.toNat_ofNat_of_lt' (Nat.lt_trans (List.mem_range.1 small) bound)
  rw [homes, List.flatMap_singleton]
  refine List.Nodup.map_on (fun first inside second inside' same => ?_)
    List.nodup_range
  rw [← index first inside, (PartitionKey.mk.inj same).2, index second inside']

/-- A partition is listed once by every topic that has it. -/
theorem count_homes
    (topics : List Catalog.Topic)
    (home : PartitionKey) :
    (homes topics).count home =
      topics.countP fun topic =>
        topic.name = home.topic ∧
        home.partition.toNat < topic.partitions.toNat := by
  induction topics with
  | nil => rfl
  | cons topic rest step =>
      rw [homes_cons, List.count_append, step,
        (nodup_homes_singleton topic).count, List.countP_cons, Nat.add_comm]
      simp only [mem_homes_singleton_iff, decide_eq_true_eq]

/-- Every partition is visited as often as topics have it. -/
theorem countP_home_visits
    (store : Store)
    (world : World)
    (topics : List Catalog.Topic)
    (home : PartitionKey) :
    (visits fanout id ends store world (homes topics)).countP (·.home = home) =
      topics.countP fun topic =>
        topic.name = home.topic ∧
        home.partition.toNat < topic.partitions.toNat := by
  have visited := home_visits fanout id ends store world (homes topics)
  rw [← count_homes, List.count]
  nth_rewrite 2 [← visited]
  rw [List.countP_map]
  refine List.countP_congr fun visit _ => ?_
  rw [decide_eq_true_iff, Function.comp_apply, beq_iff_eq]

/-! ## Reports -/

variable {fanout id}

/-- With a source, a reconciliation asks the catalog and catches up. -/
theorem run_of_selected
    {order : List NodeId}
    {store : Store}
    {world reached : World}
    (selected : Leader.source? fanout world order = (some id, reached)) :
    run fanout order store world = match Catalog.topics store.keyspace with
      | .error _ => ({ peer := some id, failures := 1 }, store, reached)
      | .ok topics =>
          catchUpAll fanout id store.ends { peer := some id } store reached
              (homes topics) := by
  have live : fanout.isInert = false := by
    obtain ⟨peer, known⟩ := Leader.mem_peers_of_source? selected
    have inside := List.mem_of_find?_eq_some known
    exact Bool.eq_false_iff.2 fun none =>
      List.ne_nil_of_mem inside (List.isEmpty_iff.1 none)
  cases listed : Catalog.topics store.keyspace <;>
    simp only [run, live, Bool.false_eq_true, if_false, selected, listed]

/-- With a source and a catalog that can be read, a reconciliation makes one
visit to every partition of every topic, each from the end that was remembered
when it began, whatever becomes of the others.  It reports as many partitions as
the topics have, and as many failures as visits failed; but it reports the
stored messages of those visits only that did not fail, so that it reports all
that it stored if and only if the failed visits stored nothing.  Where the
catalog cannot be read, it reports a failure and visits nothing. -/
theorem all_visited_successes_counted
    {order : List NodeId}
    {store : Store}
    {world reached : World}
    (selected : Leader.source? fanout world order = (some id, reached)) :
    (∀ fault, Catalog.topics store.keyspace = .error fault →
      run fanout order store world =
        ({ peer := some id, failures := 1 }, store, reached)) ∧
    ∀ topics, Catalog.topics store.keyspace = .ok topics →
      let stops := visits fanout id store.ends store reached (homes topics)
      let (report, after, left) := run fanout order store world
      (∀ home, stops.countP (·.home = home) = topics.countP fun topic =>
        topic.name = home.topic ∧
          home.partition.toNat < topic.partitions.toNat) ∧
      (after, left) =
        stops.foldl (fun _ visit => (visit.outcome fanout id store.ends).2)
          (store, reached) ∧
      report.peer = some id ∧
      report.partitions = (topics.map (·.partitions.toNat)).sum ∧
      report.failures = stops.countP (·.failed fanout id store.ends) ∧
      after.recordCount =
        store.recordCount + report.applied +
          ((stops.filter (·.failed fanout id store.ends)).map
            (·.added fanout id store.ends)).sum ∧
      (store.recordCount + report.applied = after.recordCount ↔
        ∀ visit ∈ stops, visit.failed fanout id store.ends = true →
          visit.added fanout id store.ends = 0) := by
  refine ⟨fun fault unread => ?_, fun topics listed => ?_⟩
  · rw [run_of_selected selected, unread]
  · have stored :=
      recordCount_visits fanout id store.ends store reached (homes topics)
    rw [sum_added, ← Nat.add_assoc] at stored
    rw [run_of_selected selected, listed]
    dsimp only
    rw [catchUpAll_eq]
    simp only [Nat.zero_add]
    refine ⟨countP_home_visits fanout id store.ends store reached topics,
      trivial, trivial, length_homes topics, trivial, stored, ?_⟩
    rw [← sum_added_failed_eq_zero_iff, stored]
    omega

/-- A node without messages that knows a topic of two partitions. -/
def bare : Store :=
  let topic : Catalog.Topic := ⟨"t", 2, "u"⟩
  { Store.empty (.series 0) with
    keyspace :=
      OrderedMap.empty.insert (Key.topicRecord topic.name).bytes topic.record }

/-- The only peer of that node, which answers from a script. -/
def teller : Fanout Peer.Script :=
  .ofPeers "b" [Peer.scripted "a"] 4

/-- For the first partition a page and then no answer, for the second one a
page. -/
def interrupted : Peer.Script :=
  ⟨[.ok [{ topic := "t", payload := [7] }], .error (.closed "a"),
    .ok [{ topic := "t", partition := 1, payload := [8] }]], []⟩

theorem teller_selected :
    Leader.source? teller interrupted ["a", "b"] = (some "a", interrupted) :=
  rfl

theorem topics_bare : Catalog.topics bare.keyspace = .ok [⟨"t", 2, "u"⟩] :=
  eq_ok_of_toOption (by decide +kernel)

/-- The message of the interrupted visit makes up for what the report leaves
out. -/
theorem all_visited_successes_counted_interrupted :
    Leader.source? teller interrupted ["a", "b"] = (some "a", interrupted) ∧
    Catalog.topics bare.keyspace = .ok [⟨"t", 2, "u"⟩] ∧
    (run teller ["a", "b"] bare interrupted).2.1.recordCount =
      bare.recordCount + (run teller ["a", "b"] bare interrupted).1.applied +
        (((visits teller "a" bare.ends bare interrupted
              (homes [⟨"t", 2, "u"⟩])).filter
            (·.failed teller "a" bare.ends)).map
          (·.added teller "a" bare.ends)).sum :=
  ⟨teller_selected, topics_bare,
    ((all_visited_successes_counted teller_selected).2 _
      topics_bare).2.2.2.2.2.1⟩

/-- Both partitions are visited and two messages are stored, one before its
visit fails; the report counts the other one only. -/
theorem interrupted_uncounted :
    Leader.source? teller interrupted ["a", "b"] = (some "a", interrupted) ∧
    Catalog.topics bare.keyspace = .ok [⟨"t", 2, "u"⟩] ∧
    (run teller ["a", "b"] bare interrupted).1 =
      { peer := some "a", partitions := 2, applied := 1, failures := 1 } ∧
    bare.recordCount = 0 ∧
    (run teller ["a", "b"] bare interrupted).2.1.recordCount = 2 :=
  ⟨teller_selected, topics_bare,
    by decide +kernel, by decide +kernel, by decide +kernel⟩

end Reconciliation

end MessageBroker
