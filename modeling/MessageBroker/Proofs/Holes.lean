import MessageBroker.Proofs.Repair
import MessageBroker.Proofs.Standstill

/-!
# How far reconciliations come

A catch-up asks for windows of one page each, and takes the first one without
messages for the end of the source's log.  But a source may have holes itself,
and where one of them is as large as a page, the log may go on behind it.  So a
reconciliation brings a node what the source holds from the node's own end on
only up to the first such hole.  A hole right at the node's end lets nothing
through; and since the end does not move then, every later reconciliation asks
for the same windows again and comes no further.
-/

namespace MessageBroker

namespace Fleet

theorem node?_change
    (fleet : Fleet)
    (id : NodeId)
    (update : Node → Node)
    (named : ∀ node, (update node).id = node.id)
    (other : NodeId) :
    (fleet.change id update).node? other =
      (fleet.node? other).map fun node =>
        if node.id == id then update node else node := by
  have same : ((fun node : Node => node.id == other) ∘
        fun node => if node.id == id then update node else node) =
      fun node => node.id == other := by
    funext node
    rw [Function.comp_apply]
    split
    · rw [named]
    · rfl
  rw [node?, change, List.find?_map, same, node?]

end Fleet

namespace Store

variable {store after : Store}

/-- The end of a partition is at most what all its offsets are below. -/
theorem Sound.next_le
    (sound : store.Sound)
    {home : PartitionKey}
    {bound : Offset}
    (below : ∀ offset, Log.Holds store.keyspace home offset → offset < bound) :
    store.next home ≤ bound := by
  have ended := sound.ended home
  unfold next Ends.next
  cases known : store.ends.get? home with
  | none => exact UInt64.zero_le
  | some next =>
      rw [known] at ended
      obtain ⟨last, held, _, follows⟩ := ended.exists_greatest
      have before := below last held
      rw [UInt64.lt_iff_toNat_lt] at before
      rw [Option.getD_some, UInt64.le_iff_toNat_le, follows]
      exact before

theorem Grows.next_le
    {kind : Message → Prop}
    (grows : Grows kind store after)
    (sound : store.Sound)
    (home : PartitionKey) :
    store.next home ≤ after.next home :=
  sound.next_le fun _ held =>
    (grows.sound.ended home).lt_of_holds (grows.holds sound held)

end Store

/-! ## What a reconciliation brings -/

namespace Reconciliation

variable {World : Type} {fanout : Fanout World} {id : NodeId}
  {peer : Peer World} {world : World} {theirs : Keyspace} {ends : Ends}
  {store : Store} {homes : List PartitionKey} {report : Report}

/-- Whatever a partition holds afterwards is before every hole of the source
that is not before the node's end. -/
theorem lt_of_hole
    (known : fanout.peer? id = some peer)
    (shows : CatchUp.Shows peer world theirs)
    (source : Log.Sound theirs ends)
    (sound : store.Sound)
    {home : PartitionKey}
    {start : Offset}
    (later : store.next home ≤ start)
    (hole : CatchUp.Hole theirs home fanout.page start)
    {offset : Offset}
    (held : Log.Holds
      (catchUpAll fanout id store.ends report store world homes).2.1.keyspace
      home offset) :
    offset < start := by
  have grows :=
    catchUpAll_grows_below known shows source later hole homes report sound
  obtain ⟨message, recorded⟩ := (Log.Sound.holds_iff grows.sound).1 held
  rcases grows.old_or_new recorded with old | ⟨⟨_, below⟩, homes, rfl⟩
  · have before := (sound.ended home).lt_of_holds
      ((Log.Sound.holds_iff sound).2 ⟨message, old⟩)
    exact UInt64.lt_of_lt_of_le before later
  · exact below homes

/-- All that the source holds from the node's end on is held afterwards when
every hole of the source from there on is behind its last message. -/
theorem copies_all_iff
    (known : fanout.peer? id = some peer)
    (shows : CatchUp.Shows peer world theirs)
    (yields : CatchUp.Yields peer world theirs)
    (source : Log.Sound theirs ends)
    (sound : store.Sound)
    (succeeds :
      (catchUpAll fanout id store.ends report store world homes).1.failures ≤
        report.failures)
    {home : PartitionKey}
    (inside : home ∈ homes) :
    (∀ offset, store.next home ≤ offset → Log.Holds theirs home offset →
        Log.Holds
          (catchUpAll fanout id store.ends report store world
            homes).2.1.keyspace home offset) ↔
      ∀ start, store.next home ≤ start →
        CatchUp.Hole theirs home fanout.page start →
        ∀ offset, start ≤ offset → ¬ Log.Holds theirs home offset := by
  constructor
  · intro all start least hole offset beyond held
    have new := all offset (UInt64.le_trans least beyond) held
    exact absurd (lt_of_hole known shows source sound least hole new)
      (UInt64.not_lt.2 beyond)
  · intro last offset least held
    obtain ⟨finish, later, ended, copied⟩ :=
      catchUpAll_complete known shows yields source store.ends report sound
        succeeds inside
    obtain ⟨message, recorded⟩ := source.holds_iff.1 held
    obtain ⟨contained, homes, rfl⟩ := source.contains_of_record recorded
    apply copied message ⟨homes, contained, least⟩
    apply UInt64.not_le.1
    intro beyond
    exact last finish later ((CatchUp.ends_iff_hole source).1 ended)
      message.offset beyond held

/-- Afterwards, the source has a hole at the node's end in every listed
partition.  All that came is before the place where the catch-up ended, so the
node's end is not behind that place. -/
theorem hole_at_next
    (known : fanout.peer? id = some peer)
    (shows : CatchUp.Shows peer world theirs)
    (yields : CatchUp.Yields peer world theirs)
    (source : Log.Sound theirs ends)
    (sound : store.Sound)
    (succeeds :
      (catchUpAll fanout id store.ends report store world homes).1.failures ≤
        report.failures)
    {home : PartitionKey}
    (inside : home ∈ homes) :
    CatchUp.Hole theirs home fanout.page
      ((catchUpAll fanout id store.ends report store world homes).2.1.next
        home) := by
  obtain ⟨finish, later, ended, copied⟩ :=
    catchUpAll_complete known shows yields source store.ends report sound
      succeeds inside
  have hole := (CatchUp.ends_iff_hole source).1 ended
  have grows :=
    catchUpAll_grows_below known shows source later hole homes report sound
  have rises := grows.next_le sound home
  have atMost := grows.sound.next_le fun _ held =>
    lt_of_hole known shows source sound later hole held
  generalize catchUpAll fanout id store.ends report store world homes =
    outcome at *
  intro offset held least
  obtain ⟨message, recorded⟩ := source.holds_iff.1 held
  obtain ⟨contained, homes, rfl⟩ := source.contains_of_record recorded
  by_cases early : message.offset < finish
  · have new :=
      copied message ⟨homes, contained, UInt64.le_trans rises least⟩ early
    exact absurd ((grows.sound.ended home).lt_of_holds new)
      (UInt64.not_lt.2 least)
  · have far := hole message.offset held (UInt64.not_lt.1 early)
    rw [UInt64.le_iff_toNat_le] at atMost
    omega

/-- Something new is counted when a listed partition has no hole at the node's
end.  If nothing is new, the node's end is where it was, and the source has a
hole there by now. -/
theorem applied_catchUpAll_iff
    (known : fanout.peer? id = some peer)
    (shows : CatchUp.Shows peer world theirs)
    (yields : CatchUp.Yields peer world theirs)
    (answers : CatchUp.Answers peer world)
    (source : Log.Sound theirs ends)
    (sound : store.Sound)
    (succeeds :
      (catchUpAll fanout id store.ends report store world homes).1.failures ≤
        report.failures) :
    report.applied <
        (catchUpAll fanout id store.ends report store world homes).1.applied ↔
      ∃ home ∈ homes,
        ¬ CatchUp.Hole theirs home fanout.page (store.next home) := by
  constructor
  · intro more
    apply Classical.byContradiction
    intro none
    have holes : ∀ home ∈ homes,
        CatchUp.Hole theirs home fanout.page (store.next home) := by
      intro home inside
      apply Classical.byContradiction
      exact fun through => none ⟨home, inside, through⟩
    rw [catchUpAll_of_holes known shows answers source holes] at more
    exact Nat.lt_irrefl _ more
  · rintro ⟨home, inside, through⟩
    apply Nat.not_le.1
    intro idle
    apply through
    have grows :=
      (catchUpAll_grows known shows source store.ends homes report sound).1
    have hole := hole_at_next known shows yields source sound succeeds inside
    have stays := UInt64.le_antisymm (grows.next_le sound home)
      (grows.sound.next_le fun _ held => (sound.ended home).lt_of_holds
        (holds_of_catchUpAll known shows source sound succeeds idle held))
    rwa [← stays] at hole

end Reconciliation

namespace Cluster

variable {cluster : Cluster} {id : NodeId}

/-! ## A cluster after a reconciliation -/

theorem isOk_ping
    (cluster : Cluster)
    (other : NodeId) :
    ((peer other).ping cluster).1.isOk =
      (cluster.fleet.node? other).any fun node => !node.isCutOff := by
  simp only [peer, Peer.lift, Fleet.ping, Fleet.reach]
  cases cluster.fleet.node? other with
  | none => rfl
  | some node =>
      rw [Option.any_some]
      dsimp only
      cases node.isCutOff <;> rfl

theorem node?_withStore
    (cluster : Cluster)
    (id : NodeId)
    (store : Store)
    (other : NodeId) :
    (cluster.withStore id store).fleet.node? other =
      (cluster.fleet.node? other).map fun node =>
        if node.id == id then { node with store := store } else node :=
  Fleet.node?_change cluster.fleet id (fun node => { node with store := store })
    (fun _ => rfl)
    other

/-- What a node holds does not decide whether it answers. -/
theorem isOk_ping_withStore
    (cluster : Cluster)
    (id : NodeId)
    (store : Store)
    (other : NodeId) :
    ((peer other).ping (cluster.withStore id store)).1.isOk =
      ((peer other).ping cluster).1.isOk := by
  rw [isOk_ping, isOk_ping, node?_withStore]
  cases cluster.fleet.node? other with
  | none => rfl
  | some node =>
      rw [Option.map_some, Option.any_some, Option.any_some]
      split <;> rfl

theorem peer_answers
    {node : Fleet.Node}
    (known : cluster.fleet.node? id = some node)
    (alive : ((peer id).ping cluster).1.isOk)
    (sound : node.store.Sound) :
    CatchUp.Answers (peer id) cluster := by
  intro home window
  rw [isOk_ping, known, Option.any_some] at alive
  obtain ⟨page, done, _⟩ := Log.Sound.read_eq sound home window
    (Replica.pageMessages node.limits window)
      (some (Replica.pageBytes node.limits))
  have read : Replica.range node.limits node.store.keyspace home window =
      .ok page :=
    done
  refine ⟨page, ?_⟩
  cases node with
  | mk node limits store isCutOff isDropping dropped =>
      have reachable : isCutOff = false := by simpa using alive
      subst reachable
      simp only [peer, Peer.lift, Fleet.range, Fleet.reach, known]
      show Fleet.reported id (Replica.range limits store.keyspace home window) =
        .ok page
      rw [read]
      rfl

theorem node?_withStore_other
    {node : Fleet.Node}
    {other : NodeId}
    (known : cluster.fleet.node? other = some node)
    (different : other ≠ id)
    (store : Store) :
    (cluster.withStore id store).fleet.node? other = some node := by
  have named : node.id = other := by simpa using List.find?_some known
  rw [node?_withStore, known, Option.map_some, if_neg]
  rw [named, beq_iff_eq]
  exact different

/-- A node that keeps its source, and has a hole of the source at the end of
every listed partition, reconciles once more without any effect.  What a node
holds decides neither which peers answer nor what they answer. -/
theorem run_withStore_of_holes
    {source : Fleet.Node}
    (there : cluster.fleet.node? source.id = some source)
    (theirs : source.store.Sound)
    (different : source.id ≠ id)
    {others : List NodeId}
    {page : UInt64}
    {order : List NodeId}
    (live : (fanout id others page).isInert = false)
    (chosen : (Leader.source? (fanout id others page) cluster order).1 =
      some source.id)
    {store : Store}
    {topics : List Catalog.Topic}
    (listed : Catalog.topics store.keyspace = .ok topics)
    (holes : ∀ home ∈ Reconciliation.homes topics,
      CatchUp.Hole source.store.keyspace home (fanout id others page).page
        (store.next home)) :
    Reconciliation.run (fanout id others page) order store
      (cluster.withStore id store) =
      ({ peer := some source.id, partitions :=
        (Reconciliation.homes topics).length }, store,
        cluster.withStore id store) := by
  have quiet := fanout_quiet id others page cluster
  have quiet' := fanout_quiet id others page (cluster.withStore id store)
  obtain ⟨found, isPeer, alive⟩ :=
    (Leader.source?_eq quiet order).2 source.id chosen
  obtain rfl := fanout_peer? isPeer
  have same : ∀ peer ∈ (fanout id others page).peers,
      (peer.ping (cluster.withStore id store)).1.isOk =
        (peer.ping cluster).1.isOk := by
    intro found inside
    rw [peers_fanout] at inside
    obtain ⟨other, _, rfl⟩ := List.mem_map.1 inside
    exact isOk_ping_withStore cluster id store other
  have chosen' := (Leader.source?_congr quiet quiet' same order).trans chosen
  have there' := node?_withStore_other there different store
  have alive' := (isOk_ping_withStore cluster id store source.id).trans alive
  rw [Reconciliation.run_of_source? quiet' live chosen' listed,
    Reconciliation.catchUpAll_of_holes isPeer (peer_shows there' theirs)
      (peer_answers there' alive' theirs) theirs holes, Nat.zero_add]

/-! ## Progress and standstill -/

/-- A reconciliation without failures stores something exactly when, in a listed
partition, the source has no hole of a page at the node's end.  It brings a
partition everything that the source holds from there on exactly when every such
hole is behind the source's last message.  And whatever it brought, the next one
brings nothing and changes nothing. -/
theorem advances_iff
    (reached : Attainable cluster)
    {node source : Fleet.Node}
    (here : cluster.fleet.node? id = some node)
    (there : cluster.fleet.node? source.id = some source)
    (valid : source.limits.validate = .ok ())
    {others : List NodeId}
    {page : UInt64}
    {order : List NodeId}
    {report : Reconciliation.Report}
    {store : Store}
    {after : Cluster}
    (reconciled :
      Reconciliation.run (fanout id others page) order node.store cluster =
        (report, store, after))
    (selected : report.peer = some source.id)
    (succeeds : report.failures = 0)
    {topics : List Catalog.Topic}
    (listed : Catalog.topics node.store.keyspace = .ok topics) :
    (0 < report.applied ↔
      ∃ home ∈ Reconciliation.homes topics,
        ¬ CatchUp.Hole source.store.keyspace home (fanout id others page).page
          (node.store.next home)) ∧
    (∀ home ∈ Reconciliation.homes topics,
      (∀ offset, node.store.next home ≤ offset →
          Log.Holds source.store.keyspace home offset →
          Log.Holds store.keyspace home offset) ↔
        ∀ start, node.store.next home ≤ start →
          CatchUp.Hole source.store.keyspace home (fanout id others page).page
            start →
          ∀ offset, start ≤ offset →
            ¬ Log.Holds source.store.keyspace home offset) ∧
    Reconciliation.run (fanout id others page) order store
        (after.withStore id store) =
      ({ report with applied := 0 }, store, after.withStore id store) := by
  have coherent := reached.coherent
  have sound :=
    coherent.sound node ((Fleet.node?_eq_some_iff coherent.distinct).1 here).1
  have theirs :=
    coherent.sound source
      ((Fleet.node?_eq_some_iff coherent.distinct).1 there).1
  have quiet := fanout_quiet id others page cluster
  obtain ⟨live, chosen⟩ : (fanout id others page).isInert = false ∧
      (Leader.source? (fanout id others page) cluster order).1 =
        some source.id :=
    Reconciliation.source?_of_run quiet (by rw [reconciled]; exact selected)
  obtain ⟨found, isPeer, alive⟩ :=
    (Leader.source?_eq quiet order).2 source.id chosen
  obtain rfl := fanout_peer? isPeer
  have different : source.id ≠ id := by
    have other := Leader.ne_self_of_source? quiet chosen
    rwa [self_fanout] at other
  have shows := peer_shows there theirs
  have yields := peer_yields there theirs valid
  have answers := peer_answers there alive theirs
  have caughtUp :=
    (Reconciliation.run_of_source? quiet live chosen listed).symm.trans
      reconciled
  have unchanged : after = cluster := by
    have same :=
      (Reconciliation.catchUpAll_grows isPeer shows theirs node.store.ends
        (Reconciliation.homes topics) { peer := some source.id } sound).2
    rwa [caughtUp] at same
  have complete :
      (Reconciliation.catchUpAll (fanout id others page) source.id
        node.store.ends { peer := some source.id } node.store cluster
        (Reconciliation.homes topics)).1.failures ≤ 0 := by
    rw [caughtUp]
    exact Nat.le_of_eq succeeds
  refine ⟨?_, fun home inside => ?_, ?_⟩
  · have counted :=
      Reconciliation.applied_catchUpAll_iff isPeer shows yields answers
        theirs sound
        complete
    rwa [caughtUp] at counted
  · have copied :=
      Reconciliation.copies_all_iff isPeer shows yields theirs sound complete
        inside
    rwa [caughtUp] at copied
  · have holes : ∀ home ∈ Reconciliation.homes topics,
        CatchUp.Hole source.store.keyspace home (fanout id others page).page
          (store.ends.next home) := by
      intro home inside
      have hole :=
        Reconciliation.hole_at_next isPeer shows yields theirs sound complete
          inside
      rwa [caughtUp] at hole
    have partitions : (Reconciliation.homes topics).length =
        report.partitions := by
      have counted := congrArg (fun outcome => outcome.1.partitions) caughtUp
      dsimp only at counted
      rw [Reconciliation.partitions_catchUpAll] at counted
      exact (Nat.zero_add _).symm.trans counted
    have listed' : Catalog.topics store.keyspace = .ok topics := by
      have kept :=
        congrArg (fun outcome => Catalog.topics outcome.2.1.keyspace) caughtUp
      dsimp only at kept
      rw [Reconciliation.topics_catchUpAll, listed] at kept
      exact kept.symm
    subst unchanged
    rw [run_withStore_of_holes there theirs different live chosen listed' holes,
      partitions, ← selected, ← succeeds]

/-! ## A hole as large as a page -/

/-- Three nodes that hold nothing. -/
def trio : Cluster where
  fleet := pair.fleet ++ [⟨"c", {}, .empty (.series 2), false, false, 0⟩]

theorem trio_isFresh : trio.IsFresh where
  distinct := by decide
  empty := by
    intro node inside
    rcases List.mem_append.1 inside with inside | inside
    · exact pair_isFresh.empty node inside
    · rw [List.mem_singleton.1 inside]
      exact ⟨.series 2, rfl⟩
  quiet := rfl

/-- One of three nodes publishes two messages of a topic, and the second is
delivered to another, which now has a hole where the first belongs; the third
node gets neither. -/
def holed : Cluster :=
  (((((trio.createTopic "a" ⟨"t", 1, "u"⟩).createTopic "b"
            ⟨"t", 1, "u"⟩).createTopic "c" ⟨"t", 1, "u"⟩).publish "c" ["a", "b"]
        4 ⟨"t", "", [7], ""⟩).publish "c" ["a", "b"] 4
      ⟨"t", "", [8], ""⟩).deliver 1

theorem holed_reachable : Reachable (fun _ => "c") holed :=
  .step (.step
    (.step (.step (.step (.step (.start trio_isFresh) (.createTopic _ _))
    (.createTopic _ _)) (.createTopic _ _)) (.publish _ _ _ _ fun _ _ => rfl))
    (.publish _ _ _ _ fun _ _ => rfl)) (.deliver _)

/-- A node of that cluster. -/
def third (id : NodeId) : Fleet.Node :=
  (holed.fleet.node? id).getD ⟨id, {}, .empty (.series 0), false, false, 0⟩

theorem node?_holed
    {id : NodeId}
    (present : (holed.fleet.node? id).isSome = true) :
    holed.fleet.node? id = some (third id) := by
  obtain ⟨node, known⟩ := Option.isSome_iff_exists.1 present
  rw [third, known, Option.getD_some]

/-- What the reconciliation of the node with neither comes to, by the size of
its pages. -/
def brought (page : UInt64) : Reconciliation.Report × Store × Cluster :=
  Reconciliation.run (fanout "b" ["a", "c"] page) ["a", "b", "c"]
    (third "b").store holed

theorem holed_facts :
    (holed.fleet.node? "a").isSome = true ∧
    (holed.fleet.node? "b").isSome = true ∧
    (third "a").id = "a" ∧
    (third "a").limits = {} ∧
    Log.Holds (third "a").store.keyspace ⟨"t", 0⟩ 1 ∧
    (third "b").store.next ⟨"t", 0⟩ = 0 ∧
    (Catalog.topics (third "b").store.keyspace).toOption =
      some [⟨"t", 1, "u"⟩] ∧
    ((peer "a").ping holed).1.isOk = true := by
  decide +kernel

theorem brought_facts :
    ((brought 1).1.peer = some "a" ∧ (brought 1).1.failures = 0 ∧
      (brought 1).1.applied = 0) ∧
    (brought 2).1.peer = some "a" ∧
    (brought 2).1.failures = 0 := by
  decide +kernel

/-- A page that spans more than the hole lets the message through. -/
theorem advances_iff_through :
    (brought 2).1.peer = some "a" ∧ (brought 2).1.failures = 0 ∧
    0 < (brought 2).1.applied := by
  obtain ⟨source, here, same, limits, held, next, topics, _⟩ := holed_facts
  obtain ⟨_, selected, succeeds⟩ := brought_facts
  have there : holed.fleet.node? (third "a").id = some (third "a") := by
    rw [same]
    exact node?_holed source
  have valid : (third "a").limits.validate = .ok () := by
    rw [limits]
    rfl
  have ran : Reconciliation.run (fanout "b" ["a", "c"] 2) ["a", "b", "c"]
        (third "b").store holed =
      ((brought 2).1, (brought 2).2.1, (brought 2).2.2) :=
    rfl
  have counted :=
    (advances_iff holed_reachable.attainable (node?_holed here) there valid ran
      (same.symm ▸ selected) succeeds (eq_ok_of_toOption topics)).1
  refine ⟨selected, succeeds,
    counted.2 ⟨⟨"t", 0⟩, List.mem_singleton.2 rfl, fun hole => ?_⟩⟩
  rw [next] at hole
  exact absurd (hole 1 held (by decide)) (by decide)

/-- With pages as small as the hole, the source answers, but nothing is copied,
although the source holds a message at or beyond the node's end. -/
theorem stalls_at_hole :
    Reachable (fun _ => "c") holed ∧
    holed.fleet.node? "a" = some (third "a") ∧
    holed.fleet.node? "b" = some (third "b") ∧
    Catalog.topics (third "b").store.keyspace = .ok [⟨"t", 1, "u"⟩] ∧
    (third "b").store.next ⟨"t", 0⟩ ≤ 1 ∧
    Log.Holds (third "a").store.keyspace ⟨"t", 0⟩ 1 ∧
    (brought 1).1.peer = some "a" ∧
    CatchUp.Answers (peer "a") holed ∧
    (brought 1).1.failures = 0 ∧
    (brought 1).1.applied = 0 := by
  obtain ⟨source, here, _, _, held, next, topics, alive⟩ := holed_facts
  obtain ⟨⟨selected, succeeds, nothing⟩, _⟩ := brought_facts
  have coherent := holed_reachable.coherent
  have sound := coherent.sound _ ((Fleet.node?_eq_some_iff coherent.distinct).1
    (node?_holed source)).1
  refine ⟨holed_reachable, node?_holed source, node?_holed here,
    eq_ok_of_toOption topics, ?_, held, selected,
    peer_answers (node?_holed source) alive sound, succeeds, nothing⟩
  rw [next]
  decide

end Cluster

end MessageBroker
