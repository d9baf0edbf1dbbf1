import MessageBroker.Proofs.ReplicaAgreement
import MessageBroker.Proofs.SoundLimits

/-!
# What a reconciliation repairs

A batch that is dropped leaves a gap, and a later one that arrives raises the
end past it.  A reconciliation starts every partition at that end, so it copies
all that the source holds from there on, and nothing below.  Gaps below the end
stay, however often the node reconciles.
-/

namespace MessageBroker

/-- A node whose pages may hold a message answers every window, with a front of
what it holds there, and with nothing only where it holds nothing. -/
theorem Replica.range_eq
    {store : Store}
    (sound : store.Sound)
    {limits : Limits}
    (positive : 0 < limits.rangeMessages.toNat)
    (home : PartitionKey)
    (window : Log.Window) :
    ∃ page, range limits store.keyspace home window = .ok page ∧
      page <+: Log.records store.keyspace home window ∧
      (page = [] → Log.records store.keyspace home window = []) := by
  obtain ⟨page, done, front, _, some⟩ := Log.Sound.read_eq sound home window
    (pageMessages limits window) (.some (pageBytes limits))
  refine ⟨page, done, front, fun nothing => ?_⟩
  cases empty : window.isEmpty with
  | true => exact Log.Sound.records_eq_nil sound home empty
  | false =>
      refine some ?_ nothing
      obtain ⟨start, stop⟩ := window
      cases stop with
      | none => exact positive
      | some stop =>
          have before : start < stop := by
            simpa [Log.Window.isEmpty] using empty
          rw [UInt64.lt_iff_toNat_lt] at before
          simp only [pageMessages]
          omega

namespace Cluster

variable {owner : PartitionKey → NodeId} {cluster : Cluster} {id : NodeId}

/-- A node whose limits are sound sends nothing only where it holds nothing. -/
theorem peer_yields
    {node : Fleet.Node}
    (known : cluster.fleet.node? id = some node)
    (sound : node.store.Sound)
    (valid : node.limits.validate = .ok ()) :
    CatchUp.Yields (peer id) cluster node.store.keyspace := by
  intro home window answer
  obtain ⟨page, done, _, nothing⟩ :=
    Replica.range_eq sound (Limits.rangeMessages_pos valid) home window
  obtain ⟨rfl⟩ := Except.ok.inj ((range_answer known answer).symm.trans done)
  exact nothing rfl

/-- A partition without gaps ends where its next window shows nothing. -/
theorem lt_of_ends
    {theirs : Keyspace}
    {ends : Ends}
    (source : Log.Sound theirs ends)
    {home : PartitionKey}
    {size : UInt64}
    (positive : 0 < size.toNat)
    (gapless : ∀ offset later, Log.Holds theirs home later → offset ≤ later →
      Log.Holds theirs home offset)
    {finish : Offset}
    (ended : CatchUp.Ends theirs home size none finish)
    {offset : Offset}
    (held : Log.Holds theirs home offset) :
    offset < finish := by
  apply UInt64.not_le.1
  intro beyond
  have far :=
    (CatchUp.ends_iff_hole source).1 ended finish
      (gapless finish offset held beyond)
      (UInt64.le_refl _)
  omega

/-- A reconciliation that selected a node is a run over all partitions that the
catalog lists, with that node as its source. -/
theorem catchUpAll_eq_of_selected
    {others : List NodeId}
    {page : UInt64}
    {order : List NodeId}
    {before store : Store}
    {report : Reconciliation.Report}
    {source : NodeId}
    (reconciled :
      Reconciliation.run (fanout id others page) order before cluster =
        (report, store, after))
    (selected : report.peer = some source)
    {topics : List Catalog.Topic}
    (listed : Catalog.topics before.keyspace = .ok topics) :
    (fanout id others page).peer? source = some (peer source) ∧
    Reconciliation.catchUpAll (fanout id others page) source before.ends
        { peer := some source } before cluster (Reconciliation.homes topics) =
      (report, store, after) := by
  have quiet := fanout_quiet id others page cluster
  obtain ⟨live, chosen⟩ : (fanout id others page).isInert = false ∧
      (Leader.source? (fanout id others page) cluster order).1 = some source :=
    Reconciliation.source?_of_run quiet (by rw [reconciled]; exact selected)
  obtain ⟨found, known, _⟩ := (Leader.source?_eq quiet order).2 source chosen
  obtain rfl := fanout_peer? known
  exact ⟨known,
    (Reconciliation.run_of_source? quiet live chosen listed).symm.trans
    reconciled⟩

/-- A reconciliation without failures, with a source that has no gaps in the
listed partitions, brings a node everything that the source holds in a partition
exactly when the node lacked nothing of it below its own end. -/
theorem repairs_iff
    (reached : Reachable owner cluster)
    {node source : Fleet.Node}
    (here : cluster.fleet.node? id = some node)
    (there : cluster.fleet.node? source.id = some source)
    (valid : source.limits.validate = .ok ())
    {others : List NodeId}
    {page : UInt64}
    {order : List NodeId}
    {report : Reconciliation.Report}
    {store : Store}
    {after : Cluster}
    (reconciled :
      Reconciliation.run (fanout id others page) order node.store cluster =
        (report, store, after))
    (selected : report.peer = some source.id)
    (succeeds : report.failures = 0)
    {topics : List Catalog.Topic}
    (listed : Catalog.topics node.store.keyspace = .ok topics)
    (gapless : ∀ home ∈ Reconciliation.homes topics, ∀ offset later,
      Log.Holds source.store.keyspace home later → offset ≤ later →
      Log.Holds source.store.keyspace home offset)
    {home : PartitionKey}
    (inside : home ∈ Reconciliation.homes topics) :
    (∀ offset, Log.Holds source.store.keyspace home offset →
        Log.Holds store.keyspace home offset) ↔
      ∀ offset, Log.Holds source.store.keyspace home offset →
        offset < node.store.next home →
        Log.Holds node.store.keyspace home offset := by
  have coherent := reached.coherent
  have sound :=
    coherent.sound node ((Fleet.node?_eq_some_iff coherent.distinct).1 here).1
  have theirs :=
    coherent.sound source
      ((Fleet.node?_eq_some_iff coherent.distinct).1 there).1
  obtain ⟨known, caughtUp⟩ :=
    catchUpAll_eq_of_selected reconciled selected listed
  have shows := peer_shows there theirs
  have yields := peer_yields there theirs valid
  obtain ⟨grows, _⟩ :=
    Reconciliation.catchUpAll_grows known shows theirs node.store.ends
      (Reconciliation.homes topics) { peer := some source.id } sound
  have complete :=
    Reconciliation.catchUpAll_complete known shows yields theirs node.store.ends
      { peer := some source.id } sound
      (by rw [caughtUp]; exact Nat.le_of_eq succeeds) inside
  rw [caughtUp] at grows complete
  obtain ⟨finish, _, ended, copied⟩ := complete
  constructor
  · intro all offset held below
    obtain ⟨message, recorded⟩ :=
      (Log.Sound.holds_iff grows.sound).1 (all offset held)
    rcases grows.old_or_new recorded with old | ⟨⟨_, least⟩, rfl, rfl⟩
    · exact (Log.Sound.holds_iff sound).2 ⟨message, old⟩
    · exact absurd below (UInt64.not_lt.2 least)
  · intro below offset held
    by_cases early : offset < node.store.next home
    · exact grows.holds sound (below offset held early)
    · obtain ⟨message, recorded⟩ := (Log.Sound.holds_iff theirs).1 held
      obtain ⟨contained, rfl, rfl⟩ :=
        Log.Sound.contains_of_record theirs recorded
      exact copied message ⟨rfl, contained, UInt64.not_lt.1 early⟩
        (lt_of_ends theirs (fanout id others page).page_pos (gapless _ inside)
          ended held)

/-! ## A gap that is repaired and one that is not -/

/-- Two messages of a topic are published at one of two nodes, and one of them
is delivered: the later one, the batch of index zero, or the earlier one, that
of index one. -/
def partly (index : Nat) : Cluster :=
  ((((pair.createTopic "a" ⟨"t", 1, "u"⟩).createTopic "b" ⟨"t", 1, "u"⟩).publish
        "a" ["b"] 4 ⟨"t", "", [7], ""⟩).publish "a" ["b"] 4
      ⟨"t", "", [8], ""⟩).deliver index

theorem partly_reachable (index : Nat) :
    Reachable (fun _ => "a") (partly index) :=
  .step (.step
    (.step (.step (.step (.start pair_isFresh) (.createTopic _ _))
      (.createTopic _ _))
    (.publish _ _ _ _ fun _ _ => rfl)) (.publish _ _ _ _ fun _ _ => rfl))
      (.deliver _)

/-- A node of that cluster. -/
def member (index : Nat) (id : NodeId) : Fleet.Node :=
  ((partly index).fleet.node? id).getD ⟨id, {}, .empty (.series 0), false,
    false, 0⟩

theorem node?_partly
    {index : Nat}
    {id : NodeId}
    (present : ((partly index).fleet.node? id).isSome = true) :
    (partly index).fleet.node? id = some (member index id) := by
  obtain ⟨node, known⟩ := Option.isSome_iff_exists.1 present
  rw [member, known, Option.getD_some]

/-- What the other node's reconciliation comes to. -/
def outcome (index : Nat) : Reconciliation.Report × Store × Cluster :=
  Reconciliation.run (fanout "b" ["a"] 4) ["a", "b"] (member index "b").store
    (partly index)

theorem partly_facts :
    ∀ index < 2, ((partly index).fleet.node? "a").isSome = true ∧
      ((partly index).fleet.node? "b").isSome = true ∧
      (member index "a").id = "a" ∧
      (member index "a").limits = {} ∧
      (member index "a").store.ends.get? ⟨"t", 0⟩ = some 2 ∧
      Log.Holds (member index "a").store.keyspace ⟨"t", 0⟩ 0 ∧
      Log.Holds (member index "a").store.keyspace ⟨"t", 0⟩ 1 ∧
      (Catalog.topics (member index "b").store.keyspace).toOption =
        some [⟨"t", 1, "u"⟩] ∧
      (outcome index).1.peer = some "a" ∧
      (outcome index).1.failures = 0 := by
  decide +kernel

/-- Nothing but the offsets zero and one is in use at the publisher. -/
theorem holds_partly
    {index : Nat}
    (small : index < 2)
    {offset : Offset}
    (held : Log.Holds (member index "a").store.keyspace ⟨"t", 0⟩ offset) :
    offset = 0 ∨ offset = 1 := by
  obtain ⟨present, _, _, _, two, _⟩ := partly_facts index small
  have coherent := (partly_reachable index).coherent
  have inside :=
    (Fleet.node?_eq_some_iff coherent.distinct).1 (node?_partly present)
  have below := ((coherent.sound _ inside.1).ended ⟨"t", 0⟩).lt_of_holds held
  rw [two, Option.getD_some, UInt64.lt_iff_toNat_lt] at below
  have bound : offset.toNat < 2 := below
  rcases (by omega : offset.toNat = 0 ∨ offset.toNat = 1) with zero | one
  · exact .inl (UInt64.toNat_inj.1 zero)
  · exact .inr (UInt64.toNat_inj.1 one)

theorem gapless_partly
    {index : Nat}
    (small : index < 2) :
    ∀ home ∈ Reconciliation.homes [⟨"t", 1, "u"⟩], ∀ offset later,
      Log.Holds (member index "a").store.keyspace home later → offset ≤ later →
      Log.Holds (member index "a").store.keyspace home offset := by
  intro home inside offset later held least
  cases List.mem_singleton.1 inside
  obtain ⟨_, _, _, _, _, first, second, _⟩ := partly_facts index small
  have atMost : offset.toNat ≤ 1 := by
    rw [UInt64.le_iff_toNat_le] at least
    rcases holds_partly small held with rfl | rfl
    · exact Nat.le_succ_of_le least
    · exact least
  rcases (by omega : offset.toNat = 0 ∨ offset.toNat = 1) with zero | one
  · rw [show offset = 0 from UInt64.toNat_inj.1 zero]
    exact first
  · rw [show offset = 1 from UInt64.toNat_inj.1 one]
    exact second

/-- With the earlier message delivered, the later one is copied, and nothing is
missing. -/
theorem repairs_iff_earlier :
    (outcome 1).1.peer = some "a" ∧
    (outcome 1).1.failures = 0 ∧
    ∀ offset, Log.Holds (member 1 "a").store.keyspace ⟨"t", 0⟩ offset →
      Log.Holds (outcome 1).2.1.keyspace ⟨"t", 0⟩ offset := by
  have small : 1 < 2 := by decide
  obtain ⟨source, here, same, limits, _, _, _, topics, peer, failures⟩ :=
    partly_facts 1 small
  have there : (partly 1).fleet.node? (member 1 "a").id =
      some (member 1 "a") := by
    rw [same]
    exact node?_partly source
  have valid : (member 1 "a").limits.validate = .ok () := by
    rw [limits]
    rfl
  have ticked : Reconciliation.run (fanout "b" ["a"] 4) ["a", "b"]
        (member 1 "b").store (partly 1) =
      ((outcome 1).1, (outcome 1).2.1, (outcome 1).2.2) :=
    rfl
  have condition :=
    repairs_iff (partly_reachable 1) (node?_partly here) there valid ticked
      (same.symm ▸ peer) failures (eq_ok_of_toOption topics)
        (gapless_partly small)
      (List.mem_singleton.2 rfl)
  refine ⟨peer, failures, condition.2 fun offset held below => ?_⟩
  rcases holds_partly small held with rfl | rfl
  · exact (by decide +kernel :
      Log.Holds (member 1 "b").store.keyspace ⟨"t", 0⟩ 0)
  · exact absurd below (by decide +kernel)

/-- With the later message delivered, the earlier one stays missing. -/
theorem gap_stays :
    Reachable (fun _ => "a") (partly 0) ∧
    (partly 0).fleet.node? "a" = some (member 0 "a") ∧
    (partly 0).fleet.node? "b" = some (member 0 "b") ∧
    Catalog.topics (member 0 "b").store.keyspace = .ok [⟨"t", 1, "u"⟩] ∧
    (∀ home ∈ Reconciliation.homes [⟨"t", 1, "u"⟩], ∀ offset later,
      Log.Holds (member 0 "a").store.keyspace home later → offset ≤ later →
      Log.Holds (member 0 "a").store.keyspace home offset) ∧
    (outcome 0).1.peer = some "a" ∧
    (outcome 0).1.failures = 0 ∧
    Log.Holds (member 0 "a").store.keyspace ⟨"t", 0⟩ 0 ∧
    ¬ Log.Holds (outcome 0).2.1.keyspace ⟨"t", 0⟩ 0 := by
  have small : 0 < 2 := by decide
  obtain ⟨source, here, _, _, _, first, _, topics, peer, failures⟩ :=
    partly_facts 0 small
  refine ⟨partly_reachable 0, node?_partly source, node?_partly here,
    eq_ok_of_toOption topics, gapless_partly small, peer, failures, first, ?_⟩
  decide +kernel

end Cluster

end MessageBroker
