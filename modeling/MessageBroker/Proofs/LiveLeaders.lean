import MessageBroker.Fleet
import MessageBroker.Proofs.AcceptableRosters
import MessageBroker.Reconciliation

/-!
# Leaders among live nodes

Nobody is elected: every node walks the same order and asks the others itself,
and takes its own word for being there.  What keeps the nodes of one mind is
that they ask about the same nodes.  So as long as a sign of life means that a
node is live, a walk comes to the first live node whoever takes it, and to the
first other live node in search of a source.

A node outside any cluster has nobody to ask, even if the roster lists some
other node alone.
-/

namespace MessageBroker

namespace Leader

open Cluster

/-! ## Walks along an order -/

section Walks

variable {World : Type} {fanout : Fanout World} {live : NodeId → Bool}
  {IsCalm : World → Prop} {world : World}

/-- A node that asks the others on an order for a sign of life gets one from
those that are live, and the world stays calm. -/
structure Probes
    (fanout : Fanout World)
    (live : NodeId → Bool)
    (IsCalm : World → Prop)
    (order : List NodeId) :
    Prop where
  /-- What it learns. -/
  learns : ∀ id ∈ order, id ≠ fanout.self → ∀ world, IsCalm world →
    (isReachable fanout id world).1 = live id
  /-- What it leaves. -/
  leaves : ∀ id ∈ order, id ≠ fanout.self → ∀ world, IsCalm world →
    IsCalm (isReachable fanout id world).2

theorem Probes.tail
    {id : NodeId}
    {rest : List NodeId}
    (probes : Probes fanout live IsCalm (id :: rest)) :
    Probes fanout live IsCalm rest where
  learns other inside := probes.learns other (List.mem_cons_of_mem id inside)
  leaves other inside := probes.leaves other (List.mem_cons_of_mem id inside)

/-- The leader is the first node of the order that is live or the node
itself. -/
theorem firstOf_eq
    {order : List NodeId}
    (probes : Probes fanout live IsCalm order)
    (calm : IsCalm world) :
    (firstOf fanout world order).1 =
      (order.find? fun id => id == fanout.self || live id).getD fanout.self ∧
    IsCalm (firstOf fanout world order).2 := by
  induction order generalizing world with
  | nil => exact ⟨rfl, calm⟩
  | cons id rest step =>
      unfold firstOf
      split
      · rename_i own
        simpa [own] using calm
      · rename_i other
        have learnt := probes.learns id List.mem_cons_self other world calm
        have calm' := probes.leaves id List.mem_cons_self other world calm
        dsimp only
        rw [learnt]
        cases lives : live id with
        | true => simpa [lives] using calm'
        | false => simpa [other, lives] using step probes.tail calm'

/-- The source is the first other node of the order that is live. -/
theorem source?_eq_find?
    {order : List NodeId}
    (probes : Probes fanout live IsCalm order)
    (calm : IsCalm world) :
    (source? fanout world order).1 =
      order.find? (fun id => id != fanout.self && live id) ∧
    IsCalm (source? fanout world order).2 := by
  induction order generalizing world with
  | nil => exact ⟨rfl, calm⟩
  | cons id rest step =>
      unfold source?
      split
      · rename_i own
        simpa [own] using step probes.tail calm
      · rename_i other
        have learnt := probes.learns id List.mem_cons_self other world calm
        have calm' := probes.leaves id List.mem_cons_self other world calm
        dsimp only
        rw [learnt]
        cases lives : live id with
        | true => simpa [other, lives] using calm'
        | false => simpa [other, lives] using step probes.tail calm'

end Walks

/-! ## Observers -/

/-- The listed nodes that are live, in order of precedence. -/
def living (roster : Roster) (live : NodeId → Bool) : List NodeId :=
  (roster.map (·.id)).filter live

/-- A node that a roster admits, with peers for all other members, in a world
where exactly the live ones give it a sign of life as long as nobody comes or
goes. -/
structure Observer (roster : Roster) (live : NodeId → Bool) where
  /-- What lies between the node and the others. -/
  World : Type
  /-- The node itself. -/
  self : NodeId
  joined : Membership.ofRoster self roster = .ok ⟨self, roster⟩
  timing : Timing
  /-- How it reaches a member. -/
  reach : Member → Peer World
  reach_id : ∀ member ∈ roster, (reach member).id = member.id
  /-- Nobody comes or goes. -/
  IsCalm : World → Prop
  /-- A sign of life tells who is live. -/
  tells : ∀ member ∈ roster, member.id ≠ self → ∀ world, IsCalm world →
    ((reach member).ping world).1.isOk = live member.id
  /-- Asking for one changes nothing about that. -/
  stays : ∀ member ∈ roster, member.id ≠ self → ∀ world, IsCalm world →
    IsCalm ((reach member).ping world).2
  /-- The world as the node finds it. -/
  world : World
  calm : IsCalm world

namespace Observer

variable {roster : Roster} {live : NodeId → Bool}

/-- What the node knows of its cluster. -/
def membership (observer : Observer roster live) : Membership :=
  ⟨observer.self, roster⟩

/-- All its peers. -/
def fanout (observer : Observer roster live) : Fanout observer.World :=
  .ofMembership observer.membership observer.timing observer.reach

/-- Whom the node takes for the leader. -/
def leader (observer : Observer roster live) : NodeId :=
  (firstOf observer.fanout observer.world observer.membership.order).1

/-- Whom the node would reconcile with. -/
def source? (observer : Observer roster live) : Option NodeId :=
  (Leader.source? observer.fanout observer.world observer.membership.order).1

theorem self_fanout (observer : Observer roster live) :
    observer.fanout.self = observer.self :=
  Fanout.self_ofMembership ..

/-- A roster with a member other than the node makes a cluster. -/
theorem isClustered_of_other
    (observer : Observer roster live)
    {id : NodeId}
    (listed : observer.self ∈ roster.map (·.id))
    (inside : id ∈ roster.map (·.id))
    (other : id ≠ observer.self) :
    observer.membership.isClustered = true := by
  match roster with
  | [] => cases listed
  | [only] =>
      have same : id = only.id := List.mem_singleton.1 inside
      exact absurd (same.trans (List.mem_singleton.1 listed).symm) other
  | _ :: _ :: _ => exact decide_eq_true (by simp [membership])

theorem order_eq
    (observer : Observer roster live)
    (listed : observer.self ∈ roster.map (·.id)) :
    observer.membership.order = roster.map (·.id) := by
  cases roster with
  | nil => cases listed
  | cons member rest => rfl

/-- A node has a peer for every other member. -/
theorem peer?_eq
    (observer : Observer roster live)
    {id : NodeId}
    (listed : observer.self ∈ roster.map (·.id))
    (inside : id ∈ roster.map (·.id))
    (other : id ≠ observer.self) :
    ∃ member ∈ roster, member.id = id ∧
      observer.fanout.peer? id = some (observer.reach member) := by
  have clustered := observer.isClustered_of_other listed inside other
  have peers : observer.fanout.peers =
      observer.membership.peers.map observer.reach := by
    rw [fanout, Fanout.peers_ofMembership, if_pos clustered]
  rcases List.mem_map.1 inside with ⟨member, known, rfl⟩
  have present : (observer.membership.peers.find?
      ((·.id == member.id) ∘ observer.reach)).isSome := by
    rw [List.find?_isSome]
    refine ⟨member, List.mem_filter.2 ⟨known, bne_iff_ne.2 other⟩, ?_⟩
    exact beq_iff_eq.2 (observer.reach_id member known)
  rcases Option.isSome_iff_exists.1 present with ⟨found, hit⟩
  have known' := (List.mem_filter.1 (List.mem_of_find?_eq_some hit)).1
  have named : (observer.reach found).id = member.id := by
    simpa using List.find?_some hit
  refine ⟨found, known', (observer.reach_id found known').symm.trans named, ?_⟩
  rw [Fanout.peer?, peers, List.find?_map, hit]
  rfl

/-- What a node on the roster learns about the others is who is live. -/
theorem probes
    (observer : Observer roster live)
    (listed : observer.self ∈ roster.map (·.id)) :
    Probes observer.fanout live observer.IsCalm observer.membership.order := by
  rw [observer.order_eq listed]
  constructor
  case learns =>
    intro id inside other world calm
    rw [self_fanout] at other
    rcases observer.peer?_eq listed inside other with
      ⟨member, known, rfl, found⟩
    rw [isReachable, found]
    exact observer.tells member known other world calm
  case leaves =>
    intro id inside other world calm
    rw [self_fanout] at other
    rcases observer.peer?_eq listed inside other with
      ⟨member, known, rfl, found⟩
    rw [isReachable, found]
    exact observer.stays member known other world calm

variable {observer : Observer roster live}

theorem listed_of_living (alive : observer.self ∈ living roster live) :
    observer.self ∈ roster.map (·.id) :=
  (List.mem_filter.1 alive).1

theorem some_leader_eq (alive : observer.self ∈ living roster live) :
    some observer.leader = (living roster live).head? := by
  have listed := listed_of_living alive
  have lives : live observer.self = true := (List.mem_filter.1 alive).2
  have same : (fun id => id == observer.self || live id) = live := by
    funext id
    by_cases own : id = observer.self
    · simp [own, lives]
    · simp [own]
  rw [leader, (firstOf_eq (observer.probes listed) observer.calm).1,
    self_fanout, same, observer.order_eq listed, living, List.head?_filter]
  cases first : (roster.map (·.id)).find? live with
  | none => exact absurd lives (List.find?_eq_none.1 first observer.self listed)
  | some id => rfl

theorem source?_eq (alive : observer.self ∈ living roster live) :
    observer.source? =
      ((living roster live).filter (· ≠ observer.self)).head? := by
  have listed := listed_of_living alive
  rw [source?, (source?_eq_find? (observer.probes listed) observer.calm).1,
    self_fanout, observer.order_eq listed, living, List.filter_filter,
    List.head?_filter]
  congr 1
  funext id
  simp [bne, Bool.beq_eq_decide_eq]

/-- With no id twice, a second live node would be another one. -/
theorem source?_eq_none_iff (alive : observer.self ∈ living roster live) :
    observer.source? = none ↔ living roster live = [observer.self] := by
  rw [source?_eq alive, List.head?_eq_none_iff, List.filter_eq_nil_iff]
  have distinct : (living roster live).Nodup :=
    (Membership.ofRoster_eq_ok_iff.1 observer.joined).1.distinct.filter live
  constructor
  · intro nobody
    have own : ∀ id ∈ living roster live, id = observer.self := by
      simpa using nobody
    generalize living roster live = lives at alive distinct own
    match lives with
    | [] => cases alive
    | [id] => rw [own id List.mem_cons_self]
    | first :: second :: rest =>
        have same : first = second :=
          (own first (by simp)).trans (own second (by simp)).symm
        exact absurd (by simp [same]) (List.nodup_cons.1 distinct).1
  · intro only
    simp [only]

end Observer

/-! ## Nodes on their own -/

section Alone

variable {World : Type} {membership : Membership}

/-- A walk of a node without peers. -/
theorem isReachable_of_inert
    {fanout : Fanout World}
    (inert : fanout.peers = [])
    (id : NodeId)
    (world : World) :
    isReachable fanout id world = (false, world) := by
  rw [isReachable, Fanout.peer?, inert]
  rfl

/-- A node outside any cluster leads, has no source, and reconciles with
nobody. -/
theorem alone
    (lone : membership.isClustered = false)
    (timing : Timing)
    (reach : Member → Peer World)
    (world : World) :
    firstOf (.ofMembership membership timing reach) world membership.order =
      (membership.self, world) ∧
    source? (.ofMembership membership timing reach) world membership.order =
      (none, world) ∧
    ∀ store,
      Reconciliation.run (.ofMembership membership timing reach)
          membership.order store world =
        ({}, store, world) := by
  have inert : (Fanout.ofMembership membership timing reach).peers = [] := by
    rw [Fanout.peers_ofMembership, lone]
    rfl
  have self : (Fanout.ofMembership membership timing reach).self =
      membership.self :=
    Fanout.self_ofMembership ..
  generalize Fanout.ofMembership membership timing reach = fanout at inert self
  have single : ∃ id, membership.order = [id] := by
    rcases membership with ⟨name, _ | ⟨member, _ | ⟨second, rest⟩⟩⟩
    · exact ⟨name, rfl⟩
    · exact ⟨member.id, rfl⟩
    · simp [Membership.isClustered] at lone
  rcases single with ⟨id, single⟩
  constructor
  case left =>
    rw [single, firstOf, isReachable_of_inert inert, ← self]
    split
    · rename_i own
      rw [own]
    · rfl
  case right =>
    constructor
    case left =>
      rw [single, source?, isReachable_of_inert inert]
      split <;> rfl
    case right =>
      intro store
      rw [Reconciliation.run, Fanout.isInert, inert]
      rfl

end Alone

/-- All live nodes of a roster name the same leader, the first of them in order
of precedence; each would reconcile with the first of them besides itself, and
has nobody to reconcile with exactly if it is the only one.  A node outside any
cluster leads, has no source, and reconciles with nobody. -/
theorem live_nodes_agree
    (roster : Roster)
    (live : NodeId → Bool) :
    (∀ observer : Observer roster live, observer.self ∈ living roster live →
      some observer.leader = (living roster live).head? ∧
      observer.source? =
        ((living roster live).filter (· ≠ observer.self)).head? ∧
      (observer.source? = none ↔ living roster live = [observer.self])) ∧
    (∀ one other : Observer roster live, one.self ∈ living roster live →
      other.self ∈ living roster live → one.leader = other.leader) ∧
    ∀ membership : Membership, membership.isClustered = false →
      ∀ (World : Type) (timing : Timing) (reach : Member → Peer World)
        (world : World),
        firstOf (.ofMembership membership timing reach) world membership.order =
          (membership.self, world) ∧
        source? (.ofMembership membership timing reach) world membership.order =
          (none, world) ∧
        ∀ store,
          Reconciliation.run (.ofMembership membership timing reach)
              membership.order store world =
            ({}, store, world) := by
  refine ⟨?leader, ?agreement, ?alone⟩
  case leader =>
    intro observer alive
    exact ⟨Observer.some_leader_eq alive, Observer.source?_eq alive,
      Observer.source?_eq_none_iff alive⟩
  case agreement =>
    intro one other alive alive'
    apply Option.some.inj
    rw [Observer.some_leader_eq alive, Observer.some_leader_eq alive']
  case alone =>
    intro membership lone World timing reach world
    exact alone lone timing reach world

/-- Three nodes, the first of them cut off. -/
def headless : Fleet :=
  [⟨"n1", {}, .empty (.series 0), true, false, 0⟩,
    ⟨"n2", {}, .empty (.series 1), false, false, 0⟩,
    ⟨"n3", {}, .empty (.series 2), false, false, 0⟩]

/-- How they are listed. -/
def trio : Roster :=
  [⟨"n1", "10.0.0.1:9000"⟩, ⟨"n2", "10.0.0.2:9000"⟩, ⟨"n3", "10.0.0.3:9000"⟩]

/-- One of the three, asking the others directly. -/
def ofHeadless
    (self : NodeId)
    (joined : Membership.ofRoster self trio = .ok ⟨self, trio⟩) :
    Observer trio (· != "n1") where
  World := Fleet
  self := self
  joined := joined
  timing := {}
  reach member := Fleet.peer member.id
  reach_id _ _ := rfl
  IsCalm world := world = headless
  tells := by
    rintro member known - world rfl
    have told : ∀ member ∈ trio,
        (Fleet.ping member.id headless).1.isOk = (member.id != "n1") := by
      decide
    exact told member known
  stays _ _ _ _ calm := calm
  world := headless
  calm := rfl

theorem headless_nodes_agree :
    let outsider : Membership := ⟨"n9", [⟨"n1", "10.0.0.1:9000"⟩]⟩
    (ofHeadless "n2" rfl).leader = "n2" ∧
    (ofHeadless "n3" rfl).leader = "n2" ∧
    (ofHeadless "n2" rfl).source? = some "n3" ∧
    (ofHeadless "n3" rfl).source? = some "n2" ∧
    firstOf (.ofMembership outsider {} fun member => Fleet.peer member.id)
        headless ["n1"] =
      ("n9", headless) := by
  intro outsider
  have agreement := live_nodes_agree trio (· != "n1")
  have second := agreement.1 (ofHeadless "n2" rfl) (by decide)
  have third := agreement.1 (ofHeadless "n3" rfl) (by decide)
  have same :=
    agreement.2.1 (ofHeadless "n2" rfl) (ofHeadless "n3" rfl) (by decide)
      (by decide)
  have lone :=
    agreement.2.2 outsider rfl Fleet {} (fun member => Fleet.peer member.id)
      headless
  have leads : (ofHeadless "n2" rfl).leader = "n2" := Option.some.inj second.1
  exact ⟨leads, same.symm.trans leads, second.2.1, third.2.1, lone.1⟩

end Leader

end MessageBroker
