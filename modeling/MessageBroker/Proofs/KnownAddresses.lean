import MessageBroker.Fleet
import MessageBroker.Node
import MessageBroker.Proofs.AcceptableRosters

/-!
# Known addresses

A cluster admits no node that it does not list, and a listed node has an address
that says something.  So a node of a cluster always knows where to listen: at
the address in its options, or else at its own on the roster.  Its peers are the
other members in order, and there is at least one.  A node outside any cluster
has none, whomever its roster lists.

Options give no membership but that of a node alone and that of an acceptable
roster.  So a start never fails for want of an address.
-/

namespace MessageBroker

open Cluster

/-! ## Members of a cluster -/

namespace Cluster.Membership

variable {self : NodeId} {roster : Roster} {membership : Membership}

/-- A cluster lists each of its nodes once. -/
theorem exists_stands
    (admitted : ofRoster self roster = .ok membership)
    (many : 1 < roster.length) :
    roster.IsAcceptable ∧
    ∃ before own after, roster.Stands self before own after := by
  rw [eq_of_ofRoster admitted, ofRoster_eq_ok_iff] at admitted
  exact ⟨admitted.1, admitted.1.exists_stands (admitted.2 many)⟩

/-- A node of a cluster has an address that says something. -/
theorem exists_selfHost
    (admitted : ofRoster self roster = .ok membership)
    (clustered : membership.isClustered = true) :
    ∃ host, membership.selfHost? = some host ∧ host ≠ "" := by
  cases eq_of_ofRoster admitted
  rcases exists_stands admitted (of_decide_eq_true clustered) with
    ⟨acceptable, before, own, after, stands⟩
  have stated := (Roster.isAcceptable_iff.1 acceptable).1 own stands.mem
  exact ⟨own.host, selfHost?_of_stands stands, stated.2⟩

/-- A file gives a node the membership of a node alone or that of its roster. -/
theorem eq_alone_or_ofRoster
    {file : ConfigFile}
    (loaded : load self file = .ok membership) :
    membership = alone self ∨
    ∃ roster, ofRoster self roster = .ok membership := by
  cases file with
  | missing =>
      cases loaded
      exact .inl rfl
  | directory => cases loaded
  | content bytes =>
      dsimp only [load] at loaded
      split at loaded
      · cases loaded
      · rcases bind_eq_ok_iff.1 loaded with ⟨roster, _, admitted⟩
        exact .inr ⟨roster, admitted⟩

end Cluster.Membership

/-! ## Starting -/

namespace Node

variable {options : Options} {membership : Membership}

/-- A node alone is in no cluster, so one in a cluster has a file, and the file
a roster. -/
theorem Options.exists_selfHost
    (given : options.membership = .ok membership)
    (clustered : membership.isClustered = true) :
    ∃ host, membership.selfHost? = some host ∧ host ≠ "" := by
  have alone : membership ≠ .alone options.id := by
    rintro rfl
    cases clustered
  unfold Options.membership at given
  split at given
  · rcases Membership.eq_alone_or_ofRoster (mapError_eq_ok_iff.1 given) with
      same | ⟨_, admitted⟩
    · exact absurd same alone
    · exact Membership.exists_selfHost admitted clustered
  · cases given
    exact absurd rfl alone

/-- A node of a cluster has an address to listen at: that of its options, or
else its own. -/
theorem Options.exists_address
    (given : options.membership = .ok membership)
    (clustered : membership.isClustered = true) :
    ∃ host, membership.selfHost? = some host ∧
      host ≠ "" ∧
      options.address membership = .ok (options.listen.getD host) := by
  rcases Options.exists_selfHost given clustered with ⟨host, found, stated⟩
  refine ⟨host, found, stated, ?_⟩
  rw [Options.address, found]
  cases options.listen <;> rfl

section

variable {id : NodeId}

theorem Options.check_ne_missingSelfHost :
    options.check ≠ .error (.missingSelfHost id) :=
  bind_ne_error (mapError_ne_error nofun) fun _ _ =>
    bind_ne_error (mapError_ne_error nofun) fun _ _ => mapError_ne_error nofun

theorem Options.membership_ne_missingSelfHost :
    options.membership ≠ .error (.missingSelfHost id) := by
  unfold Options.membership
  split
  · exact mapError_ne_error nofun
  · exact nofun

theorem openStore_ne_missingSelfHost {disk : Option Store} :
    openStore disk ≠ .error (.missingSelfHost id) := by
  unfold openStore
  split
  · exact mapError_ne_error nofun
  · exact nofun

/-- With a membership that the options give, listening fails only where the
address cannot be bound. -/
theorem Options.listenAt_ne_missingSelfHost
    {bind : String → Except String Unit}
    (given : options.membership = .ok membership) :
    options.listenAt membership bind ≠ .error (.missingSelfHost id) := by
  unfold Options.listenAt
  split
  · rename_i clustered
    rcases Options.exists_address given clustered with ⟨host, _, _, known⟩
    rw [known, ok_bind]
    split <;> exact nofun
  · exact nofun

/-- Listening is the only step of a start that looks for an address. -/
theorem start_ne_missingSelfHost
    {disk : Option Store}
    {bind : String → Except String Unit} :
    start options disk bind ≠ .error (.missingSelfHost id) := by
  apply bind_ne_error Options.check_ne_missingSelfHost
  rintro - -
  apply bind_ne_error Options.membership_ne_missingSelfHost
  intro membership given
  apply bind_ne_error openStore_ne_missingSelfHost
  rintro store -
  apply bind_ne_error (Options.listenAt_ne_missingSelfHost given)
  exact nofun

end

/-- A roster passes its check exactly if every id and every address in it says
something and no id comes twice.  Where it admits a node of several, the node's
member stands in it once, with an address that says something, between others;
those are its peers, in their order, and those of its fanout.  A node outside
any cluster has an inert fanout.  And however a node is set up, it starts
without missing an address: in a cluster it knows its own, and listens there
unless its options name another. -/
theorem clustered_nodes_know_addresses :
    (∀ roster : Roster, roster.check = .ok () ↔
      (∀ member ∈ roster, member.id ≠ "" ∧ member.host ≠ "") ∧
      (roster.map (·.id)).Nodup) ∧
    (∀ (self : NodeId) (roster : Roster) (membership : Membership),
      Membership.ofRoster self roster = .ok membership → 1 < roster.length →
      ∃ before own after, roster = before ++ own :: after ∧
        own.id = self ∧
        (∀ member ∈ before ++ after, member.id ≠ self) ∧
        membership.selfHost? = some own.host ∧
        own.host ≠ "" ∧
        membership.peers = before ++ after ∧
        before ++ after ≠ [] ∧
        ((before ++ after).map (·.id)).Nodup ∧
        ∀ (World : Type) (timing : Timing) (reach : Member → Peer World),
          (Fanout.ofMembership membership timing reach).self = self ∧
          (Fanout.ofMembership membership timing reach).peers =
            (before ++ after).map reach) ∧
    (∀ membership : Membership, membership.isClustered = false →
      ∀ (World : Type) (timing : Timing) (reach : Member → Peer World),
        (Fanout.ofMembership membership timing reach).isInert = true) ∧
    ∀ options : Options,
      (∀ disk bind id, start options disk bind ≠ .error (.missingSelfHost id)) ∧
      ∀ membership, options.membership = .ok membership →
        membership.isClustered = true →
        ∃ host, membership.selfHost? = some host ∧
          host ≠ "" ∧
          options.address membership = .ok (options.listen.getD host) := by
  refine ⟨?check, ?cluster, ?alone, ?starts⟩
  case check =>
    intro roster
    rw [Roster.check_eq_ok_iff, Roster.isAcceptable_iff]
  case cluster =>
    intro self roster membership admitted many
    rcases Membership.exists_stands admitted many with
      ⟨acceptable, before, own, after, stands⟩
    cases Membership.eq_of_ofRoster admitted
    have stated := (Roster.isAcceptable_iff.1 acceptable).1 own stands.mem
    have peers := Membership.peers_of_stands stands
    refine ⟨before, own, after, stands.whole, stands.named, stands.others,
      Membership.selfHost?_of_stands stands, stated.2, peers,
      stands.ne_nil many, stands.nodup acceptable, ?_⟩
    intro World timing reach
    have clustered : Membership.isClustered ⟨self, roster⟩ = true :=
      decide_eq_true many
    rw [Fanout.self_ofMembership, Fanout.peers_ofMembership, if_pos clustered,
      peers]
    exact ⟨rfl, rfl⟩
  case alone =>
    intro membership lone World timing reach
    rw [Fanout.isInert, Fanout.peers_ofMembership, lone]
    rfl
  case starts =>
    intro options
    constructor
    case left => exact fun _ _ _ => start_ne_missingSelfHost
    case right => exact fun _ => Options.exists_address

/-- The second of three nodes, set up from a file that lists them, and a node
whose roster lists another one alone. -/
theorem clustered_nodes_know_addresses_second :
    let first : Member := ⟨"n1", "10.0.0.1:9000"⟩
    let second : Member := ⟨"n2", "10.0.0.2:9000"⟩
    let third : Member := ⟨"n3", "10.0.0.3:9000"⟩
    let roster : Roster := [first, second, third]
    let options : Options :=
      { id := "n2", config := some (.content roster.document) }
    let membership : Membership := ⟨"n2", roster⟩
    let outsider : Membership := ⟨"n1", [⟨"n4", "10.0.0.4:9000"⟩]⟩
    roster.check = .ok () ∧ Membership.ofRoster "n2" roster = .ok membership ∧
      membership.peers = [first, third] ∧
      (Fanout.ofMembership membership {} fun member =>
        Fleet.peer member.id).ids = ["n1", "n3"] ∧
      options.membership = .ok membership ∧ options.address membership =
        .ok "10.0.0.2:9000" ∧
      start options (some (.empty (.series 0))) (fun _ => .ok ()) ≠
        .error (.missingSelfHost "n2") ∧
      (Fanout.ofMembership outsider {} fun member =>
          Fleet.peer member.id).isInert = true := by
  intro first second third roster options membership outsider
  obtain ⟨checks, clusters, alone, starts⟩ := clustered_nodes_know_addresses
  have given : options.membership = .ok membership :=
    eq_ok_of_toOption (by decide +kernel)
  obtain ⟨_, _, _, _, _, _, _, _, peers, _, _, fanout⟩ :=
    clusters "n2" roster membership rfl (by decide)
  have reached : (Fanout.ofMembership membership {} fun member =>
        Fleet.peer member.id).ids =
      ["n1", "n3"] := by
    rw [Fanout.ids, (fanout _ _ _).2, ← peers]
    rfl
  obtain ⟨host, known, _, address⟩ := (starts options).2 membership given rfl
  cases known
  exact ⟨(checks roster).2 (by decide), rfl, rfl, reached, given, address,
    (starts options).1 _ _ _, alone outsider rfl _ _ _⟩

end Node

end MessageBroker
