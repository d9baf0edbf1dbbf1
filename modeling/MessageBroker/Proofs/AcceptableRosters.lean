import Mathlib.Data.List.Nodup
import MessageBroker.Cluster.Membership
import MessageBroker.Proofs.Attempts

/-!
# Acceptable rosters

A roster passes its check exactly if every member says who and where it is and
no id comes twice.  It then admits a node alone, and in a cluster if it lists
the node; the membership that it gives is the node's id with the roster as it
is.

Where an acceptable roster lists a node, it does so once: the node's member
stands between others, and those are its peers, in the order of the roster.
-/

namespace MessageBroker

namespace Cluster.Roster

variable {roster earlier : Roster} {member : Member}

/-- Every member says who and where it is, and no id comes twice. -/
structure IsAcceptable (roster : Roster) : Prop where
  /-- Every id and every address says something. -/
  stated : ∀ member ∈ roster, member.id.isEmpty = false ∧
    member.host.isEmpty = false
  /-- No id comes twice. -/
  distinct : (roster.map (·.id)).Nodup

theorem isAcceptable_cons :
    IsAcceptable (member :: roster) ↔
      (member.id.isEmpty = false ∧ member.host.isEmpty = false) ∧
      member.id ∉ roster.map (·.id) ∧
      IsAcceptable roster := by
  constructor
  · rintro ⟨stated, distinct⟩
    rw [List.map_cons, List.nodup_cons] at distinct
    rw [List.forall_mem_cons] at stated
    exact ⟨stated.1, distinct.1, stated.2, distinct.2⟩
  · rintro ⟨first, new, stated, distinct⟩
    exact ⟨List.forall_mem_cons.2 ⟨first, stated⟩,
      List.nodup_cons.2 ⟨new, distinct⟩⟩

theorem checkMember_eq_ok_iff :
    checkMember earlier member = .ok () ↔
      (member.id.isEmpty = false ∧ member.host.isEmpty = false) ∧
      member.id ∉ earlier.map (·.id) := by
  have repeats : earlier.any (·.id == member.id) = true ↔
      member.id ∈ earlier.map (·.id) := by
    simp
  unfold checkMember
  split
  · simp_all
  · split
    · simp_all
    · rw [← repeats]
      split <;> simp_all

/-- Members pass after others exactly if they are acceptable and repeat none of
the others. -/
theorem checkFrom_eq_ok_iff (earlier roster : Roster) :
    checkFrom earlier roster = .ok () ↔
      IsAcceptable roster ∧
      ∀ member ∈ roster, member.id ∉ earlier.map (·.id) := by
  induction roster generalizing earlier with
  | nil => exact ⟨fun _ => ⟨⟨by simp, by simp⟩, by simp⟩, fun _ => rfl⟩
  | cons member rest step =>
      have opened : checkFrom earlier (member :: rest) = .ok () ↔
          checkMember earlier member = .ok () ∧
          checkFrom (earlier ++ [member]) rest = .ok () := by
        rw [checkFrom]
        cases checkMember earlier member <;> simp [bind, Except.bind]
      have apart :
          (∀ other ∈ rest, other.id ∉ (earlier ++ [member]).map (·.id)) ↔
            (∀ other ∈ rest, other.id ∉ earlier.map (·.id)) ∧
            member.id ∉ rest.map (·.id) := by
        simp only [List.map_append, List.map_cons, List.map_nil,
          List.mem_append, List.mem_singleton, not_or, List.mem_map, not_exists,
          not_and]
        exact ⟨fun new => ⟨fun other inside => (new other inside).1,
          fun other inside => (new other inside).2⟩,
          fun new other inside => ⟨new.1 other inside, new.2 other inside⟩⟩
      rw [opened, checkMember_eq_ok_iff, step, apart, isAcceptable_cons,
        List.forall_mem_cons]
      constructor
      · rintro ⟨⟨stated, new⟩, acceptable, apart, once⟩
        exact ⟨⟨stated, once, acceptable⟩, new, apart⟩
      · rintro ⟨⟨stated, once, acceptable⟩, new, apart⟩
        exact ⟨⟨stated, new⟩, acceptable, apart, once⟩

theorem isAcceptable_iff :
    roster.IsAcceptable ↔
      (∀ member ∈ roster, member.id ≠ "" ∧ member.host ≠ "") ∧
      (roster.map (·.id)).Nodup := by
  simp only [← String.isEmpty_eq_false_iff]
  exact ⟨fun ⟨stated, distinct⟩ => ⟨stated, distinct⟩, fun ⟨stated, distinct⟩ =>
    ⟨stated, distinct⟩⟩

theorem check_eq_ok_iff : roster.check = .ok () ↔ roster.IsAcceptable := by
  rw [check, checkFrom_eq_ok_iff]
  simp

end Cluster.Roster

/-- A roster admits a node if it is acceptable and, once it makes a cluster,
lists the node. -/
theorem Cluster.Membership.ofRoster_eq_ok_iff
    {self : NodeId}
    {roster : Roster} :
    ofRoster self roster = .ok ⟨self, roster⟩ ↔
      roster.IsAcceptable ∧ (1 < roster.length → self ∈ roster.map (·.id)) := by
  have missing : roster.all (·.id != self) = true ↔
      self ∉ roster.map (·.id) := by
    simp only [List.all_eq_true, bne_iff_ne, List.mem_map, not_exists, not_and,
      ne_eq]
  rw [← Roster.check_eq_ok_iff, ofRoster]
  cases roster.check with
  | error fault => simp [bind, Except.bind]
  | ok done =>
      simp only [missing, bind, Except.bind, pure, Except.pure]
      split
      · rename_i refused
        simp [refused.1, refused.2]
      · rename_i admitted
        simpa using fun clustered => Classical.not_not.1 fun left =>
          admitted ⟨clustered, left⟩

/-- A roster that admits a node gives it its own id and the roster as it is. -/
theorem Cluster.Membership.eq_of_ofRoster
    {self : NodeId}
    {roster : Roster}
    {membership : Membership}
    (admitted : ofRoster self roster = .ok membership) :
    membership = ⟨self, roster⟩ := by
  rcases bind_eq_ok_iff.1 admitted with ⟨_, _, rest⟩
  split at rest
  · cases rest
  · cases rest
    rfl

/-! ## The node among the others -/

/-- The node's member stands between others, none of which has the node's id. -/
structure Cluster.Roster.Stands
    (roster : Roster)
    (node : NodeId)
    (before : Roster)
    (own : Member)
    (after : Roster) :
    Prop where
  whole : roster = before ++ own :: after
  named : own.id = node
  others : ∀ member ∈ before ++ after, member.id ≠ node

section

variable {roster before after : Cluster.Roster} {self : NodeId}
  {own : Cluster.Member}

/-- Of an acceptable roster, the members before and after one have ids other
than its own, none of them twice. -/
theorem Cluster.Roster.IsAcceptable.others
    (acceptable : IsAcceptable (before ++ own :: after)) :
    own.id ∉ (before ++ after).map (·.id) ∧
    ((before ++ after).map (·.id)).Nodup := by
  have distinct := acceptable.distinct
  rwa [List.map_append, List.map_cons, List.nodup_middle, List.nodup_cons,
    ← List.map_append] at distinct

/-- An acceptable roster that lists a node lists it once. -/
theorem Cluster.Roster.IsAcceptable.exists_stands
    (acceptable : roster.IsAcceptable)
    (listed : self ∈ roster.map (·.id)) :
    ∃ before own after, roster.Stands self before own after := by
  rcases List.mem_map.1 listed with ⟨own, inside, named⟩
  rcases List.append_of_mem inside with ⟨before, after, rfl⟩
  refine ⟨before, own, after, rfl, named, fun member inside' same =>
    acceptable.others.1 ?_⟩
  rw [named, ← same]
  exact List.mem_map_of_mem inside'

theorem Cluster.Roster.Stands.mem
    (stands : roster.Stands self before own after) :
    own ∈ roster := by
  rw [stands.whole]
  exact List.mem_append_right before List.mem_cons_self

/-- In a roster of several there are others. -/
theorem Cluster.Roster.Stands.ne_nil
    (stands : roster.Stands self before own after)
    (many : 1 < roster.length) :
    before ++ after ≠ [] := by
  rw [stands.whole, List.length_append, List.length_cons] at many
  intro nobody
  have none : (before ++ after).length = 0 := by rw [nobody]; rfl
  rw [List.length_append] at none
  omega

theorem Cluster.Roster.Stands.nodup
    (stands : roster.Stands self before own after)
    (acceptable : roster.IsAcceptable) :
    ((before ++ after).map (·.id)).Nodup := by
  rw [stands.whole] at acceptable
  exact acceptable.others.2

theorem Cluster.Membership.selfHost?_of_stands
    (stands : roster.Stands self before own after) :
    selfHost? ⟨self, roster⟩ = some own.host := by
  have earlier : before.find? (·.id == self) = none := by
    rw [List.find?_eq_none]
    intro member inside
    simpa using stands.others member (List.mem_append_left _ inside)
  have here : (own.id == self) = true := beq_iff_eq.2 stands.named
  dsimp only [selfHost?]
  rw [stands.whole, List.find?_append, earlier, Option.none_or, List.find?_cons,
    here]
  rfl

theorem Cluster.Membership.peers_of_stands
    (stands : roster.Stands self before own after) :
    peers ⟨self, roster⟩ = before ++ after := by
  have kept : (before ++ after).filter (·.id != self) = before ++ after := by
    rw [List.filter_eq_self]
    intro member inside
    exact bne_iff_ne.2 (stands.others member inside)
  have left : (own.id != self) = false := by simp [stands.named]
  rw [List.filter_append] at kept
  dsimp only [peers]
  rw [stands.whole, List.filter_append, List.filter_cons, left,
    if_neg (by simp), kept]

end

end MessageBroker
