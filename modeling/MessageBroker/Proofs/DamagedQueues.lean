import MessageBroker.Proofs.SweepProgress

/-!
# Sweeps over damaged records

A sweep that meets a delivery which it cannot give back fails, and a sweep that
fails changes nothing.  What was due stays due, and what could not be given back
stays so.  Hence one such delivery, of whichever queue, keeps all others from
being given back, at this sweep and at every later one.
-/

namespace MessageBroker.Queue

variable {keyspace : Keyspace} {now : UInt64} {entry : Bytes × Bytes}

/-- Every delivery that is due can be given back at its turn. -/
def AllReturnable (keyspace : Keyspace) (now : UInt64) : Prop :=
  ∀ earlier delivery later,
    dues now (keyspace.withStem Key.expiries) = earlier ++ delivery :: later →
      Returnable keyspace earlier delivery

theorem due?_later
    {later : UInt64}
    (passes : now ≤ later)
    {delivery : String × MessageId}
    (due : due? now entry = some delivery) :
    due? later entry = some delivery := by
  unfold due? at due ⊢
  split at due
  · split at due
    · cases due
    · rename_i past
      cases due
      exact if_neg fun early => past (UInt64.le_trans passes early)
  · cases due

/-- What is due stays due. -/
theorem dues_sublist
    {later : UInt64}
    (passes : now ≤ later)
    (entries : List (Bytes × Bytes)) :
    (dues now entries).Sublist (dues later entries) := by
  induction entries with
  | nil => exact .slnil
  | cons entry rest step =>
      unfold dues at step ⊢
      rw [List.filterMap_cons, List.filterMap_cons]
      cases due : due? now entry with
      | none =>
          cases due? later entry with
          | none => exact step
          | some delivery => exact step.cons _
      | some delivery =>
          rw [due?_later passes due]
          exact step.cons_cons _

/-- Whoever can be given back after others could be given back after fewer of
them, if the first of its name can. -/
theorem Returnable.sublist
    {fewer more : List (String × MessageId)}
    {delivery : String × MessageId}
    (possible : Returnable keyspace more delivery)
    (sublist : fewer.Sublist more)
    (first : ∀ earlier later, more = earlier ++ delivery :: later →
      Returnable keyspace earlier delivery) :
    Returnable keyspace fewer delivery where
  message := by
    have message := possible.message
    by_cases inside : delivery ∈ fewer
    · rw [messageAfter, if_pos (sublist.subset inside)] at message
      rwa [messageAfter, if_pos inside]
    · rw [messageAfter, if_neg inside]
      by_cases among : delivery ∈ more
      · obtain ⟨earlier, later, split, new⟩ := List.eq_append_cons_of_mem among
        have original := (first earlier later split).message
        rwa [messageAfter, if_neg new] at original
      · rwa [messageAfter, if_neg among] at message
  counter := possible.counter
  room := by
    have fits := possible.room
    have fewerRank : rank fewer delivery.1 ≤ rank more delivery.1 :=
      sublist.countP_le
    omega

/-- What cannot be given back now cannot be given back later. -/
theorem AllReturnable.sooner
    {later : UInt64}
    (all : AllReturnable keyspace later)
    (passes : now ≤ later) :
    AllReturnable keyspace now := by
  intro earlier delivery rest split
  obtain ⟨front, following, whole, before, behind⟩ :=
    List.filterMap_eq_append_iff.1 split
  obtain ⟨passed, entry, back, rfl, nothing, due, _⟩ :=
    List.filterMap_eq_cons_iff.1 behind
  have ahead : dues now (front ++ passed) = earlier := by
    rw [dues, List.filterMap_append, before,
      List.filterMap_eq_nil_iff.2 nothing, List.append_nil]
  have turns : dues later (keyspace.withStem Key.expiries) =
      dues later (front ++ passed) ++ delivery :: dues later back := by
    rw [whole, ← List.append_assoc, dues, List.filterMap_append,
      List.filterMap_cons, due?_later passes due, dues, dues]
  have possible := all _ delivery _ turns
  refine possible.sublist (ahead ▸ dues_sublist passes _)
    fun earlier' later' split' => ?_
  refine all earlier' delivery (later' ++ delivery :: dues later back) ?_
  rw [turns, split', List.append_assoc, List.cons_append]

/-- An entry is intact and due: its body reads as a message, and the counter of
its queue reads. -/
def Healthy
    (keyspace : Keyspace)
    (now : UInt64)
    (entry : Bytes × Bytes) :
    Prop :=
  ∃ queue id content message next, due? now entry = some (queue, id) ∧
    keyspace.get? (Key.body queue id).bytes = some content ∧
    Record.toMessage "requeue" content = .ok message ∧
    keyspace.counter "requeue" (.nextGeneration queue) = .ok next

/-- In any keyspace, with any bytes in any record: where every delivery that is
due can be given back at its turn, a sweep gives them all back, drops the
damaged entries and changes nothing else.  Where one of them cannot, that sweep
and every later one fails and changes nothing.  So the intact entries that are
due are given back exactly if all that are due can be, or there is none. -/
theorem sweep_all_or_nothing
    (keyspace : Keyspace)
    (settings : Settings)
    (now : UInt64) :
    let entries := keyspace.withStem Key.expiries
    (AllReturnable keyspace now →
      ∃ sweep, requeueExpired keyspace settings now = .ok sweep ∧
        swept keyspace settings now = sweep.keyspace ∧
        Progress keyspace settings now entries sweep) ∧
    (¬ AllReturnable keyspace now →
      ∀ later, now ≤ later →
        (∃ fault, requeueExpired keyspace settings later = .error fault) ∧
        swept keyspace settings later = keyspace) ∧
    ((∀ entry ∈ entries, Healthy keyspace now entry →
        (swept keyspace settings now).get? entry.1 = none) ↔
      AllReturnable keyspace now ∨
      ∀ entry ∈ entries, ¬ Healthy keyspace now entry) := by
  intro entries
  have stemmed : ∀ other ∈ [] ++ entries,
      Bytes.ofText Key.expiries <+: other.1 :=
    fun other inside => (Keyspace.mem_withStem_iff.1 inside).1
  have run :=
    fun reading => (Progress.start keyspace settings reading).run stemmed
  have succeeds : AllReturnable keyspace now →
      ∃ sweep, requeueExpired keyspace settings now = .ok sweep ∧
        swept keyspace settings now = sweep.keyspace ∧
        Progress keyspace settings now entries sweep := by
    intro all
    obtain ⟨sweep, done⟩ := (run now).1.2 all
    refine ⟨sweep, done, ?_, (run now).2 sweep done⟩
    unfold swept
    rw [show requeueExpired keyspace settings now = .ok sweep from done]
  have fails : ¬ AllReturnable keyspace now → ∀ later, now ≤ later →
      (∃ fault, requeueExpired keyspace settings later = .error fault) ∧
        swept keyspace settings later = keyspace := by
    intro blocked later passes
    unfold swept
    cases attempt : requeueExpired keyspace settings later with
    | error fault => exact ⟨⟨fault, rfl⟩, rfl⟩
    | ok sweep =>
        have all : AllReturnable keyspace later :=
          (run later).1.1 ⟨sweep, attempt⟩
        exact absurd (all.sooner passes) blocked
  refine ⟨succeeds, fails, fun given => ?_, ?_⟩
  · by_contra neither
    obtain ⟨blocked, some⟩ := not_or.1 neither
    refine some fun entry inside healthy => ?_
    have kept := given entry inside healthy
    rw [(fails blocked now (UInt64.le_refl now)).2,
      (Keyspace.mem_withStem_iff.1 inside).2] at kept
    cases kept
  · rintro (all | none) entry inside healthy
    · obtain ⟨sweep, _, same, progress⟩ := succeeds all
      obtain ⟨queue, id, _, _, _, due, _⟩ := healthy
      rw [same]
      exact progress.ended entry inside (.inl (by rw [due]; rfl))
    · exact absurd healthy (none entry inside)

/-- Two queues, each with a message that is handed out. -/
def handedOut : List Operation :=
  [.enqueue (.numbered 0 0) "a" { topic := "a", payload := [0] },
    .enqueue (.numbered 0 1) "b" { topic := "b", payload := [1] },
    .dequeue "a" 0, .dequeue "b" 0]

/-- Where the body in the first queue is damaged, the intact delivery of the
second queue is not given back, as it is where the body is intact. -/
theorem damage_blocks_others :
    let served := (History.run {} {} handedOut).keyspace
    let damaged : Keyspace :=
      served.insert (Key.body "a" (FreshId.numbered 0 0).id).bytes [0xff]
    let entry :=
      ((Key.expiry "b" (FreshId.numbered 0 1).id).bytes, Record.ofCounter 30000)
    entry ∈ damaged.withStem Key.expiries ∧ Healthy damaged 30001 entry ∧
    (swept damaged {} 30001).get? entry.1 = some entry.2 ∧
    pendingCount (swept damaged {} 30001) "b" = 0 ∧
    pendingCount (swept served {} 30001) "b" = 1 := by
  intro served damaged entry
  refine ⟨by decide +kernel,
    ⟨"b", (FreshId.numbered 0 1).id, _, _, 1, by decide +kernel, rfl, rfl, ?_⟩,
    by decide +kernel, by decide +kernel, by decide +kernel⟩
  exact counter_eq_ok_iff.2 (.inr ⟨_, rfl, rfl⟩)

end MessageBroker.Queue
