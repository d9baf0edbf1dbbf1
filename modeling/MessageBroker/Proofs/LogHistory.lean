import MessageBroker.Proofs.LogGrowth

/-!
# Histories of a store's logs

A store starts empty and is then asked to append, to place, to take batches, to
count its ends anew and to be opened again, in any order and any number of
times.  Whatever fails on the way, the store stays sound; so its counters, its
remembered ends and its messages agree at every moment, a count never changes
anything, and an append returns an offset beyond all that were ever returned.
-/

namespace MessageBroker

namespace Log

/-- What a store's logs are asked to do. -/
inductive Operation where
  /-- Store a message at the end of its partition. -/
  | append (message : Message)
  /-- Store a message at the offset it has. -/
  | place (message : Message)
  /-- Take a batch that another node sends. -/
  | replicate (limits : Limits) (batch : List Message)
  /-- Count the ends anew. -/
  | rebuild
  /-- Close the store and open it again, with a new supply of ids. -/
  | reopen (ids : IdSource)

namespace Operation

/-- The messages that an operation brings. -/
def messages : Operation → List Message
  | .append message => [message]
  | .place message => [message]
  | .replicate _ batch => batch
  | .rebuild => []
  | .reopen _ => []

/-- All messages of an operation are of topics without colons. -/
def IsPlain (operation : Operation) : Prop :=
  ∀ message ∈ operation.messages, ':' ∉ message.topic.toList

instance (operation : Operation) : Decidable operation.IsPlain :=
  inferInstanceAs
    (Decidable (∀ message ∈ operation.messages, ':' ∉ message.topic.toList))

end Operation

/-- A store and the messages that its appends have returned, latest first. -/
structure History where
  store : Store
  /-- The appended messages, as they were stored. -/
  appended : List Message := []

namespace History

/-- The history of a store without records. -/
def start (ids : IdSource) : History :=
  ⟨.empty ids, []⟩

/-- The history with one more operation; one that fails leaves what it had done
so far. -/
def perform (history : History) : Operation → History
  | .append message =>
      match history.store.append message with
      | .ok (stored, store) => ⟨store, stored :: history.appended⟩
      | .error _ => history
  | .place message =>
      match history.store.place message with
      | .ok (_, store) => { history with store := store }
      | .error _ => history
  | .replicate limits batch =>
      { history with store := (Replica.replicate limits history.store batch).2 }
  | .rebuild =>
      match history.store.rebuild with
      | .ok store => { history with store := store }
      | .error _ => history
  | .reopen ids => { history with store := history.store.reopened ids }

/-- The history with more operations, first one first. -/
def run (history : History) (operations : List Operation) : History :=
  operations.foldl perform history

/-! ## What every operation keeps -/

/-- The store is sound and still holds every message that was appended. -/
structure Sound (history : History) : Prop where
  store : history.store.Sound
  held : ∀ message ∈ history.appended,
    Holds history.store.keyspace message.home message.offset

theorem Sound.start (ids : IdSource) : (History.start ids).Sound where
  store := .empty ids
  held := by
    intro message inside
    cases inside

theorem Sound.grow
    {history : History}
    (sound : history.Sound)
    {kind : Message → Prop}
    {store : Store}
    (grows : Store.Grows kind history.store store) :
    Sound { history with store := store } where
  store := grows.sound
  held := by
    intro message inside
    exact grows.holds sound.store (sound.held message inside)

/-- Every operation keeps a history sound. -/
theorem Sound.perform
    {history : History}
    (sound : history.Sound)
    {operation : Operation}
    (plain : operation.IsPlain) :
    (history.perform operation).Sound := by
  cases operation with
  | append message =>
      have free : ':' ∉ message.topic.toList :=
        plain message (by simp [Operation.messages])
      unfold History.perform
      dsimp only
      split
      · rename_i stored store done
        have grows := sound.store.grows_append free done
        refine ⟨grows.sound, fun other inside => ?_⟩
        rcases List.mem_cons.1 inside with rfl | inside
        · obtain ⟨_, contained⟩ := sound.store.contains_append free done
          exact (Log.Sound.holds_iff grows.sound).2 ⟨_, contained⟩
        · exact grows.holds sound.store (sound.held other inside)
      · exact sound
  | place message =>
      have free : ':' ∉ message.topic.toList :=
        plain message (by simp [Operation.messages])
      unfold History.perform
      dsimp only
      split
      · rename_i outcome store done
        exact sound.grow (sound.store.grows_place free done)
      · exact sound
  | replicate limits batch =>
      exact sound.grow (sound.store.grows_replicate plain limits)
  | rebuild =>
      unfold History.perform
      dsimp only
      rw [sound.store.rebuild_eq]
      exact sound
  | reopen ids =>
      unfold History.perform
      dsimp only
      rw [sound.store.reopened_eq]
      exact ⟨sound.store, sound.held⟩

theorem Sound.run
    {operations : List Operation}
    {history : History}
    (sound : history.Sound)
    (plain : ∀ operation ∈ operations, operation.IsPlain) :
    (history.run operations).Sound := by
  induction operations generalizing history with
  | nil => exact sound
  | cons operation rest step =>
      exact step (sound.perform (plain operation List.mem_cons_self))
        fun other inside => plain other (List.mem_cons_of_mem _ inside)

/-! ## The agreement of messages, counters and ends -/

/-- After any operations on logs of topics without colons, a partition has a
counter exactly when it has messages; the counter is one more than the greatest
offset, and the remembered ends are the counters and nothing else.  Counting
anew succeeds and changes nothing, also after a restart, and an append goes
beyond every offset that is stored or was returned, and overwrites nothing. -/
theorem ends_agree
    (ids : IdSource)
    (operations : List Operation)
    (plain : ∀ operation ∈ operations, operation.IsPlain) :
    let history := (History.start ids).run operations
    let keyspace := history.store.keyspace
    (∀ home,
      ((keyspace.get? (Key.nextOffset home).bytes).isSome ↔
        ∃ offset, (keyspace.get? (Key.message home offset).bytes).isSome) ∧
      keyspace.get? (Key.nextOffset home).bytes =
        (history.store.ends.get? home).map Record.ofCounter ∧
      ∀ next, history.store.ends.get? home = some next →
        ∃ last, Holds keyspace home last ∧
          (∀ offset, Holds keyspace home offset → offset ≤ last) ∧
          next.toNat = last.toNat + 1) ∧
    history.store.rebuild = .ok history.store ∧
    history.store.forgetful.rebuild = .ok history.store ∧
    ∀ message stored store, ':' ∉ message.topic.toList →
      history.store.append message = .ok (stored, store) →
        stored.home = message.home ∧
        (∀ offset, Holds keyspace message.home offset →
          offset < stored.offset) ∧
        (∀ earlier ∈ history.appended, earlier.home = message.home →
          earlier.offset < stored.offset) ∧
        ∀ home offset value,
          keyspace.get? (Key.message home offset).bytes = some value →
          store.keyspace.get? (Key.message home offset).bytes = some value := by
  intro history keyspace
  have sound : history.Sound := (Sound.start ids).run plain
  refine ⟨?_, sound.store.rebuild_eq, sound.store.rebuild_forgetful, ?_⟩
  · intro home
    refine ⟨Log.Sound.isSome_counter_iff sound.store home,
      sound.store.counter home, ?_⟩
    intro next known
    have ended := sound.store.ended home
    rw [known] at ended
    exact ended.exists_greatest
  · intro message stored store free done
    obtain ⟨rfl, vacant, placed⟩ := sound.store.append done
    have beyond : ∀ offset, Holds keyspace message.home offset →
        offset < history.store.next message.home :=
      fun offset held => (sound.store.ended message.home).lt_of_holds held
    refine ⟨Message.identified_home message _, beyond, ?_, ?_⟩
    · intro earlier inside same
      exact beyond earlier.offset (same ▸ sound.held earlier inside)
    · intro home offset value held
      have movedFree : ':' ∉
          (message.moved (history.store.next message.home)).topic.toList :=
        free
      exact sound.store.place_keeps movedFree placed held

/-- Messages placed with gaps and out of order, and appends before and after the
store is opened again. -/
def gapped : List Operation :=
  [.append { topic := "t" }, .place { topic := "t", offset := 5 },
    .place { topic := "t", offset := 2 }, .reopen (.series 1),
    .append { topic := "t" },
    .place { topic := "t", offset := 5 }]

theorem ends_agree_gapped :
    (∀ operation ∈ gapped, operation.IsPlain) ∧
    ((History.start (.series 0)).run gapped).store.ends.get? ⟨"t", 0⟩ = some 7 ∧
    ((History.start (.series 0)).run gapped).store.rebuild =
      .ok ((History.start (.series 0)).run gapped).store := by
  have plain : ∀ operation ∈ gapped, operation.IsPlain := by decide
  have agree := ends_agree (.series 0) gapped plain
  refine ⟨plain, ?_, agree.2.1⟩
  decide +kernel

end History

end Log

end MessageBroker
