import MessageBroker.Proofs.LogReading
import MessageBroker.Proofs.LogPlacement

/-!
# Logs by themselves

The journal of a partition is all that its log consists of: the stored values by
offset, and the end.  Whether a message can be placed does not depend on what is
stored, and what placing it does to the journal of its partition depends on that
journal alone; no other journal changes.  What is read from a partition depends
on its journal alone, too.
-/

namespace MessageBroker

/-- The log of one partition: the stored values by offset, and the next
offset. -/
structure Journal where
  contents : Offset → Option Bytes
  next? : Option Offset

/-- A value is placed at an offset, unless that is taken, and the end rises. -/
def Journal.place
    (journal : Journal)
    (offset : Offset)
    (stored : Bytes × Offset) :
    Journal where
  contents other :=
    if other = offset then (journal.contents other).or (some stored.1)
    else journal.contents other
  next? := some (Ends.raised journal.next? stored.2)

namespace Log

/-- The stored form of a message and the offset after it, if it can be placed
anywhere. -/
def admitted
    (fresh : FreshId)
    (message : Message) :
    Except Error (Bytes × Offset) := do
  let next ← successor message.home message.offset
  let value ← Record.ofMessage (message.identified fresh)
  return (value, next)

/-- Whether a message is placed does not depend on what is stored. -/
theorem Sound.place_eq
    {keyspace : Keyspace}
    {ends : Ends}
    (sound : Sound keyspace ends)
    (fresh : FreshId)
    (message : Message) :
    place keyspace fresh message =
      (admitted fresh message).map fun stored =>
        ⟨if Holds keyspace message.home message.offset then .duplicate
          else .applied, stored.2,
          written keyspace message stored.1 ((ends.get? message.home).getD 0)
            stored.2⟩ := by
  unfold place admitted
  simp only [Message.identified_home, Message.identified_offset]
  cases successor message.home message.offset with
  | error fault => rfl
  | ok next =>
      rw [ok_bind, ok_bind]
      cases Record.ofMessage (message.identified fresh) with
      | error fault => rfl
      | ok value =>
          rw [ok_bind, ok_bind, sound.nextOffset_eq, ok_bind]
          rfl

end Log

namespace Store

/-- The log of a partition in a store. -/
def journal (store : Store) (home : PartitionKey) : Journal where
  contents offset := store.keyspace.get? (Key.message home offset).bytes
  next? := store.ends.get? home

/-- The store once a message is placed. -/
def placed
    (store : Store)
    (message : Message)
    (stored : Bytes × Offset) :
    Store where
  keyspace := Log.written store.keyspace message stored.1
    ((store.ends.get? message.home).getD 0) stored.2
  ends := store.ends.raise message.home stored.2
  ids := store.idsAfter message

variable {store : Store}

theorem Sound.place_eq
    (sound : store.Sound)
    (message : Message) :
    store.place message =
      (Log.admitted store.ids.upcoming message).map fun stored =>
        (if Log.Holds store.keyspace message.home message.offset then .duplicate
          else .applied, store.placed message stored) := by
  unfold Store.place
  rw [Log.Sound.place_eq sound]
  cases Log.admitted store.ids.upcoming message <;> rfl

theorem Sound.append_eq
    (sound : store.Sound)
    (message : Message) :
    store.append message =
      (Log.admitted store.ids.upcoming
          (message.moved (store.next message.home))).map
        fun stored =>
          ((message.identified store.ids.upcoming).moved
              (store.next message.home),
            store.placed (message.moved (store.next message.home)) stored) := by
  unfold Store.append
  rw [Log.Sound.append_eq_place sound, Log.Sound.place_eq sound]
  have next : store.next message.home = (store.ends.get? message.home).getD 0 :=
    rfl
  rw [next]
  cases Log.admitted store.ids.upcoming
    (message.moved ((store.ends.get? message.home).getD 0)) <;> rfl

/-- Placing a message changes the log of its partition and no other. -/
theorem Sound.journal_placed
    (sound : store.Sound)
    {fresh : FreshId}
    {message : Message}
    {stored : Bytes × Offset}
    (admits : Log.admitted fresh message = .ok stored)
    (home : PartitionKey) :
    (store.placed message stored).journal home =
      if home = message.home then
        (store.journal home).place message.offset stored
      else store.journal home := by
  rcases bind_eq_ok_iff.1 admits with ⟨next, follows, admits⟩
  rcases bind_eq_ok_iff.1 admits with ⟨value, _, same⟩
  cases same
  have positive : 0 < next.toNat :=
    Log.successor_eq_ok_iff.1 follows ▸ Nat.succ_pos _
  have contents : ∀ offset,
      (Log.written store.keyspace message value
            ((store.ends.get? message.home).getD 0) next).get?
          (Key.message home offset).bytes =
        _ :=
    fun offset =>
      Log.get?_written (sound.counter message.home) positive
        (Key.message home offset).bytes
  simp only [Key.message_bytes_ne_nextOffset, Key.message_bytes_inj, if_false]
    at contents
  unfold journal placed
  simp only [contents, Log.get?_raise]
  by_cases same : home = message.home
  · simp only [same, true_and, if_true]
    rfl
  · simp only [same, false_and, if_false]

/-- Stores with the same journal of a partition show the same in every window of
it. -/
theorem Sound.read_congr
    {first second : Store}
    (soundFirst : first.Sound)
    (soundSecond : second.Sound)
    {home : PartitionKey}
    (same : first.journal home = second.journal home)
    (window : Log.Window)
    (most : Nat)
    (budget : Option Nat) :
    Log.read first.keyspace home window most budget =
      Log.read second.keyspace home window most budget := by
  have entries : Log.entries first.keyspace home window =
      Log.entries second.keyspace home window := by
    apply OrderedMap.eq_of_mem_iff (Keyspace.between_ordered _ _ _)
      (Keyspace.between_ordered _ _ _)
    rintro ⟨place, content⟩
    have contents : ∀ offset,
        first.keyspace.get? (Key.message home offset).bytes =
          second.keyspace.get? (Key.message home offset).bytes :=
      fun offset => congrFun (congrArg Journal.contents same) offset
    refine (Log.Sound.mem_entries_iff soundFirst).trans
      (Iff.trans ?_ (Log.Sound.mem_entries_iff soundSecond).symm)
    simp only [contents]
  rw [Log.read_eq_page, Log.read_eq_page, entries]

theorem Sound.endOffset_eq
    (sound : store.Sound)
    (home : PartitionKey) :
    Log.endOffset store.keyspace home =
      .ok ((store.journal home).next?.getD 0) :=
  Log.Sound.nextOffset_eq sound "end_offset" home

end Store

end MessageBroker
