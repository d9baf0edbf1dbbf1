import MessageBroker.Proofs.LogHistory

/-!
# Logs as finite maps

What was written to a partition is a finite map from offsets to messages, in
which the first message at an offset stays.  The maps of all partitions, with
the supply of ids, are a chronicle.  A chronicle takes the operations that a
store takes, but knows no keys, no bytes and no counters: a write is refused
where a field is too long for its length or no offset follows, and an append
writes after the last message.

A store and the chronicle of the same operations agree after every one of them,
whether it succeeds or not.
-/

namespace MessageBroker

instance : StrictOrder Offset where
  irrefl := UInt64.lt_irrefl
  trans := UInt64.lt_trans
  trichotomy first second := by
    rcases Nat.lt_trichotomy first.toNat second.toNat with less | same | more
    · exact .inl (UInt64.lt_iff_toNat_lt.2 less)
    · exact .inr (.inl (UInt64.toNat_inj.1 same))
    · exact .inr (.inr (UInt64.lt_iff_toNat_lt.2 more))

namespace OrderedMap

/-- The last entry has the greatest key. -/
theorem lt_or_eq_getLast
    {key value : Type}
    [LT key]
    {map : OrderedMap key value}
    {last entry : key × value}
    (final : map.entries.getLast? = some last)
    (inside : entry ∈ map.entries) :
    entry.1 < last.1 ∨ entry = last := by
  obtain ⟨front, whole⟩ := List.getLast?_eq_some_iff.1 final
  have ordered := map.ordered
  rw [whole, List.pairwise_append] at ordered
  rw [whole, List.mem_append, List.mem_singleton] at inside
  exact inside.imp_left fun earlier =>
    ordered.2.2 entry earlier last List.mem_cons_self

end OrderedMap

namespace Log

/-- The messages of every partition by their offsets, and the supply of ids. -/
structure Chronicle where
  /-- The messages of a partition. -/
  log : PartitionKey → OrderedMap Offset Message
  /-- The supply of ids. -/
  ids : IdSource

namespace Chronicle

/-- The chronicle before anything is written. -/
def start (ids : IdSource) : Chronicle :=
  ⟨fun _ => .empty, ids⟩

/-- One more than the last offset of a partition, zero where there is none. -/
def next (chronicle : Chronicle) (home : PartitionKey) : Nat :=
  match (chronicle.log home).entries.getLast? with
  | some (last, _) => last.toNat + 1
  | none => 0

/-- Write a message at the offset it has, unless that offset is taken. -/
def write? (chronicle : Chronicle) (message : Message) : Option Chronicle :=
  if message.Fits ∧ message.offset.toNat + 1 < UInt64.size then
    let written := message.identified chronicle.ids.upcoming
    some {
      log := fun home =>
        if home = message.home then
          (chronicle.log home).fill message.offset written
        else chronicle.log home
      ids := if message.id.isNil then chronicle.ids.advance else chronicle.ids }
  else none

/-- Write messages in turn, up to the first that is refused. -/
def writeAll (chronicle : Chronicle) : List Message → Chronicle
  | [] => chronicle
  | message :: rest =>
      match chronicle.write? message with
      | some written => written.writeAll rest
      | none => chronicle

/-- The chronicle with one more operation. -/
def perform (chronicle : Chronicle) : Operation → Chronicle
  | .append message =>
      (chronicle.write?
        (message.moved (.ofNat (chronicle.next message.home)))).getD chronicle
  | .place message => (chronicle.write? message).getD chronicle
  | .replicate limits batch =>
      if limits.batchMessages.toNat < batch.length then chronicle
      else chronicle.writeAll batch
  | .rebuild => chronicle
  | .reopen ids => { chronicle with ids := ids }

/-- The chronicle with more operations, first one first. -/
def run (chronicle : Chronicle) (operations : List Operation) : Chronicle :=
  operations.foldl perform chronicle

end Chronicle

/-! ## Stores that a chronicle describes -/

/-- A sound store holds what the chronicle says and has the same supply of
ids. -/
structure Chronicle.Describes
    (chronicle : Chronicle)
    (store : Store) :
    Prop where
  sound : store.Sound
  record : ∀ home offset,
    record? store.keyspace home offset = (chronicle.log home).get? offset
  ids : store.ids = chronicle.ids

namespace Chronicle

variable {chronicle : Chronicle} {store : Store}

theorem Describes.start (ids : IdSource) :
    (Chronicle.start ids).Describes (.empty ids) :=
  ⟨.empty ids, fun _ _ => rfl, rfl⟩

theorem Describes.holds_iff
    (describes : chronicle.Describes store)
    {home : PartitionKey}
    {offset : Offset} :
    Holds store.keyspace home offset ↔
      ∃ message, (chronicle.log home).get? offset = some message := by
  rw [Sound.holds_iff describes.sound, describes.record]

/-- The chronicle has the ends that the store remembers. -/
theorem Describes.next_eq
    (describes : chronicle.Describes store)
    (home : PartitionKey) :
    chronicle.next home = (store.next home).toNat := by
  have ended := describes.sound.ended home
  rw [Store.next, Ends.next]
  unfold next
  cases final : (chronicle.log home).entries.getLast? with
  | none =>
      have nothing := List.getLast?_eq_none_iff.1 final
      cases known : store.ends.get? home with
      | none => rfl
      | some next =>
          rw [known] at ended
          obtain ⟨last, held, _⟩ := ended.exists_greatest
          obtain ⟨message, found⟩ := describes.holds_iff.1 held
          have inside := OrderedMap.mem_entries_iff.2 found
          rw [nothing] at inside
          exact absurd inside List.not_mem_nil
  | some entry =>
      obtain ⟨last, message⟩ := entry
      have inside : (last, message) ∈ (chronicle.log home).entries :=
        List.mem_of_getLast? final
      have held :=
        describes.holds_iff.2 ⟨message, OrderedMap.mem_entries_iff.1 inside⟩
      cases known : store.ends.get? home with
      | none =>
          rw [known] at ended
          exact absurd held (ended last)
      | some next =>
          rw [known] at ended
          obtain ⟨greatest, held', above, follows⟩ := ended.exists_greatest
          obtain ⟨message', found'⟩ := describes.holds_iff.1 held'
          have least : last ≤ greatest := above last held
          have same : greatest = last := by
            rcases OrderedMap.lt_or_eq_getLast final
              (OrderedMap.mem_entries_iff.2 found')
              with less | equal
            · exact absurd less (UInt64.not_lt.2 least)
            · exact congrArg Prod.fst equal
          rw [Option.getD_some, follows, same]

/-- A placed message is written to the chronicle too. -/
theorem Describes.place
    (describes : chronicle.Describes store)
    {message : Message}
    (free : ':' ∉ message.topic.toList)
    {outcome : Outcome}
    {after : Store}
    (done : store.place message = .ok (outcome, after)) :
    ∃ written, chronicle.write? message = some written ∧
      written.Describes after := by
  have allowed := describes.sound.place_succeeds_iff.1 ⟨_, done⟩
  obtain ⟨_, _, _, _, _, ids⟩ := Store.place_eq_ok_iff.1 done
  rw [write?, if_pos allowed]
  refine ⟨_, rfl, describes.sound.place free done, fun home offset => ?_, ?_⟩
  · rw [describes.sound.record?_place free done, describes.record,
      describes.ids]
    by_cases same : home = message.home
    · simp only [same, true_and, if_pos, OrderedMap.get?_fill]
    · simp only [same, false_and, if_false]
  · rw [ids, Store.idsAfter, describes.ids]

/-- A message that is not placed is not written either. -/
theorem Describes.write?_eq_none
    (describes : chronicle.Describes store)
    {message : Message}
    (refused : ∀ placed, store.place message ≠ .ok placed) :
    chronicle.write? message = none := by
  refine if_neg fun allowed => ?_
  obtain ⟨placed, done⟩ := describes.sound.place_succeeds_iff.2 allowed
  exact refused placed done

theorem Describes.placeAll
    {batch : List Message}
    (describes : chronicle.Describes store)
    (free : ∀ message ∈ batch, ':' ∉ message.topic.toList)
    (tally : Tally) :
    (chronicle.writeAll batch).Describes (store.placeAll tally batch).2 := by
  induction batch generalizing chronicle store tally with
  | nil => exact describes
  | cons message rest step =>
      unfold writeAll Store.placeAll
      cases done : store.place message with
      | error fault =>
          rw [describes.write?_eq_none
            fun placed again => by rw [done] at again; cases again]
          exact describes
      | ok placed =>
          obtain ⟨outcome, after⟩ := placed
          obtain ⟨written, wrote, describes'⟩ :=
            describes.place (free message List.mem_cons_self) done
          rw [wrote]
          exact step describes'
            (fun other inside => free other (List.mem_cons_of_mem _ inside)) _

/-- Every operation changes a store as it changes its chronicle. -/
theorem Describes.perform
    {history : History}
    (describes : chronicle.Describes history.store)
    {operation : Operation}
    (plain : operation.IsPlain) :
    (chronicle.perform operation).Describes
      (history.perform operation).store := by
  cases operation with
  | append message =>
      have free : ':' ∉ message.topic.toList :=
        plain message (by simp [Operation.messages])
      have movedFree : ':' ∉
          (message.moved (history.store.next message.home)).topic.toList :=
        free
      unfold Chronicle.perform History.perform
      dsimp only
      rw [describes.next_eq, UInt64.ofNat_toNat]
      split
      · rename_i stored store done
        obtain ⟨_, _, placed⟩ := describes.sound.append done
        obtain ⟨written, wrote, describes'⟩ := describes.place movedFree placed
        rw [wrote]
        exact describes'
      · rename_i fault refused
        rw [describes.write?_eq_none
          (describes.sound.place_of_append_error refused)]
        exact describes
  | place message =>
      have free : ':' ∉ message.topic.toList :=
        plain message (by simp [Operation.messages])
      unfold Chronicle.perform History.perform
      dsimp only
      split
      · rename_i outcome store done
        obtain ⟨written, wrote, describes'⟩ := describes.place free done
        rw [wrote]
        exact describes'
      · rename_i fault refused
        rw [describes.write?_eq_none
          fun placed again => by rw [refused] at again; cases again]
        exact describes
  | replicate limits batch =>
      unfold Chronicle.perform History.perform Replica.replicate
      dsimp only
      split
      · exact describes
      · exact describes.placeAll plain {}
  | rebuild =>
      unfold Chronicle.perform History.perform
      dsimp only
      rw [describes.sound.rebuild_eq]
      exact describes
  | reopen ids =>
      unfold Chronicle.perform History.perform
      dsimp only
      rw [describes.sound.reopened_eq]
      exact ⟨describes.sound, describes.record, rfl⟩

theorem Describes.run
    {operations : List Operation}
    {history : History}
    (describes : chronicle.Describes history.store)
    (plain : ∀ operation ∈ operations, operation.IsPlain) :
    (chronicle.run operations).Describes (history.run operations).store := by
  induction operations generalizing chronicle history with
  | nil => exact describes
  | cons operation rest step =>
      exact step (describes.perform (plain operation List.mem_cons_self))
        fun other inside => plain other (List.mem_cons_of_mem _ inside)

end Chronicle

end Log

end MessageBroker
