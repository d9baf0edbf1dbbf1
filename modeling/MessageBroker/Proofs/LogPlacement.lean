import MessageBroker.Proofs.LogState

/-!
# Placing and appending

Placing a message in a sound store leaves it sound.  The message is stored if
its offset was free, whatever was there stays, the end of its partition rises
past it, and nothing else changes.  Appending is placing at the end, where the
offset is free.
-/

namespace MessageBroker

namespace OrderedMap

variable {key value : Type} [LT key] [DecidableEq key] [DecidableLT key]
  [StrictOrder key]

/-- Give a key a value, unless it has one. -/
def fill
    (map : OrderedMap key value)
    (place : key)
    (content : value) :
    OrderedMap key value :=
  if (map.get? place).isSome then map else map.insert place content

theorem get?_fill
    (map : OrderedMap key value)
    (place : key)
    (content : value)
    (sought : key) :
    (map.fill place content).get? sought =
      if sought = place then (map.get? sought).or (some content)
      else map.get? sought := by
  unfold fill
  split
  · rename_i taken
    by_cases same : sought = place
    · obtain ⟨found, known⟩ := Option.isSome_iff_exists.1 taken
      rw [if_pos same, same, known, Option.some_or]
    · rw [if_neg same]
  · rename_i vacant
    rw [get?_insert]
    by_cases same : sought = place
    · rw [if_pos same, if_pos same, same,
        Option.not_isSome_iff_eq_none.1 vacant, Option.none_or]
    · rw [if_neg same, if_neg same]

end OrderedMap

namespace Message

@[simp]
theorem identified_home
    (message : Message)
    (fresh : FreshId) :
    (message.identified fresh).home = message.home := by
  unfold identified
  split <;> rfl

@[simp]
theorem identified_offset
    (message : Message)
    (fresh : FreshId) :
    (message.identified fresh).offset = message.offset := by
  unfold identified
  split <;> rfl

/-- The message at another offset. -/
def moved (message : Message) (offset : Offset) : Message :=
  { message with offset := offset }

theorem identified_moved
    (message : Message)
    (fresh : FreshId)
    (offset : Offset) :
    (message.moved offset).identified fresh =
      (message.identified fresh).moved offset := by
  unfold identified moved
  split <;> rfl

end Message

namespace Log

variable {keyspace : Keyspace} {ends : Ends}

/-- What placing a message writes: its record, unless there is one, and the
counter of its partition, if that rises. -/
def written
    (keyspace : Keyspace)
    (message : Message)
    (value : Bytes)
    (current next : Offset) :
    Keyspace :=
  let filled : Keyspace :=
    keyspace.fill (Key.message message.home message.offset).bytes value
  if current < next then filled.setCounter (.nextOffset message.home) next
  else filled

/-- Placing succeeds where the message can be recorded, the counter can be read
and an offset follows; the message is new where nothing was stored. -/
theorem place_eq_ok_iff
    {fresh : FreshId}
    {message : Message}
    {placed : Placed} :
    place keyspace fresh message = .ok placed ↔
      ∃ value current, Record.ofMessage (message.identified fresh) = .ok value ∧
        nextOffset keyspace "append_at_offset" message.home = .ok current ∧
        placed.next.toNat = message.offset.toNat + 1 ∧
        placed.outcome =
          (if Holds keyspace message.home message.offset then .duplicate
          else .applied) ∧
        placed.keyspace =
          written keyspace message value current placed.next := by
  unfold place
  simp only [Message.identified_home, Message.identified_offset]
  constructor
  · intro done
    obtain ⟨next, succeeds, done⟩ := bind_eq_ok_iff.1 done
    obtain ⟨value, stored, done⟩ := bind_eq_ok_iff.1 done
    obtain ⟨current, read, done⟩ := bind_eq_ok_iff.1 done
    cases done
    exact ⟨value, current, stored, read, successor_eq_ok_iff.1 succeeds,
      rfl, rfl⟩
  · rintro ⟨value, current, stored, read, follows, outcome, same⟩
    cases placed
    dsimp only at follows outcome same
    subst outcome same
    rw [successor_eq_ok_iff.2 follows, ok_bind, stored, ok_bind, read]
    rfl

theorem place_succeeds
    {fresh : FreshId}
    {message : Message}
    {value : Bytes}
    {current next : Offset}
    (stored : Record.ofMessage (message.identified fresh) = .ok value)
    (read : nextOffset keyspace "append_at_offset" message.home = .ok current)
    (follows : next.toNat = message.offset.toNat + 1) :
    place keyspace fresh message =
      .ok
        ⟨if Holds keyspace message.home message.offset then .duplicate
          else .applied, next, written keyspace message value current next⟩ :=
  place_eq_ok_iff.2 ⟨value, current, stored, read, follows, rfl, rfl⟩

/-- What is found where a message was placed: a counter that is not below the
one before, and a record that stays if there was one. -/
theorem get?_written
    {message : Message}
    {value : Bytes}
    {next : Offset}
    {end? : Option Offset}
    (counter : keyspace.get?
      (Key.nextOffset message.home).bytes = end?.map Record.ofCounter)
    (positive : 0 < next.toNat)
    (place : Bytes) :
    (written keyspace message value (end?.getD 0) next).get? place =
      if place = (Key.nextOffset message.home).bytes then
        some (Record.ofCounter (Ends.raised end? next))
      else if place = (Key.message message.home message.offset).bytes then
        (keyspace.get? place).or (some value)
      else keyspace.get? place := by
  have different :=
    Key.message_bytes_ne_nextOffset message.home message.home message.offset
  unfold written Ends.raised
  dsimp only
  split
  · rename_i rises
    rw [Keyspace.setCounter, OrderedMap.get?_insert, OrderedMap.get?_fill]
    cases end? with
    | none => rfl
    | some current =>
        rw [Option.getD_some] at rises
        simp only [if_pos rises]
  · rename_i stays
    rw [OrderedMap.get?_fill]
    by_cases same : place = (Key.nextOffset message.home).bytes
    · rw [if_pos same, if_neg (by rw [same]; exact different.symm), same,
        counter]
      cases end? with
      | none =>
          rw [Option.getD_none, UInt64.lt_iff_toNat_lt] at stays
          exact absurd positive stays
      | some current =>
          rw [Option.getD_some] at stays
          simp only [if_neg stays, Option.map_some]
    · rw [if_neg same]

theorem legible_written
    (legible : keyspace.Legible)
    {message : Message}
    (free : ':' ∉ message.topic.toList)
    (value : Bytes)
    (current next : Offset) :
    (written keyspace message value current next).Legible := by
  have homePlain : ':' ∉ message.home.topic.toList := free
  have filled : Keyspace.Legible
      (keyspace.fill (Key.message message.home message.offset).bytes
        value) := by
    unfold OrderedMap.fill
    split
    · exact legible
    · exact legible.insert (message_isPlain homePlain message.offset) _
  unfold written
  dsimp only
  split
  · exact filled.insert (nextOffset_isPlain homePlain) _
  · exact filled

/-- What placing a message does to every key. -/
theorem Sound.place_get?
    (sound : Sound keyspace ends)
    {fresh : FreshId}
    {message : Message}
    {placed : Placed}
    (free : ':' ∉ message.topic.toList)
    (done : place keyspace fresh message = .ok placed) :
    ∃ value, Record.ofMessage (message.identified fresh) = .ok value ∧
      placed.next.toNat = message.offset.toNat + 1 ∧
      (placed.outcome = .applied ↔
        ¬ Holds keyspace message.home message.offset) ∧
      placed.keyspace.Legible ∧
      ∀ key : Key, placed.keyspace.get? key.bytes =
        if key = .nextOffset message.home then
          ((ends.raise message.home placed.next).get? message.home).map
            Record.ofCounter
        else if key = .message message.home message.offset then
          some ((keyspace.get? key.bytes).getD value)
        else keyspace.get? key.bytes := by
  have homePlain : ':' ∉ message.home.topic.toList := free
  obtain ⟨value, current, stored, read, follows, outcome, same⟩ :=
    place_eq_ok_iff.1 done
  rw [sound.nextOffset_eq] at read
  cases read
  refine ⟨value, stored, follows, ?_, ?_, fun key => ?_⟩
  · rw [outcome]
    split <;> simp_all
  · rw [same]
    exact legible_written sound.legible free _ _ _
  · have positive : 0 < placed.next.toNat := follows ▸ Nat.succ_pos _
    rw [same, get?_written (sound.counter message.home) positive, get?_raise,
      if_pos rfl]
    by_cases counter : key = .nextOffset message.home
    · rw [if_pos (congrArg Key.bytes counter), if_pos counter, Option.map_some]
    · rw [if_neg fun bytes =>
        counter (Key.eq_of_bytes (nextOffset_isPlain homePlain) bytes),
        if_neg counter]
      by_cases record : key = .message message.home message.offset
      · rw [if_pos (congrArg Key.bytes record), if_pos record]
        cases keyspace.get? key.bytes <;> rfl
      · rw [if_neg fun bytes =>
          record (Key.eq_of_bytes (message_isPlain homePlain message.offset)
            bytes),
          if_neg record]

private theorem append_eq
    (keyspace : Keyspace)
    (fresh : FreshId)
    (message : Message) :
    append keyspace fresh message = do
      let offset ← nextOffset keyspace "append" (message.identified fresh).home
      let next ← successor (message.identified fresh).home offset
      let value ← Record.ofMessage ((message.identified fresh).moved offset)
      let stored : Keyspace :=
        keyspace.insert
          (Key.message (message.identified fresh).home offset).bytes value
      return ⟨(message.identified fresh).moved offset, next,
        stored.setCounter (.nextOffset (message.identified fresh).home) next⟩ :=
          rfl

/-- Appending is placing at the end. -/
theorem Sound.append_eq_place
    (sound : Sound keyspace ends)
    (fresh : FreshId)
    (message : Message) :
    append keyspace fresh message =
      (place keyspace fresh
          (message.moved ((ends.get? message.home).getD 0))).map
        fun placed =>
          ⟨(message.identified fresh).moved ((ends.get? message.home).getD 0),
            placed.next, placed.keyspace⟩ := by
  have home : ((message.identified fresh).moved
        ((ends.get? message.home).getD 0)).home =
      message.home :=
    Message.identified_home message fresh
  have offset : ((message.identified fresh).moved
        ((ends.get? message.home).getD 0)).offset =
      (ends.get? message.home).getD 0 :=
    rfl
  have vacant :
      ¬ Holds keyspace message.home ((ends.get? message.home).getD 0) := by
    intro held
    exact UInt64.lt_irrefl _ ((sound.ended message.home).lt_of_holds held)
  rw [append_eq]
  unfold place
  simp only [Message.identified_moved, Message.identified_home, home, offset,
    sound.nextOffset_eq, ok_bind]
  cases succeeds : successor message.home ((ends.get? message.home).getD 0) with
  | error fault => rfl
  | ok next =>
      have rises : (ends.get? message.home).getD 0 < next := by
        rw [UInt64.lt_iff_toNat_lt, successor_eq_ok_iff.1 succeeds]
        exact Nat.lt_succ_self _
      rw [ok_bind, ok_bind]
      cases stored :
        Record.ofMessage ((message.identified fresh).moved
          ((ends.get? message.home).getD 0)) with
      | error fault => rfl
      | ok value =>
          unfold Holds at vacant
          rw [ok_bind, ok_bind, if_pos rises, if_neg vacant, if_neg vacant]
          rfl

end Log

namespace Store

/-- The logs of a store are sound. -/
def Sound (store : Store) : Prop :=
  Log.Sound store.keyspace store.ends

theorem Sound.empty (ids : IdSource) : (Store.empty ids).Sound :=
  Log.Sound.empty

variable {store after : Store} {message : Message} {outcome : Log.Outcome}

theorem place_eq_ok_iff :
    store.place message = .ok (outcome, after) ↔
      ∃ placed,
        Log.place store.keyspace store.ids.upcoming message = .ok placed ∧
        outcome = placed.outcome ∧
        after.keyspace = placed.keyspace ∧
        after.ends = store.ends.raise message.home placed.next ∧
        after.ids = store.idsAfter message := by
  unfold place
  rw [bind_eq_ok_iff]
  constructor
  · rintro ⟨placed, done, same⟩
    cases same
    exact ⟨placed, done, rfl, rfl, rfl, rfl⟩
  · rintro ⟨placed, done, rfl, keyspace, ends, ids⟩
    refine ⟨placed, done, ?_⟩
    rw [← keyspace, ← ends, ← ids]
    rfl

/-- A message is placed exactly where its fields fit and an offset follows its
own. -/
theorem Sound.place_succeeds_iff (sound : store.Sound) :
    (∃ placed, store.place message = .ok placed) ↔
      message.Fits ∧ message.offset.toNat + 1 < UInt64.size := by
  constructor
  · rintro ⟨⟨outcome, after⟩, done⟩
    obtain ⟨placed, inner, _⟩ := place_eq_ok_iff.1 done
    obtain ⟨value, _, stored, _, follows, _⟩ := Log.place_eq_ok_iff.1 inner
    exact ⟨Message.fits_identified.1 (Record.ofMessage_eq_ok_iff.1 stored).1,
      follows ▸ placed.next.toNat_lt⟩
  · rintro ⟨fits, room⟩
    have done :=
      Log.place_succeeds (Record.ofMessage_identified fits store.ids.upcoming)
        (Log.Sound.nextOffset_eq sound _ message.home)
          (UInt64.toNat_ofNat_of_lt' room)
    exact ⟨⟨_, ⟨_, _, _⟩⟩, place_eq_ok_iff.2 ⟨_, done, rfl, rfl, rfl, rfl⟩⟩

/-- Appending fails only where placing at the end does. -/
theorem Sound.place_of_append_error
    (sound : store.Sound)
    {fault : Error}
    (refused : store.append message = .error fault) :
    ∀ placed,
      store.place (message.moved (store.next message.home)) ≠ .ok placed := by
  rintro ⟨outcome, after⟩ done
  obtain ⟨placed, inner, _⟩ := place_eq_ok_iff.1 done
  unfold Store.append at refused
  rw [Log.Sound.append_eq_place sound] at refused
  have same : store.next message.home = (store.ends.get? message.home).getD 0 :=
    rfl
  rw [← same, inner] at refused
  cases refused

/-- What a placed message is found as. -/
theorem Sound.record?_place
    (sound : store.Sound)
    (free : ':' ∉ message.topic.toList)
    (done : store.place message = .ok (outcome, after))
    (home : PartitionKey)
    (offset : Offset) :
    Log.record? after.keyspace home offset =
      if home = message.home ∧ offset = message.offset then
        (Log.record? store.keyspace home offset).or
          (some (message.identified store.ids.upcoming))
      else Log.record? store.keyspace home offset := by
  obtain ⟨placed, inner, _, keyspace, _⟩ := place_eq_ok_iff.1 done
  obtain ⟨value, stored, _, _, _, found⟩ :=
    Log.Sound.place_get? sound free inner
  rw [Log.record?, Log.record?, keyspace, found, if_neg (by simp)]
  simp only [Key.message.injEq]
  split
  · rename_i same
    obtain ⟨rfl, rfl⟩ := same
    cases before :
      store.keyspace.get? (Key.message message.home message.offset).bytes with
    | none =>
        simp only [Option.getD_none, Option.bind_some, Option.bind_none,
          Option.none_or, Record.toMessage_ofMessage stored]
        rfl
    | some content =>
        obtain ⟨message', stored', _⟩ := sound.stored _ _ _ before
        simp only [Option.getD_some, Option.bind_some,
          Record.toMessage_ofMessage stored']
        rfl
  · rfl

theorem Sound.holds_place
    (sound : store.Sound)
    (free : ':' ∉ message.topic.toList)
    (done : store.place message = .ok (outcome, after))
    (home : PartitionKey)
    (offset : Offset) :
    Log.Holds after.keyspace home offset ↔
      Log.Holds store.keyspace home offset ∨
      home = message.home ∧ offset = message.offset := by
  obtain ⟨placed, inner, _, keyspace, _⟩ := place_eq_ok_iff.1 done
  obtain ⟨value, _, _, _, _, found⟩ := Log.Sound.place_get? sound free inner
  rw [Log.Holds, Log.Holds, keyspace, found, if_neg (by simp)]
  simp only [Key.message.injEq]
  split
  · rename_i same
    simp [same]
  · rename_i other
    simp [other]

/-- A stored message is never overwritten. -/
theorem Sound.place_keeps
    (sound : store.Sound)
    (free : ':' ∉ message.topic.toList)
    (done : store.place message = .ok (outcome, after))
    {home : PartitionKey}
    {offset : Offset}
    {content : Bytes}
    (held : store.keyspace.get? (Key.message home offset).bytes =
      some content) :
    after.keyspace.get? (Key.message home offset).bytes = some content := by
  obtain ⟨placed, inner, _, keyspace, _⟩ := place_eq_ok_iff.1 done
  obtain ⟨value, _, _, _, _, found⟩ := Log.Sound.place_get? sound free inner
  rw [keyspace, found, if_neg (by simp), held, Option.getD_some, ite_self]

/-- Placing a message keeps a store sound. -/
theorem Sound.place
    (sound : store.Sound)
    (free : ':' ∉ message.topic.toList)
    (done : store.place message = .ok (outcome, after)) :
    after.Sound := by
  obtain ⟨placed, inner, _, keyspace, ends, _⟩ := place_eq_ok_iff.1 done
  obtain ⟨value, stored, follows, _, legible, found⟩ :=
    Log.Sound.place_get? sound free inner
  have raised := Log.get?_raise store.ends message.home placed.next
  constructor
  case legible =>
      rw [keyspace]
      exact legible
  case stored =>
      intro home offset content held
      rw [keyspace, found, if_neg (by simp)] at held
      simp only [Key.message.injEq] at held
      split at held
      · rename_i same
        obtain ⟨rfl, rfl⟩ := same
        cases before : store.keyspace.get?
            (Key.message message.home message.offset).bytes with
        | none =>
            rw [before, Option.getD_none, Option.some.injEq] at held
            subst held
            exact ⟨_, stored,
              by simp, by simp, Message.identified_id_ne_nil _ _⟩
        | some content' =>
            rw [before, Option.getD_some, Option.some.injEq] at held
            subst held
            exact sound.stored _ _ _ before
      · exact sound.stored _ _ _ held
  case counter =>
      intro home
      rw [keyspace, found, ends]
      simp only [Key.nextOffset.injEq]
      split
      · rename_i same
        rw [same]
      · rename_i other
        rw [if_neg (by simp), raised, if_neg other]
        exact sound.counter home
  case ended =>
      intro home
      by_cases same : home = message.home
      · subst same
        rw [ends]
        apply Log.EndsAt.raise (sound.ended message.home) follows
        intro other
        rw [sound.holds_place free done]
        simp
      · rw [ends, raised, if_neg same]
        apply (sound.ended home).congr
        intro offset
        rw [sound.holds_place free done]
        simp [same]

/-- An appended message is placed at the end of its partition, where nothing
was. -/
theorem Sound.append
    (sound : store.Sound)
    {stored : Message}
    (done : store.append message = .ok (stored, after)) :
    stored =
      (message.identified store.ids.upcoming).moved (store.next message.home) ∧
    ¬ Log.Holds store.keyspace message.home (store.next message.home) ∧
    store.place (message.moved (store.next message.home)) =
      .ok (.applied, after) := by
  have next : store.next message.home = (store.ends.get? message.home).getD 0 :=
    rfl
  have vacant :
      ¬ Log.Holds store.keyspace message.home (store.next message.home) := by
    intro held
    exact UInt64.lt_irrefl _ ((sound.ended message.home).lt_of_holds held)
  unfold Store.append at done
  rw [Log.Sound.append_eq_place sound] at done
  obtain ⟨appended, mapped, same⟩ := bind_eq_ok_iff.1 done
  obtain ⟨placed, inner, shown⟩ := map_eq_ok_iff.1 mapped
  subst shown
  cases same
  refine ⟨rfl, vacant, place_eq_ok_iff.2 ⟨placed, inner, ?_, rfl, rfl, rfl⟩⟩
  rw [← next] at inner
  obtain ⟨_, _, _, _, _, outcome, _⟩ := Log.place_eq_ok_iff.1 inner
  exact (outcome.trans (if_neg vacant)).symm

end Store

end MessageBroker
