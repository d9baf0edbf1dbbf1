import MessageBroker.Proofs.EndsCount
import MessageBroker.Proofs.LogPlacement
import MessageBroker.Replica

/-!
# How stores grow

Whatever a node does to its logs, no record is lost or changed.  A store grows
by a kind of message when it is sound afterwards, keeps every record, and has
new records only of that kind, each at its own place.  Growth composes, so it
passes from one placed message to a batch, and from there to whatever else
stores messages batch by batch.  Records of other kinds do not matter to it, and
a restart changes nothing.
-/

namespace MessageBroker.Store

/-- Nothing is lost, and every new record is of the given kind and at its own
place. -/
structure Grows (kind : Message → Prop) (before after : Store) : Prop where
  sound : after.Sound
  record : ∀ home offset,
    Log.record? after.keyspace home offset =
      Log.record? before.keyspace home offset ∨
    Log.record? before.keyspace home offset = none ∧
      ∃ message, kind message ∧
        message.home = home ∧
        message.offset = offset ∧
        Log.record? after.keyspace home offset = some message

variable {store middle after : Store} {kind : Message → Prop}

theorem Grows.refl (sound : store.Sound) : Grows kind store store :=
  ⟨sound, fun _ _ => .inl rfl⟩

theorem Grows.trans
    (first : Grows kind store middle)
    (second : Grows kind middle after) :
    Grows kind store after := by
  refine ⟨second.sound, fun home offset => ?_⟩
  rcases second.record home offset with same | ⟨vacant, added⟩
  · rw [same]
    exact first.record home offset
  · rcases first.record home offset with same | ⟨_, message, _, _, _, found⟩
    · exact .inr ⟨same ▸ vacant, added⟩
    · rw [found] at vacant
      cases vacant

theorem Grows.weaken
    {other : Message → Prop}
    (grows : Grows kind store after)
    (weaker : ∀ message, kind message → other message) :
    Grows other store after := by
  refine ⟨grows.sound, fun home offset => ?_⟩
  rcases grows.record home offset with same | ⟨vacant, message, allowed, placed⟩
  · exact .inl same
  · exact .inr ⟨vacant, message, weaker message allowed, placed⟩

/-- The supply of ids does not matter. -/
theorem Grows.withIds
    (grows : Grows kind store after)
    (ids : IdSource) :
    Grows kind store { after with ids := ids } :=
  ⟨grows.sound, grows.record⟩

/-- Records stay. -/
theorem Grows.keeps
    (grows : Grows kind store after)
    {home : PartitionKey}
    {offset : Offset}
    {message : Message}
    (found : Log.record? store.keyspace home offset = some message) :
    Log.record? after.keyspace home offset = some message := by
  rcases grows.record home offset with same | ⟨vacant, _⟩
  · rw [same, found]
  · rw [found] at vacant
    cases vacant

theorem Grows.contains
    (grows : Grows kind store after)
    {message : Message}
    (held : Log.Contains store.keyspace message) :
    Log.Contains after.keyspace message :=
  grows.keeps held

theorem Grows.holds
    (grows : Grows kind store after)
    (sound : store.Sound)
    {home : PartitionKey}
    {offset : Offset}
    (held : Log.Holds store.keyspace home offset) :
    Log.Holds after.keyspace home offset := by
  obtain ⟨message, found⟩ := (Log.Sound.holds_iff sound).1 held
  exact (Log.Sound.holds_iff grows.sound).2 ⟨message, grows.keeps found⟩

/-- A record is an old one or of the kind. -/
theorem Grows.old_or_new
    (grows : Grows kind store after)
    {home : PartitionKey}
    {offset : Offset}
    {message : Message}
    (found : Log.record? after.keyspace home offset = some message) :
    Log.record? store.keyspace home offset = some message ∨
    kind message ∧ message.home = home ∧ message.offset = offset := by
  rcases grows.record home offset with same |
    ⟨_, added, allowed, homes, offsets, found'⟩
  · exact .inl (same ▸ found)
  · rw [found] at found'
    cases found'
    exact .inr ⟨allowed, homes, offsets⟩

/-! ## Placing and appending -/

theorem Sound.grows_place
    (sound : store.Sound)
    {message : Message}
    {outcome : Log.Outcome}
    (free : ':' ∉ message.topic.toList)
    (done : store.place message = .ok (outcome, after)) :
    Grows (· = message.identified store.ids.upcoming) store after := by
  refine ⟨sound.place free done, fun home offset => ?_⟩
  rw [sound.record?_place free done]
  split
  · rename_i same
    cases before : Log.record? store.keyspace home offset with
    | some message' => exact .inl rfl
    | none =>
        refine .inr ⟨rfl, _, rfl, ?_, ?_, rfl⟩
        · rw [Message.identified_home, same.1]
        · rw [Message.identified_offset, same.2]
  · exact .inl rfl

theorem Sound.grows_append
    (sound : store.Sound)
    {message stored : Message}
    (free : ':' ∉ message.topic.toList)
    (done : store.append message = .ok (stored, after)) :
    Grows (· = stored) store after := by
  obtain ⟨rfl, _, placed⟩ := sound.append done
  have movedFree :
      ':' ∉ (message.moved (store.next message.home)).topic.toList :=
    free
  have grows := sound.grows_place movedFree placed
  rw [Message.identified_moved] at grows
  exact grows

/-- An appended message is found where it says it is. -/
theorem Sound.contains_append
    (sound : store.Sound)
    {message stored : Message}
    (free : ':' ∉ message.topic.toList)
    (done : store.append message = .ok (stored, after)) :
    stored.home = message.home ∧ Log.Contains after.keyspace stored := by
  obtain ⟨rfl, vacant, placed⟩ := sound.append done
  have movedFree :
      ':' ∉ (message.moved (store.next message.home)).topic.toList :=
    free
  have home : ((message.identified store.ids.upcoming).moved
        (store.next message.home)).home =
      message.home :=
    Message.identified_home message _
  have nothing :
      Log.record? store.keyspace message.home (store.next message.home) =
        none := by
    rw [Log.record?, Option.not_isSome_iff_eq_none.1 vacant, Option.bind_none]
  refine ⟨home, ?_⟩
  have found :=
    sound.record?_place movedFree placed message.home (store.next message.home)
  rw [if_pos ⟨rfl, rfl⟩, nothing, Option.none_or, Message.identified_moved]
    at found
  rw [Log.Contains, home]
  exact found

/-! ## Batches -/

/-- Messages as they are stored: those without an id get one. -/
def Named (batch : List Message) (stored : Message) : Prop :=
  ∃ message ∈ batch, ∃ fresh, stored = message.identified fresh

/-- Messages that have ids are stored as they are. -/
theorem Named.mem
    {batch : List Message}
    (own : ∀ message ∈ batch, message.id ≠ .nil)
    {stored : Message}
    (named : Named batch stored) :
    stored ∈ batch := by
  obtain ⟨message, inside, fresh, rfl⟩ := named
  rw [Message.identified_eq_self (own message inside)]
  exact inside

/-- A batch grows a store by its messages, whether or not all of them could be
stored. -/
theorem Sound.grows_placeAll
    {batch : List Message}
    (sound : store.Sound)
    (free : ∀ message ∈ batch, ':' ∉ message.topic.toList)
    (tally : Tally) :
    Grows (Named batch) store (store.placeAll tally batch).2 := by
  induction batch generalizing store tally with
  | nil => exact .refl sound
  | cons message rest step =>
      unfold placeAll
      cases done : store.place message with
      | error fault => exact .refl sound
      | ok placed =>
          obtain ⟨outcome, next⟩ := placed
          have head := sound.grows_place (free message List.mem_cons_self) done
          have others : ∀ other ∈ rest, ':' ∉ other.topic.toList :=
            fun other inside => free other (List.mem_cons_of_mem _ inside)
          have tail := step head.sound others (tally.add outcome)
          refine .trans (head.weaken ?_) (tail.weaken ?_)
          · rintro _ rfl
            exact ⟨message, List.mem_cons_self, _, rfl⟩
          · rintro _ ⟨other, inside, fresh, rfl⟩
            exact ⟨other, List.mem_cons_of_mem _ inside, fresh, rfl⟩

/-- After a batch that could be stored, every message of it has a record at its
place. -/
theorem Sound.holds_placeAll
    {batch : List Message}
    {tally result : Tally}
    (sound : store.Sound)
    (free : ∀ message ∈ batch, ':' ∉ message.topic.toList)
    (done : (store.placeAll tally batch).1 = .ok result)
    {message : Message}
    (inside : message ∈ batch) :
    Log.Holds (store.placeAll tally batch).2.keyspace message.home
      message.offset := by
  induction batch generalizing store tally with
  | nil => cases inside
  | cons head rest step =>
      unfold placeAll at done ⊢
      cases placed : store.place head with
      | error fault =>
          rw [placed] at done
          cases done
      | ok placed' =>
          obtain ⟨outcome, next⟩ := placed'
          rw [placed] at done
          have headFree := free head List.mem_cons_self
          have restFree : ∀ other ∈ rest, ':' ∉ other.topic.toList :=
            fun other inside => free other (List.mem_cons_of_mem _ inside)
          have nextSound := sound.place headFree placed
          rcases List.mem_cons.1 inside with rfl | inside
          · have held : Log.Holds next.keyspace message.home message.offset :=
              (sound.holds_place headFree placed _ _).2 (.inr ⟨rfl, rfl⟩)
            exact (nextSound.grows_placeAll restFree _).holds nextSound held
          · exact step nextSound restFree done inside

theorem Sound.grows_replicate
    {batch : List Message}
    (sound : store.Sound)
    (free : ∀ message ∈ batch, ':' ∉ message.topic.toList)
    (limits : Limits) :
    Grows (Named batch) store (Replica.replicate limits store batch).2 := by
  unfold Replica.replicate
  split
  · exact .refl sound
  · exact sound.grows_placeAll free {}

/-! ## Other records -/

/-- A keyspace that agrees with the store's on all messages and counters of logs
has its logs. -/
theorem Sound.grows_of_agree
    (sound : store.Sound)
    {keyspace : Keyspace}
    (legible : keyspace.Legible)
    (messages : ∀ home offset, keyspace.get? (Key.message home offset).bytes =
      store.keyspace.get? (Key.message home offset).bytes)
    (counters : ∀ home, keyspace.get? (Key.nextOffset home).bytes =
      store.keyspace.get? (Key.nextOffset home).bytes) :
    Grows kind store { store with keyspace := keyspace } := by
  refine ⟨⟨legible, ?_, ?_, ?_⟩, fun home offset => .inl ?_⟩
  · intro home offset value found
    exact sound.stored home offset value (messages home offset ▸ found)
  · intro home
    exact (counters home).trans (sound.counter home)
  · intro home
    apply (sound.ended home).congr
    intro offset
    rw [Log.Holds, messages, Log.Holds]
  · rw [Log.record?, messages, Log.record?]

/-! ## Restarts -/

theorem Sound.rebuild_forgetful (sound : store.Sound) :
    store.forgetful.rebuild = .ok store := by
  have counted : Ends.rebuild store.keyspace = .ok store.ends :=
    Log.Sound.rebuild sound
  simp only [rebuild, forgetful, counted, ok_bind]
  rfl

theorem Sound.rebuild_eq (sound : store.Sound) : store.rebuild = .ok store :=
  sound.rebuild_forgetful

/-- The store that is open after a restart; its ends stay forgotten where they
cannot be counted. -/
def reopened (store : Store) (ids : IdSource) : Store :=
  let closed := { store.forgetful with ids := ids }
  match closed.rebuild with
  | .ok store => store
  | .error _ => closed

/-- A restart loses nothing. -/
theorem Sound.reopened_eq
    (sound : store.Sound)
    (ids : IdSource) :
    store.reopened ids = { store with ids := ids } := by
  have counted : Ends.rebuild store.keyspace = .ok store.ends :=
    Log.Sound.rebuild sound
  simp only [reopened, rebuild, forgetful, counted, ok_bind]
  rfl

end MessageBroker.Store
