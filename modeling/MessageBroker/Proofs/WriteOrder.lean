import Mathlib.Data.Finset.Card
import Mathlib.Data.Finset.Image
import MessageBroker.Proofs.EndsCount
import MessageBroker.Proofs.LogPlacement
import MessageBroker.Replica

/-!
# The order of replicated writes

Messages reach a replica one by one or in batches, in different orders, and some
of them more than once.  None of that shows afterwards.  A set of messages in
which every place has one message settles a store: each free place holds its
message, each counter and each remembered end is the greatest of what it was and
of the ends after its partition's messages, and everything else is as before.
Placing one more message settles the store for one message more, whether or not
it was placed already, so a run is known by the set of its messages; and two
stores that are settled alike are the same store.

Nothing is asked of the store but that its counters can be read.
-/

namespace MessageBroker

namespace Record

theorem exists_ofCounter
    {value : Bytes}
    (eight : value.length = 8) :
    ∃ count, value = ofCounter count := by
  have small : Bytes.value value.reverse < UInt64.size := by
    have bound := Bytes.value_lt value.reverse
    rw [List.length_reverse, eight] at bound
    exact bound
  have written := Bytes.littleEndian_value value.reverse
  rw [List.length_reverse, eight] at written
  refine ⟨.ofNat (Bytes.bigEndianValue value), ?_⟩
  rw [ofCounter, Bytes.bigEndianValue, UInt64.toNat_ofNat_of_lt' small,
    Bytes.bigEndian, written, List.reverse_reverse]

end Record

/-- The partition and the offset of a message. -/
def Message.place (message : Message) : PartitionKey × Offset :=
  (message.home, message.offset)

/-- Messages that can be stored as they are, at most one for every place. -/
structure Replicable (messages : Finset Message) : Prop where
  fits : ∀ message ∈ messages, message.Fits
  named : ∀ message ∈ messages, message.id ≠ .nil
  room : ∀ message ∈ messages, message.offset.toNat + 1 < UInt64.size
  apart : ∀ first ∈ messages, ∀ second ∈ messages, first.place = second.place →
    first = second

namespace Log

/-- The counters of all partitions can be read. -/
def CountersRead (keyspace : Keyspace) : Prop :=
  ∀ home value, keyspace.get? (Key.nextOffset home).bytes = some value →
    value.length = 8

/-- The offsets after the messages of a partition. -/
def EndsOf
    (messages : Finset Message)
    (home : PartitionKey)
    (next : Offset) :
    Prop :=
  ∃ message ∈ messages, message.home = home ∧
    next.toNat = message.offset.toNat + 1

/-- The places of messages where nothing is stored. -/
def freePlaces
    (keyspace : Keyspace)
    (messages : Finset Message) :
    Finset (PartitionKey × Offset) :=
  (messages.image Message.place).filter fun place =>
    ¬ Holds keyspace place.1 place.2

theorem CountersRead.exists_counter
    {keyspace : Keyspace}
    (read : CountersRead keyspace)
    (home : PartitionKey) :
    ∃ end? : Option Offset, keyspace.get?
      (Key.nextOffset home).bytes = end?.map Record.ofCounter := by
  cases found : keyspace.get? (Key.nextOffset home).bytes with
  | none => exact ⟨none, rfl⟩
  | some value =>
      obtain ⟨next, rfl⟩ := Record.exists_ofCounter (read home value found)
      exact ⟨some next, rfl⟩

theorem Sound.countersRead
    {keyspace : Keyspace}
    {ends : Ends}
    (sound : Sound keyspace ends) :
    CountersRead keyspace := by
  intro home value found
  rw [sound.counter] at found
  obtain ⟨next, _, rfl⟩ := Option.map_eq_some_iff.1 found
  exact Bytes.length_bigEndian 8 _

/-- What placing a message does to every key, in any keyspace where its counter
can be read. -/
theorem place_eq_ok
    {keyspace : Keyspace}
    {message : Message}
    {value : Bytes}
    {next : Offset}
    {end? : Option Offset}
    (named : message.id ≠ .nil)
    (stored : Record.ofMessage message = .ok value)
    (follows : next.toNat = message.offset.toNat + 1)
    (counter : keyspace.get?
      (Key.nextOffset message.home).bytes = end?.map Record.ofCounter)
    (fresh : FreshId) :
    ∃ placed, place keyspace fresh message = .ok placed ∧
      placed.next = next ∧
      (placed.outcome = .applied ↔
        ¬ Holds keyspace message.home message.offset) ∧
      ∀ place, placed.keyspace.get? place =
        if place = (Key.nextOffset message.home).bytes then
          some (Record.ofCounter (Ends.raised end? next))
        else if place = (Key.message message.home message.offset).bytes then
          (keyspace.get? place).or (some value)
        else keyspace.get? place := by
  have stored' : Record.ofMessage (message.identified fresh) = .ok value := by
    rwa [Message.identified_eq_self named]
  have positive : 0 < next.toNat := follows ▸ Nat.succ_pos _
  refine ⟨_, place_succeeds stored' (nextOffset_of_counter counter _) follows,
    rfl, ?_,
    get?_written counter positive⟩
  dsimp only
  split <;> simp_all

end Log

namespace Store

/-! ## What a set of messages leaves behind -/

/-- A store as a set of messages leaves it, whatever their order. -/
structure Settled
    (before : Store)
    (messages : Finset Message)
    (after : Store) :
    Prop where
  record : ∀ home offset value,
    after.keyspace.get? (Key.message home offset).bytes = some value ↔
      before.keyspace.get? (Key.message home offset).bytes = some value ∨
        before.keyspace.get? (Key.message home offset).bytes = none ∧
          ∃ message ∈ messages, message.place = (home, offset) ∧
            Record.ofMessage message = .ok value
  counter : ∀ home, ∃ end? : Option Offset,
    after.keyspace.get?
      (Key.nextOffset home).bytes = end?.map Record.ofCounter ∧
    Ends.Greatest
      (fun next =>
        before.keyspace.get? (Key.nextOffset home).bytes =
          some (Record.ofCounter next) ∨
        Log.EndsOf messages home next) end?
  ended : ∀ home,
    Ends.Greatest
      (fun next =>
        before.ends.get? home = some next ∨ Log.EndsOf messages home next)
      (after.ends.get? home)
  others : ∀ place, (∀ home offset, place ≠ (Key.message home offset).bytes) →
    (∀ home, place ≠ (Key.nextOffset home).bytes) →
    after.keyspace.get? place = before.keyspace.get? place
  ids : after.ids = before.ids

variable {before store after : Store} {messages placed : Finset Message}

theorem Settled.refl (read : Log.CountersRead before.keyspace) :
    Settled before ∅ before where
  record home offset value := by simp
  counter home := by
    obtain ⟨end?, found⟩ := read.exists_counter home
    refine ⟨end?, found, (Ends.greatest_only end?).congr fun next => ?_⟩
    rw [found]
    constructor
    · rintro (same | ⟨message, inside, _⟩)
      · obtain ⟨other, rfl, counters⟩ := Option.map_eq_some_iff.1 same
        rw [Record.ofCounter_inj.1 counters]
      · simp at inside
    · rintro rfl
      exact .inl rfl
  ended home := by
    refine (Ends.greatest_only _).congr fun next => or_iff_left ?_
    rintro ⟨message, inside, _⟩
    simp at inside
  others _ _ _ := rfl
  ids := rfl

/-- Stores that are left by the same messages are the same. -/
theorem Settled.unique
    {first second : Store}
    (isFirst : Settled before messages first)
    (isSecond : Settled before messages second) :
    first = second := by
  have keyspaces : first.keyspace = second.keyspace := by
    apply OrderedMap.ext_get?
    intro place
    by_cases ofMessage : ∃ home offset, place = (Key.message home offset).bytes
    · obtain ⟨home, offset, rfl⟩ := ofMessage
      apply Option.ext
      intro value
      exact (isFirst.record home offset value).trans
        (isSecond.record home offset value).symm
    · by_cases ofCounter : ∃ home, place = (Key.nextOffset home).bytes
      · obtain ⟨home, rfl⟩ := ofCounter
        obtain ⟨_, found, greatest⟩ := isFirst.counter home
        obtain ⟨_, found', greatest'⟩ := isSecond.counter home
        rw [found, found', greatest.unique greatest']
      · push Not at ofMessage ofCounter
        rw [isFirst.others place ofMessage ofCounter,
          isSecond.others place ofMessage ofCounter]
  have ends : first.ends = second.ends := by
    apply OrderedMap.ext_get?
    intro home
    exact (isFirst.ended home).unique (isSecond.ended home)
  have ids : first.ids = second.ids := isFirst.ids.trans isSecond.ids.symm
  cases first
  cases second
  cases keyspaces
  cases ends
  cases ids
  rfl

/-- After the messages, a place is taken if it was before or is one of
theirs. -/
theorem Settled.holds_iff
    (settled : Settled before placed store)
    (replicable : Replicable messages)
    (part : placed ⊆ messages)
    (home : PartitionKey)
    (offset : Offset) :
    Log.Holds store.keyspace home offset ↔
      Log.Holds before.keyspace home offset ∨
      (home, offset) ∈ placed.image Message.place := by
  unfold Log.Holds
  rw [Option.isSome_iff_exists, Option.isSome_iff_exists, Finset.mem_image]
  constructor
  · rintro ⟨value, found⟩
    rcases (settled.record home offset value).1 found with old |
      ⟨_, message, inside, same, _⟩
    · exact .inl ⟨value, old⟩
    · exact .inr ⟨message, inside, same⟩
  · rintro (⟨value, old⟩ | ⟨message, inside, same⟩)
    · exact ⟨value, (settled.record home offset value).2 (.inl old)⟩
    · cases old : before.keyspace.get? (Key.message home offset).bytes with
      | some value =>
          exact ⟨value, (settled.record home offset value).2 (.inl old)⟩
      | none =>
          have stored : Record.ofMessage message = .ok _ :=
            Record.ofMessage_eq_ok_iff.2
              ⟨replicable.fits message (part inside), rfl⟩
          exact ⟨_,
            (settled.record home offset _).2
            (.inr ⟨old, message, inside, same, stored⟩)⟩

/-- The place of one more message holds what it held before, and otherwise that
message. -/
theorem Settled.record_insert
    (settled : Settled before placed store)
    (replicable : Replicable messages)
    (part : placed ⊆ messages)
    {message : Message}
    (inside : message ∈ messages)
    {value : Bytes}
    (stored : Record.ofMessage message = .ok value)
    (content : Bytes) :
    (store.keyspace.get? (Key.message message.home message.offset).bytes).or
          (some value) =
        some content ↔
      before.keyspace.get? (Key.message message.home message.offset).bytes =
        some content ∨
      before.keyspace.get? (Key.message message.home message.offset).bytes =
          none ∧
        ∃ other ∈ insert message placed,
          other.place = (message.home, message.offset) ∧
          Record.ofMessage other = .ok content := by
  have alone : ∀ other ∈ insert message placed,
      other.place = (message.home, message.offset) → other = message := by
    intro other mem same
    have known : other ∈ messages := Finset.insert_subset inside part mem
    exact replicable.apart other known message inside same
  cases old :
    before.keyspace.get? (Key.message message.home message.offset).bytes with
  | some first =>
      rw [(settled.record _ _ first).2 (.inl old), Option.some_or]
      simp
  | none =>
      have filled : (store.keyspace.get?
              (Key.message message.home message.offset).bytes).or (some value) =
          some value := by
        cases now : store.keyspace.get?
            (Key.message message.home message.offset).bytes with
        | none => rfl
        | some first =>
            rcases (settled.record _ _ first).1 now with again |
              ⟨_, other, mem, same, written⟩
            · rw [old] at again
              cases again
            · rw [alone other (Finset.mem_insert_of_mem mem) same, stored]
                at written
              cases written
              rfl
      rw [filled]
      constructor
      · rintro ⟨⟩
        exact .inr ⟨rfl, message, Finset.mem_insert_self _ _, rfl, stored⟩
      · rintro (again | ⟨_, other, mem, same, written⟩)
        · cases again
        · rw [alone other mem same, stored] at written
          cases written
          rfl

theorem endsOf_insert
    {message : Message}
    {home : PartitionKey}
    {next offset : Offset}
    (follows : next.toNat = message.offset.toNat + 1) :
    Log.EndsOf (insert message placed) home offset ↔
      Log.EndsOf placed home offset ∨ message.home = home ∧ offset = next := by
  unfold Log.EndsOf
  simp only [Finset.mem_insert, exists_eq_or_imp, ← UInt64.toNat_inj, follows]
  exact or_comm

/-- Placing one more message settles the store for one more, and says whether
its place was free. -/
theorem Settled.place
    (settled : Settled before placed store)
    (replicable : Replicable messages)
    (part : placed ⊆ messages)
    {message : Message}
    (inside : message ∈ messages) :
    ∃ outcome after, store.place message = .ok (outcome, after) ∧
      Settled before (insert message placed) after ∧
      (outcome = .applied ↔
        ¬ Log.Holds store.keyspace message.home message.offset) := by
  have named := replicable.named message inside
  obtain ⟨next, follows⟩ : ∃ next : Offset,
      next.toNat = message.offset.toNat + 1 := by
    have room := replicable.room message inside
    exact ⟨.ofNat (message.offset.toNat + 1), UInt64.toNat_ofNat_of_lt' room⟩
  obtain ⟨value, stored⟩ : ∃ value, Record.ofMessage message = .ok value :=
    ⟨_, Record.ofMessage_eq_ok_iff.2 ⟨replicable.fits message inside, rfl⟩⟩
  obtain ⟨end?, counter, greatest⟩ := settled.counter message.home
  obtain ⟨done, placing, nexts, outcome, found⟩ :=
    Log.place_eq_ok named stored follows counter store.ids.upcoming
  have ids : store.idsAfter message = store.ids := by
    simp [idsAfter, MessageId.isNil, named]
  refine ⟨done.outcome,
    ⟨done.keyspace, store.ends.raise message.home next, store.ids⟩,
    place_eq_ok_iff.2 ⟨done, placing, rfl, rfl, by rw [nexts], ids.symm⟩, ?_,
    outcome⟩
  constructor
  case record =>
      intro home offset content
      rw [found,
        if_neg (Key.message_bytes_ne_nextOffset home message.home offset)]
      by_cases here : message.place = (home, offset)
      · obtain ⟨rfl, rfl⟩ := Prod.mk.inj here
        rw [if_pos rfl]
        exact settled.record_insert replicable part inside stored content
      · have elsewhere : (Key.message home offset).bytes ≠
            (Key.message message.home message.offset).bytes := by
          intro same
          obtain ⟨homes, offsets⟩ := Key.message_bytes_inj.1 same
          exact here (by rw [homes, offsets]; rfl)
        rw [if_neg elsewhere, settled.record home offset content]
        simp only [Finset.mem_insert, exists_eq_or_imp, here, false_and,
          false_or]
  case counter =>
      intro home
      by_cases here : message.home = home
      · subst here
        refine ⟨some (Ends.raised end? next),
          by rw [found, if_pos rfl]; rfl, ?_⟩
        refine (greatest.raise next).congr fun offset => ?_
        rw [endsOf_insert follows, or_assoc]
        simp
      · obtain ⟨end?, counter, greatest⟩ := settled.counter home
        have elsewhere : (Key.nextOffset home).bytes ≠
            (Key.nextOffset message.home).bytes :=
          fun same => here (Key.nextOffset_bytes_inj.1 same).symm
        refine ⟨end?, ?_, greatest.congr fun offset => ?_⟩
        · rw [found, if_neg elsewhere,
            if_neg (Key.message_bytes_ne_nextOffset message.home home
              message.offset).symm, counter]
        · simp [endsOf_insert follows, here]
  case ended =>
      intro home
      have known := settled.ended home
      rw [Log.get?_raise]
      by_cases here : home = message.home
      · rw [if_pos here, ← here]
        refine (known.raise next).congr fun offset => ?_
        rw [endsOf_insert follows, or_assoc]
        simp [here]
      · rw [if_neg here]
        refine known.congr fun offset => ?_
        simp [endsOf_insert follows, Ne.symm here]
  case others =>
      intro place notMessage notCounter
      rw [found, if_neg (notCounter _), if_neg (notMessage _ _)]
      exact settled.others place notMessage notCounter
  case ids => exact settled.ids

/-! ## Runs -/

/-- One more message is one more free place if its place was free so far. -/
theorem card_freePlaces_insert
    (keyspace : Keyspace)
    (placed : Finset Message)
    (message : Message) :
    (Log.freePlaces keyspace (insert message placed)).card =
      (Log.freePlaces keyspace placed).card +
        if Log.Holds keyspace message.home message.offset ∨
            (message.home, message.offset) ∈ placed.image Message.place
        then 0 else 1 := by
  have place : message.place = (message.home, message.offset) := rfl
  unfold Log.freePlaces
  rw [Finset.image_insert, place, Finset.filter_insert]
  by_cases held : Log.Holds keyspace message.home message.offset
  · rw [if_neg (not_not_intro held), if_pos (.inl held)]
    rfl
  · rw [if_pos held]
    by_cases known : (message.home, message.offset) ∈ placed.image Message.place
    · rw [if_pos (.inr known),
        Finset.insert_eq_of_mem (Finset.mem_filter.2 ⟨known, held⟩)]
      rfl
    · rw [if_neg (not_or.2 ⟨held, known⟩), Finset.card_insert_of_notMem]
      exact fun again => known (Finset.mem_filter.1 again).1

/-- A run of messages settles the store for all of them and counts the places
that were free.  What is placed grows with every message, and the tally always
counts the free places of that. -/
theorem Settled.placeAll
    (replicable : Replicable messages)
    {rest : List Message}
    {tally : Tally}
    (settled : Settled before placed store)
    (part : placed ⊆ messages)
    (inside : ∀ message ∈ rest, message ∈ messages)
    (counted : tally.applied = (Log.freePlaces before.keyspace placed).card) :
    ∃ result after, store.placeAll tally rest = (.ok result, after) ∧
      Settled before (placed ∪ rest.toFinset) after ∧
      result.applied =
        (Log.freePlaces before.keyspace (placed ∪ rest.toFinset)).card := by
  induction rest generalizing store placed tally with
  | nil =>
      refine ⟨tally, store, rfl, ?_⟩
      simpa using ⟨settled, counted⟩
  | cons message rest step =>
      have known := inside message List.mem_cons_self
      obtain ⟨outcome, next, done, head, free⟩ :=
        settled.place replicable part known
      rw [settled.holds_iff replicable part] at free
      have counted' : (tally.add outcome).applied =
          (Log.freePlaces before.keyspace (insert message placed)).card := by
        rw [card_freePlaces_insert, ← counted]
        cases outcome with
        | applied => rw [if_neg (free.1 rfl)]; rfl
        | duplicate =>
            rw [if_pos (not_not.1 fun vacant => nomatch free.2 vacant)]; rfl
      obtain ⟨result, after, run, tail, total⟩ := step head
        (Finset.insert_subset known part)
        (fun other mem => inside other (List.mem_cons_of_mem _ mem)) counted'
      have together : insert message placed ∪ rest.toFinset =
          placed ∪ (message :: rest).toFinset := by
        rw [List.toFinset_cons, Finset.insert_union, Finset.union_insert]
      rw [together] at tail total
      refine ⟨result, after, ?_, tail, total⟩
      rw [Store.placeAll, done]
      exact run

end Store

end MessageBroker
