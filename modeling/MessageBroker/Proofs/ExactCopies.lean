import Mathlib.Order.Bounds.Basic
import MessageBroker.Proofs.Broadcasts
import MessageBroker.Proofs.Deliveries
import MessageBroker.Proofs.Holes
import MessageBroker.Proofs.LogHistory

/-!
# What a catch-up copies

A peer may cut its pages short in three ways: by the window that it was asked
for, by the count of messages that it sends and by the size of a frame.  None of
that shows in the end.  The next window starts right after the last message of a
page, so the pages of a catch-up lie end to end, and together they are all
records of the peer up to the first of its stops that has nothing in sight.  So
catching up is placing these records, one after the other, and nothing else.
-/

namespace MessageBroker

/-- The greatest of two kinds of offsets together. -/
theorem Ends.Greatest.join
    {first second : Offset → Prop}
    {found : Option Offset}
    {top : Offset}
    (isFirst : Greatest first found)
    (isSecond : Greatest second (some top)) :
    Greatest (fun offset => first offset ∨ second offset)
      (some (raised found top)) := by
  rcases isFirst.raise top with ⟨among, above⟩
  constructor
  · refine among.imp_right fun same => ?_
    rw [same]
    exact isSecond.1
  · rintro offset (one | other)
    · exact above offset (.inl one)
    · exact UInt64.le_trans (isSecond.2 offset other) (above top (.inr rfl))

/-! ## Placing what another store holds -/

namespace Store

variable {before store after source : Store}

/-- Messages that fit and leave room are placed, whatever is there already. -/
theorem Sound.placeAll_succeeds
    {batch : List Message}
    (sound : store.Sound)
    (free : ∀ message ∈ batch, ':' ∉ message.topic.toList)
    (fits : ∀ message ∈ batch, message.Fits)
    (room : ∀ message ∈ batch, message.offset.toNat + 1 < UInt64.size)
    (tally : Tally) :
    ∃ result after, store.placeAll tally batch = (.ok result, after) := by
  induction batch generalizing store tally with
  | nil => exact ⟨tally, store, rfl⟩
  | cons message rest step =>
      rcases sound.place_succeeds_iff.2
          ⟨fits message List.mem_cons_self,
            room message List.mem_cons_self⟩ with
        ⟨⟨outcome, next⟩, placed⟩
      rcases step (sound.place (free message List.mem_cons_self) placed)
          (fun other inside => free other (List.mem_cons_of_mem _ inside))
          (fun other inside => fits other (List.mem_cons_of_mem _ inside))
          (fun other inside => room other (List.mem_cons_of_mem _ inside))
          (tally.add outcome) with
        ⟨result, after, done⟩
      refine ⟨result, after, ?_⟩
      rw [placeAll, placed]
      exact done

/-- The records of a sound store can be placed in another. -/
theorem Sound.replicable_records
    (sound : source.Sound)
    (home : PartitionKey)
    (window : Log.Window) :
    Replicable (Log.records source.keyspace home window).toFinset := by
  have held : ∀ message ∈ (Log.records source.keyspace home window).toFinset,
      Log.Contains source.keyspace message := by
    intro message inside
    exact ((Log.Sound.mem_records_iff sound).1 (List.mem_toFinset.1 inside)).2.1
  constructor
  case fits => exact fun message inside => sound.fits (held message inside)
  case named =>
      exact fun message inside =>
        Log.Sound.id_ne_nil sound (held message inside)
  case room =>
      exact fun message inside => sound.room_after (held message inside)
  case apart =>
      intro first insideFirst second insideSecond same
      rcases Prod.mk.inj same with ⟨homes, offsets⟩
      have found : Log.record? source.keyspace first.home first.offset =
          some first :=
        held first insideFirst
      rw [homes, offsets] at found
      exact Option.some.inj (found.symm.trans (held second insideSecond))

variable {messages : Finset Message}

/-- The place of a message holds what it held before, and otherwise the
message. -/
theorem Settled.get?_place
    (settled : Settled before messages after)
    (replicable : Replicable messages)
    {message : Message}
    (inside : message ∈ messages)
    {value : Bytes}
    (stored : Record.ofMessage message = .ok value) :
    after.keyspace.get? (Key.message message.home message.offset).bytes =
      (before.keyspace.get? (Key.message message.home message.offset).bytes).or
        (some value) := by
  ext content
  rw [settled.record, Option.or_eq_some_iff]
  refine or_congr Iff.rfl (and_congr Iff.rfl ?_)
  constructor
  · rintro ⟨other, known, same, written⟩
    obtain rfl := replicable.apart other known message inside same
    exact congrArg some (Except.ok.inj (stored.symm.trans written))
  · rintro ⟨⟩
    exact ⟨message, inside, rfl, stored⟩

/-- Keys of other messages and other partitions keep what they had. -/
theorem Settled.get?_other
    (settled : Settled before messages after)
    (read : Log.CountersRead before.keyspace)
    {place : Bytes}
    (notMessage : ∀ message ∈ messages,
      place ≠ (Key.message message.home message.offset).bytes)
    (notCounter : ∀ message ∈ messages,
      place ≠ (Key.nextOffset message.home).bytes) :
    after.keyspace.get? place = before.keyspace.get? place := by
  by_cases ofMessage : ∃ home offset, place = (Key.message home offset).bytes
  · rcases ofMessage with ⟨home, offset, rfl⟩
    ext content
    rw [settled.record, or_iff_left]
    rintro ⟨_, message, inside, same, _⟩
    rcases Prod.mk.inj same with ⟨rfl, rfl⟩
    exact notMessage message inside rfl
  · by_cases ofCounter : ∃ home, place = (Key.nextOffset home).bytes
    · rcases ofCounter with ⟨home, rfl⟩
      rcases settled.counter home with ⟨end?, found, greatest⟩
      rcases read.exists_counter home with ⟨old?, old⟩
      have kept : Ends.Greatest (fun next => old? = some next) end? := by
        apply greatest.congr
        intro next
        rw [old, or_iff_left]
        · cases old? <;> simp [Record.ofCounter_inj]
        · rintro ⟨message, inside, rfl, _⟩
          exact notCounter message inside rfl
      rw [found, old, kept.unique (Ends.greatest_only old?)]
    · push Not at ofMessage ofCounter
      exact settled.others place ofMessage ofCounter

end Store

namespace CatchUp

variable {World : Type}

/-! ## Where a catch-up stops -/

/-- A catch-up may stop where it starts, and right after each record that it is
to copy. -/
def Rests
    (theirs : Keyspace)
    (home : PartitionKey)
    (window : Log.Window)
    (rest : Offset) :
    Prop :=
  rest = window.start ∨
  ∃ offset, Log.Holds theirs home offset ∧ window.Spans offset ∧
    rest.toNat = offset.toNat + 1

/-- The offsets where a catch-up may stop and has nothing in sight. -/
def stops
    (theirs : Keyspace)
    (home : PartitionKey)
    (size : UInt64)
    (window : Log.Window) :
    Set Offset :=
  {rest | Rests theirs home window rest ∧
    Clear theirs home size window.stop rest}

/-- A peer answers every window with a front of what a keyspace has in it, and
with nothing only where the keyspace has nothing. -/
def Serves (peer : Peer World) (world : World) (theirs : Keyspace) : Prop :=
  ∀ home window, ∃ page, peer.range home window world = (.ok page, world) ∧
    page <+: Log.records theirs home window ∧
    (page = [] → Log.records theirs home window = [])

variable {theirs : Keyspace} {ends : MessageBroker.Ends} {home : PartitionKey}
  {size : UInt64}

/-- What such a peer answers. -/
theorem Serves.page
    {peer : Peer World}
    {world world' : World}
    (serves : Serves peer world theirs)
    {window : Log.Window}
    {page : List Message}
    (answer : peer.range home window world = (.ok page, world')) :
    world' = world ∧
    page <+: Log.records theirs home window ∧
    (page = [] → Log.records theirs home window = []) := by
  rcases serves home window with ⟨page', served, front, nothing⟩
  rw [answer] at served
  cases served
  exact ⟨rfl, front, nothing⟩

theorem Rests.start_le
    {window : Log.Window}
    {rest : Offset}
    (rests : Rests theirs home window rest) :
    window.start ≤ rest := by
  rcases rests with rfl | ⟨offset, _, ⟨least, _⟩, follows⟩
  · exact UInt64.le_refl _
  · rw [UInt64.le_iff_toNat_le] at least ⊢
    omega

/-- A page of records can be placed. -/
theorem placeAll_succeeds
    {source store : Store}
    (theirs : source.Sound)
    {window : Log.Window}
    {page : List Message}
    (front : page <+: Log.records source.keyspace home window)
    (sound : store.Sound) :
    ∃ tally after, store.placeAll {} page = (.ok tally, after) := by
  have held : ∀ message ∈ page, Log.Contains source.keyspace message :=
    fun message inside => (from_of_mem_page theirs front inside).2.1
  exact sound.placeAll_succeeds
    (fun message inside =>
      Log.Sound.free_of_record theirs (held message inside))
    (fun message inside => theirs.fits (held message inside))
    (fun message inside => theirs.room_after (held message inside)) {}

/-- With nothing in sight, a catch-up stops where it is. -/
theorem isLeast_start
    {window : Log.Window}
    (clear : Clear theirs home size window.stop window.start) :
    IsLeast (stops theirs home size window) window.start :=
  ⟨⟨.inl rfl, clear⟩, fun _ stop => stop.1.start_le⟩

/-- The messages of a page come before where the next window starts. -/
theorem lt_of_mem_page
    (source : Log.Sound theirs ends)
    {window : Log.Window}
    {page : List Message}
    (front : page <+: Log.records theirs home window)
    {next : Offset}
    (further : nextCursor? window.start page = some next)
    {message : Message}
    (inside : message ∈ page) :
    message.offset < next := by
  rcases Option.filter_eq_some_iff.1 further with ⟨follows, _⟩
  rcases Option.bind_eq_some_iff.1 follows with ⟨last, final, after⟩
  have under := Offset.lt_of_next? after
  have ordered := (source.records_ordered home window).sublist front.sublist
  rcases List.getLast?_eq_some_iff.1 final with ⟨earlier, rfl⟩
  rcases List.mem_append.1 inside with before | same
  · have less :=
      (List.pairwise_append.1 ordered).2.2 message before last
        List.mem_cons_self
    exact UInt64.lt_trans less under
  · rw [List.mem_singleton.1 same]
    exact under

/-- Only a page without messages leads no further. -/
theorem eq_nil_of_nextCursor?
    (source : Log.Sound theirs ends)
    {window : Log.Window}
    {page : List Message}
    (front : page <+: Log.records theirs home window)
    (last : nextCursor? window.start page = none) :
    page = [] := by
  apply Classical.byContradiction
  intro some
  rcases nextCursor?_page source front some with ⟨next, further, _⟩
  rw [last] at further
  cases further

/-- What a page brings is all records up to where the next window starts. -/
theorem page_eq_records
    (source : Log.Sound theirs ends)
    {window : Log.Window}
    {page : List Message}
    (front : page <+: Log.records theirs home window)
    {next : Offset}
    (further : nextCursor? window.start page = some next) :
    page = Log.records theirs home ⟨window.start, some next⟩ := by
  have some : page ≠ [] := by
    rintro rfl
    cases further
  rcases nextCursor?_page source front some with ⟨next', further', complete⟩
  obtain rfl := Option.some.inj (further.symm.trans further')
  apply source.eq_records
  · exact (source.records_ordered home window).sublist front.sublist
  · intro message
    rw [source.mem_records_iff]
    constructor
    · intro inside
      rcases from_of_mem_page source front inside with ⟨homes, held, least⟩
      refine ⟨homes, held, least, ?_⟩
      rintro _ ⟨⟩
      exact lt_of_mem_page source front further inside
    · rintro ⟨homes, held, least, below⟩
      exact complete message ⟨homes, held, least⟩ (below next rfl)

/-- Where a catch-up stops after a page, it stops all in all: a stop within the
page has the last message of the page in sight. -/
theorem isLeast_of_page
    (source : Log.Sound theirs ends)
    {stop : Option Offset}
    {cursor : Offset}
    {window : Log.Window}
    (asked : nextWindow? size stop cursor = some window)
    {page : List Message}
    (front : page <+: Log.records theirs home window)
    {next : Offset}
    (further : nextCursor? cursor page = some next)
    {finish : Offset}
    (least : IsLeast (stops theirs home size ⟨next, stop⟩) finish) :
    IsLeast (stops theirs home size ⟨cursor, stop⟩) finish := by
  have rises := lt_of_nextCursor? further
  rcases exists_last_of_nextCursor? further with ⟨last, inside, follows⟩
  rcases source.mem_records_iff.1 (front.subset inside) with ⟨rfl, held, within⟩
  rcases (spans_of_nextWindow? asked _).1 within with ⟨spans, near⟩
  have holds := source.holds_iff.2 ⟨_, held⟩
  rcases least with ⟨⟨rests, clear⟩, lower⟩
  constructor
  · refine ⟨?_, clear⟩
    rcases rests with rfl | ⟨offset, held', ⟨from', below⟩, after⟩
    · exact .inr ⟨last.offset, holds, spans, follows⟩
    · have later := UInt64.le_of_lt (UInt64.lt_of_lt_of_le rises from')
      exact .inr ⟨offset, held', ⟨later, below⟩, after⟩
  · rintro rest ⟨rests', clear'⟩
    have atLeast := rests'.start_le
    by_cases early : rest < next
    · rw [UInt64.lt_iff_toNat_lt] at early
      have ahead : rest ≤ last.offset := by
        rw [UInt64.le_iff_toNat_le]
        omega
      have far := clear' last.offset holds ⟨ahead, spans.2⟩
      rw [UInt64.lt_iff_toNat_lt, Offset.toNat_advance] at near
      rw [UInt64.le_iff_toNat_le] at atLeast
      dsimp only at atLeast
      omega
    · apply lower
      refine ⟨?_, clear'⟩
      rcases rests' with rfl | ⟨offset, held', ⟨_, below⟩, after⟩
      · exact absurd rises early
      · by_cases same : rest = next
        · exact .inl same
        · refine .inr ⟨offset, held', ⟨?_, below⟩, after⟩
          rw [UInt64.lt_iff_toNat_lt] at early
          rw [← UInt64.toNat_inj] at same
          rw [UInt64.le_iff_toNat_le]
          dsimp only
          omega

/-! ## All pages -/

theorem add_append
    (report : Report)
    (page rest : List Message)
    (tally more : Tally) :
    report.add (page ++ rest) (tally.plus more) =
      (report.add page tally).add rest more := by
  simp [Report.add, Tally.plus, Nat.add_assoc]

/-- A catch-up with nothing in sight has placed all records up to where it
is. -/
theorem stopped_of_ends
    {source : Store}
    (theirs : source.Sound)
    {stop : Option Offset}
    {cursor : Offset}
    (ended : Ends source.keyspace home size stop cursor)
    (report : Report)
    (store : Store)
    (world : World) :
    ∃ finish tally after,
      IsLeast (stops source.keyspace home size ⟨cursor, stop⟩) finish ∧
      store.placeAll {}
          (Log.records source.keyspace home ⟨cursor, some finish⟩) =
        (.ok tally, after) ∧
      ((.ok report, store, world) : Except Error Report × Store × World) =
        (.ok
            (report.add (Log.records source.keyspace home ⟨cursor, some finish⟩)
              tally), after, world) := by
  refine ⟨cursor, {}, store, isLeast_start ((ends_iff_clear theirs).1 ended),
    ?_, ?_⟩
  · rw [Log.Sound.records_self theirs]
    rfl
  · rw [Log.Sound.records_self theirs]
    rfl

/-- A catch-up places, one after the other, all records of the peer up to where
it stops. -/
theorem resume_eq
    {peer : Peer World}
    {world : World}
    {source : Store}
    (serves : Serves peer world source.keyspace)
    (theirs : source.Sound)
    (size : UInt64)
    (home : PartitionKey)
    (stop : Option Offset)
    (cursor : Offset)
    (report : Report)
    {store : Store}
    (sound : store.Sound) :
    ∃ finish tally after,
      IsLeast (stops source.keyspace home size ⟨cursor, stop⟩) finish ∧
      store.placeAll {}
          (Log.records source.keyspace home ⟨cursor, some finish⟩) =
        (.ok tally, after) ∧
      resume peer size home stop cursor report store world =
        (.ok
            (report.add (Log.records source.keyspace home ⟨cursor, some finish⟩)
              tally), after, world) := by
  fun_induction resume peer size home stop cursor report store world with
  | case1 cursor report store world last =>
      apply stopped_of_ends theirs
      intro window asked
      rw [last] at asked
      cases asked
  | case2 cursor report store world window asked fault world' answer =>
      rcases serves home window with ⟨page, served, _⟩
      rw [answer] at served
      cases served
  | case3 cursor report store world window asked page world' answer fault store'
      placed =>
      rcases serves.page answer with ⟨_, front, _⟩
      rcases placeAll_succeeds theirs front sound with ⟨tally, after, done⟩
      rw [placed] at done
      cases done
  | case4 cursor report store world window asked page world' answer tally store'
    placed report'
      last =>
      rcases serves.page answer with ⟨rfl, front, nothing⟩
      rcases start_nextWindow? asked with rfl
      rcases eq_nil_of_nextCursor? theirs front last with rfl
      cases placed
      apply stopped_of_ends theirs
      intro window' asked'
      obtain rfl := Option.some.inj (asked.symm.trans asked')
      exact nothing rfl
  | case5 cursor report store world window asked page world' answer tally store'
    placed report'
      next further step =>
      rcases serves.page answer with ⟨rfl, front, _⟩
      rcases start_nextWindow? asked with rfl
      have grown := grows_page theirs front sound
      rw [placed] at grown
      rcases step serves grown.sound with
        ⟨finish, more, after, least, done, result⟩
      have whole :
          Log.records source.keyspace home ⟨window.start, some finish⟩ =
            page ++ Log.records source.keyspace home ⟨next, some finish⟩ := by
        rw [Log.Sound.records_split theirs
          (UInt64.le_of_lt (lt_of_nextCursor? further))
          least.1.1.start_le, ← page_eq_records theirs front further]
      have counted : store'.placeAll tally
            (Log.records source.keyspace home ⟨next, some finish⟩) =
          (.ok (tally.plus more), after) := by
        have sum := Store.placeAll_plus tally {} store'
          (Log.records source.keyspace home ⟨next, some finish⟩)
        rw [done] at sum
        exact sum
      refine ⟨finish, tally.plus more, after,
        isLeast_of_page theirs asked front further least, ?_, ?_⟩
      · rw [whole, Store.placeAll_append, placed]
        exact counted
      · rw [whole, add_append]
        exact result

/-! ## Exact copies -/

/-- A store after the records of a partition between two offsets were copied to
all places that were free. -/
structure Copied
    (theirs : Keyspace)
    (home : PartitionKey)
    (start finish : Offset)
    (before after : Store) :
    Prop where
  record : ∀ offset, start ≤ offset → offset < finish →
    after.keyspace.get? (Key.message home offset).bytes =
      (before.keyspace.get? (Key.message home offset).bytes).or
        (theirs.get? (Key.message home offset).bytes)
  other : ∀ place, place ≠ (Key.nextOffset home).bytes →
    (∀ offset, start ≤ offset → offset < finish →
      place ≠ (Key.message home offset).bytes) →
    after.keyspace.get? place = before.keyspace.get? place
  counter : after.keyspace.get? (Key.nextOffset home).bytes =
    (after.ends.get? home).map Record.ofCounter
  ended : after.ends.get? home =
    if Log.records theirs home ⟨start, some finish⟩ = [] then
      before.ends.get? home
    else some (Ends.raised (before.ends.get? home) finish)
  elsewhere : ∀ other, other ≠ home →
    after.ends.get? other = before.ends.get? other
  ids : after.ids = before.ids

/-- Where there are records up to a stop, the stop is right after the last of
them. -/
theorem greatest_endsOf
    (source : Log.Sound theirs ends)
    {window : Log.Window}
    {finish : Offset}
    (rests : Rests theirs home window finish)
    (some : Log.records theirs home ⟨window.start, .some finish⟩ ≠ []) :
    MessageBroker.Ends.Greatest
      (Log.EndsOf
        (Log.records theirs home ⟨window.start, .some finish⟩).toFinset home)
      (.some finish) := by
  constructor
  · rcases rests with rfl | ⟨offset, held, ⟨least, _⟩, follows⟩
    · exact absurd (source.records_self window.start) some
    · rcases source.holds_iff.1 held with ⟨message, found⟩
      rcases source.contains_of_record found with ⟨contained, homes, rfl⟩
      have below : message.offset < finish := by
        rw [UInt64.lt_iff_toNat_lt]
        omega
      refine ⟨message,
        List.mem_toFinset.2
          (source.mem_records_iff.2 ⟨homes, contained, least, ?_⟩),
        homes, follows⟩
      rintro _ ⟨⟩
      exact below
  · rintro next ⟨message, inside, _, follows⟩
    rcases source.mem_records_iff.1 (List.mem_toFinset.1 inside) with
      ⟨_, _, _, below⟩
    have under := below finish rfl
    rw [UInt64.lt_iff_toNat_lt] at under
    rw [UInt64.le_iff_toNat_le]
    omega

/-- Placed records settle a store. -/
theorem settled_of_placeAll
    {before after source : Store}
    (sound : before.Sound)
    (theirs : source.Sound)
    {window : Log.Window}
    {tally : Tally}
    (done : before.placeAll {} (Log.records source.keyspace home window) =
      (.ok tally, after)) :
    Store.Settled before (Log.records source.keyspace home window).toFinset
      after := by
  have nothing : Tally.applied {} = (Log.freePlaces before.keyspace ∅).card :=
    rfl
  rcases (Store.Settled.refl (Log.Sound.countersRead sound)).placeAll
      (theirs.replicable_records home window) (Finset.empty_subset _)
      (fun message inside => List.mem_toFinset.2 inside) nothing with
    ⟨result, after', done', settled, _⟩
  rw [done] at done'
  cases done'
  rwa [Finset.empty_union] at settled

/-- Placing the records of a partition up to a stop copies them. -/
theorem copied_of_placeAll
    {before after source : Store}
    (sound : before.Sound)
    (theirs : source.Sound)
    {window : Log.Window}
    {finish : Offset}
    {tally : Tally}
    (rests : Rests source.keyspace home window finish)
    (done : before.placeAll {}
        (Log.records source.keyspace home ⟨window.start, some finish⟩) =
      (.ok tally, after)) :
    Copied source.keyspace home window.start finish before after := by
  have settled := settled_of_placeAll sound theirs done
  have replicable := theirs.replicable_records home ⟨window.start, some finish⟩
  have read := Log.Sound.countersRead sound
  have within : ∀ message, message ∈
      (Log.records source.keyspace home ⟨window.start, some finish⟩).toFinset ↔
        message.home = home ∧ Log.Contains source.keyspace message ∧
          window.start ≤ message.offset ∧ message.offset < finish := by
    intro message
    rw [List.mem_toFinset, Log.Sound.mem_records_iff theirs]
    simp [Log.Window.Spans]
  constructor
  case record =>
      intro offset least below
      cases found : source.keyspace.get? (Key.message home offset).bytes with
      | some value =>
          rcases theirs.stored home offset value found with
            ⟨message, stored, rfl, rfl, named⟩
          have contained : Log.Contains source.keyspace message :=
            (Log.Sound.record_iff theirs).2 ⟨value, found, stored, rfl, rfl,
              named⟩
          exact settled.get?_place replicable
            ((within message).2 ⟨rfl, contained, least, below⟩) stored
      | none =>
          rw [Option.or_none]
          apply settled.get?_other read
          · intro message inside same
            rcases (within message).1 inside with ⟨_, contained, _⟩
            rcases Key.message_bytes_inj.1 same with ⟨rfl, rfl⟩
            rcases (Log.Sound.record_iff theirs).1 contained with
              ⟨value, found', _⟩
            rw [found] at found'
            cases found'
          · intro message _
            exact Key.message_bytes_ne_nextOffset home message.home offset
  case other =>
      intro place notCounter notMessage
      apply settled.get?_other read
      · intro message inside
        rcases (within message).1 inside with ⟨rfl, _, least, below⟩
        exact notMessage message.offset least below
      · intro message inside
        rcases (within message).1 inside with ⟨rfl, _⟩
        exact notCounter
  case counter =>
      have grown := grows_page theirs (List.prefix_refl
        (Log.records source.keyspace home ⟨window.start, some finish⟩)) sound
      rw [done] at grown
      exact grown.sound.counter home
  case ended =>
      have greatest := settled.ended home
      split
      · rename_i none
        rw [none] at greatest
        apply greatest.unique
        apply (MessageBroker.Ends.greatest_only _).congr
        intro next
        simp [Log.EndsOf]
      · rename_i some
        apply greatest.unique
        exact (MessageBroker.Ends.greatest_only _).join
          (greatest_endsOf theirs rests some)
  case elsewhere =>
      intro other different
      apply (settled.ended other).unique
      apply (MessageBroker.Ends.greatest_only _).congr
      intro next
      rw [or_iff_left]
      rintro ⟨message, inside, rfl, _⟩
      exact different ((within message).1 inside).1
  case ids => exact settled.ids

/-- A peer that answers every window with all that a keyspace has in it. -/
def shown (theirs : Keyspace) : Peer Unit where
  id := "shown"
  replicate _ world := (.error (.timedOut "shown" ⟨0⟩), world)
  range home window world := (.ok (Log.records theirs home window), world)
  ping world := (.ok (), world)

theorem serves_shown (theirs : Keyspace) : Serves (shown theirs) () theirs :=
  fun home window =>
    ⟨Log.records theirs home window, rfl, List.prefix_refl _, id⟩

end CatchUp

/-- A node that can be reached and may send messages answers every window. -/
theorem Fleet.peer_serves
    {fleet : Fleet}
    {node : Node}
    (known : fleet.node? node.id = some node)
    (reachable : node.isCutOff = false)
    (positive : 0 < node.limits.rangeMessages.toNat)
    (sound : node.store.Sound) :
    CatchUp.Serves (peer node.id) fleet node.store.keyspace := by
  intro home window
  rcases Replica.range_eq sound positive home window with
    ⟨page, done, front, nothing⟩
  refine ⟨page, ?_, front, nothing⟩
  show Fleet.range node.id home window fleet = (.ok page, fleet)
  simp only [Fleet.range, Fleet.reach, known, reachable, Bool.false_eq_true,
    if_false, done, reported]

namespace CatchUp

/-- Catching up on a window of a partition, from a node that may send at least
one message at a time, succeeds and copies the records of that node from the
start of the window up to the first stop that has nothing in sight, and nothing
else.  How many messages and how many bytes the node may send at a time does not
matter.  Where that node has no gap of a whole page below its end, all of its
records in the window are copied. -/
theorem run_copies_exactly
    (ids ids' : IdSource)
    (ours theirs : List Log.Operation)
    (plainOurs : ∀ operation ∈ ours, operation.IsPlain)
    (plainTheirs : ∀ operation ∈ theirs, operation.IsPlain)
    (size : UInt64)
    (home : PartitionKey)
    (window : Log.Window) :
    let store := ((Log.History.start ids).run ours).store
    let source := ((Log.History.start ids').run theirs).store
    ∃ finish report after,
      IsLeast (stops source.keyspace home size window) finish ∧
      Copied source.keyspace home window.start finish store after ∧
      report.fetched =
        (Log.records source.keyspace home ⟨window.start, some finish⟩).length ∧
      report.applied + report.duplicates = report.fetched ∧
      ((∀ start : Offset, start.toNat + size.toNat ≤ (source.next home).toNat →
          ∃ offset, Log.Holds source.keyspace home offset ∧
            start ≤ offset ∧
            offset.toNat < start.toNat + size.toNat) →
        ∀ offset, window.Spans offset → Log.Holds source.keyspace home offset →
          after.keyspace.get? (Key.message home offset).bytes =
            (store.keyspace.get? (Key.message home offset).bytes).or
              (source.keyspace.get? (Key.message home offset).bytes)) ∧
      ∀ (fleet : Fleet) (node : Fleet.Node) (fanout : Fanout Fleet),
        fleet.node? node.id = some node → node.isCutOff = false →
        node.store = source → 1 ≤ node.limits.rangeMessages.toNat →
        fanout.peer? node.id = some (Fleet.peer node.id) → fanout.page = size →
        run fanout node.id home window store fleet =
          (.ok report, after, fleet) := by
  intro store source
  have sound : store.Sound :=
    ((Log.History.Sound.start ids).run plainOurs).store
  have sourceSound : source.Sound :=
    ((Log.History.Sound.start ids').run plainTheirs).store
  obtain ⟨start, stop⟩ := window
  rcases resume_eq (serves_shown source.keyspace) sourceSound size home stop
      start {} sound with
    ⟨finish, tally, after, least, done, _⟩
  have copied := copied_of_placeAll sound sourceSound least.1.1 done
  refine ⟨finish,
    Report.add {} (Log.records source.keyspace home ⟨start, some finish⟩) tally,
    after, least, copied, ?_, ?_, ?_, ?_⟩
  · exact Nat.zero_add _
  · have counted := Store.sum_placeAll done
    simpa [Report.add] using counted
  · intro dense offset spans held
    apply copied.record offset spans.1
    apply UInt64.not_le.1
    intro beyond
    have far := least.1.2 offset held ⟨beyond, spans.2⟩
    have under :=
      UInt64.lt_iff_toNat_lt.1 ((sourceSound.ended home).lt_of_holds held)
    rcases dense finish (Nat.le_trans far (Nat.le_of_lt under)) with
      ⟨other, held', from', near⟩
    have before : other < offset := by
      rw [UInt64.lt_iff_toNat_lt]
      exact Nat.lt_of_lt_of_le near far
    have far' := least.1.2 other held'
      ⟨from', fun stop bounded => UInt64.lt_trans before (spans.2 stop bounded)⟩
    exact absurd near (Nat.not_lt.2 far')
  · intro fleet node fanout known reachable same positive isPeer sized
    have serves :=
      Fleet.peer_serves known reachable positive (same ▸ sourceSound)
    rw [same] at serves
    rcases resume_eq serves sourceSound size home stop start {} sound with
      ⟨finish', tally', after', least', done', result⟩
    obtain rfl := UInt64.le_antisymm (least'.2 least.1) (least.2 least'.1)
    rw [done] at done'
    cases done'
    rw [run_eq isPeer, sized]
    exact result

/-- Three messages from the first offset on, and one far behind them. -/
def distant : List Log.Operation :=
  [.append { topic := "t" }, .append { topic := "t" }, .append { topic := "t" },
    .place (Store.numbered 7)]

/-- A message that is there already. -/
def second : List Log.Operation :=
  [.place (Store.numbered 1)]

/-- One node, which holds the four messages and may send so many at a time. -/
def lender (most : UInt32) : Fleet.Node :=
  ⟨"a", { rangeMessages := most },
    ((Log.History.start (.series 0)).run distant).store, false, false, 0⟩

/-- The fanout to that node, with pages of two offsets. -/
def lenders : Fanout Fleet :=
  .ofPeers "b" [Fleet.peer "a"] 2

/-- With pages of two offsets, the three messages are copied, whether they come
one by one or together, and the one behind the gap is not seen. -/
theorem run_copies_exactly_distant :
    (∀ operation ∈ second, operation.IsPlain) ∧
    (∀ operation ∈ distant, operation.IsPlain) ∧
    ∃ after,
      run lenders "a" ⟨"t", 0⟩ ⟨0, none⟩
          ((Log.History.start (.series 1)).run second).store [lender 1] =
        (.ok ⟨3, 2, 1⟩, after, [lender 1]) ∧
      run lenders "a" ⟨"t", 0⟩ ⟨0, none⟩
          ((Log.History.start (.series 1)).run second).store [lender 100] =
        (.ok ⟨3, 2, 1⟩, after, [lender 100]) := by
  have plainSecond : ∀ operation ∈ second, operation.IsPlain := by decide
  have plainDistant : ∀ operation ∈ distant, operation.IsPlain := by decide
  rcases run_copies_exactly (.series 1) (.series 0) second distant plainSecond
    plainDistant 2
      ⟨"t", 0⟩ ⟨0, none⟩ with
    ⟨finish, report, after, _, _, _, _, _, runs⟩
  have alone :=
    runs [lender 1] (lender 1) lenders rfl rfl rfl (by decide) rfl rfl
  have together :=
    runs [lender 100] (lender 100) lenders rfl rfl rfl (by decide) rfl rfl
  have counted : (run lenders "a" ⟨"t", 0⟩ ⟨0, none⟩
        ((Log.History.start (.series 1)).run second).store
        [lender 1]).1.toOption =
      some ⟨3, 2, 1⟩ := by
    decide +kernel
  have same : report = ⟨3, 2, 1⟩ := by
    change (run lenders (lender 1).id _ _ _ _).1.toOption = _ at counted
    rw [alone] at counted
    exact Option.some.inj counted
  subst same
  exact ⟨plainSecond, plainDistant, after, alone, together⟩

end CatchUp

end MessageBroker
