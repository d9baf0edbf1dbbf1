import MessageBroker.CatchUp
import MessageBroker.Proofs.LogGrowth
import MessageBroker.Proofs.LogReading

/-!
# Catching up copies records

A peer that shows a keyspace answers every window with a front of what the
keyspace has in it, or fails.  Whatever becomes of a catch-up from such a peer,
the store has grown by records of that keyspace, from the first cursor on.  One
that succeeds has copied all of them up to the window in which the peer had
nothing to show, and there it stopped.
-/

namespace MessageBroker

theorem Offset.lt_min_iff {offset first second : Offset} :
    offset < min first second ↔ offset < first ∧ offset < second := by
  have least : min first second = if first ≤ second then first else second :=
    rfl
  rw [least, UInt64.lt_iff_toNat_lt, UInt64.lt_iff_toNat_lt,
    UInt64.lt_iff_toNat_lt]
  split
  · rename_i ordered
    rw [UInt64.le_iff_toNat_le] at ordered
    omega
  · rename_i reversed
    rw [UInt64.le_iff_toNat_le] at reversed
    omega

namespace CatchUp

variable {World : Type}

/-- The answers of a peer are fronts of what a keyspace has in the windows that
it is asked for, and leave the world as it is. -/
def Shows (peer : Peer World) (world : World) (theirs : Keyspace) : Prop :=
  ∀ home window, (peer.range home window world).2 = world ∧
    ∀ page, (peer.range home window world).1 = .ok page →
      page <+: Log.records theirs home window

/-- An empty answer means that the keyspace has nothing in the window. -/
def Yields (peer : Peer World) (world : World) (theirs : Keyspace) : Prop :=
  ∀ home window, (peer.range home window world).1 = .ok [] →
    Log.records theirs home window = []

/-- The messages of a partition that a keyspace holds from a cursor on. -/
def From
    (theirs : Keyspace)
    (home : PartitionKey)
    (cursor : Offset)
    (message : Message) :
    Prop :=
  message.home = home ∧ Log.Contains theirs message ∧ cursor ≤ message.offset

/-- There is nothing to see in the window after a cursor. -/
def Ends
    (theirs : Keyspace)
    (home : PartitionKey)
    (size : UInt64)
    (stop : Option Offset)
    (cursor : Offset) :
    Prop :=
  ∀ window, nextWindow? size stop cursor = some window →
    Log.records theirs home window = []

variable {theirs : Keyspace} {ends : MessageBroker.Ends} {home : PartitionKey}

theorem start_nextWindow?
    {size : UInt64}
    {stop : Option Offset}
    {cursor : Offset}
    {window : Log.Window}
    (next : nextWindow? size stop cursor = some window) :
    window.start = cursor := by
  unfold nextWindow? at next
  split at next
  · split at next
    · cases next
    · cases next
      rfl
  · cases next
    rfl

/-- A partition holds nothing in so many offsets from a start on. -/
def Hole
    (theirs : Keyspace)
    (home : PartitionKey)
    (size : UInt64)
    (start : Offset) :
    Prop :=
  ∀ offset, Log.Holds theirs home offset → start ≤ offset →
    start.toNat + size.toNat ≤ offset.toNat

/-- There is no window after a cursor only where the bound leaves nothing. -/
theorem not_spans_of_nextWindow?
    {size : UInt64}
    {stop : Option Offset}
    {cursor : Offset}
    (last : nextWindow? size stop cursor = none)
    (offset : Offset) :
    ¬ Log.Window.Spans ⟨cursor, stop⟩ offset := by
  unfold nextWindow? at last
  split at last
  · split at last
    · rename_i stop passed
      rintro ⟨least, below⟩
      exact UInt64.not_lt.2 (UInt64.le_trans passed least) (below stop rfl)
    · cases last
  · cases last

/-- A partition holds nothing in so many offsets from a start on, unless it is
beyond a bound. -/
def Clear
    (theirs : Keyspace)
    (home : PartitionKey)
    (size : UInt64)
    (stop : Option Offset)
    (start : Offset) :
    Prop :=
  ∀ offset, Log.Holds theirs home offset →
    Log.Window.Spans ⟨start, stop⟩ offset →
    start.toNat + size.toNat ≤ offset.toNat

/-- The window after a cursor spans what the bound and its size let it span. -/
theorem spans_of_nextWindow?
    {size : UInt64}
    {stop : Option Offset}
    {cursor : Offset}
    {window : Log.Window}
    (next : nextWindow? size stop cursor = some window)
    (offset : Offset) :
    window.Spans offset ↔
      Log.Window.Spans ⟨cursor, stop⟩ offset ∧
      offset < cursor.advance size := by
  unfold Log.Window.Spans
  cases stop with
  | none =>
      cases next
      simp
  | some stop =>
      unfold nextWindow? at next
      dsimp only at next
      split at next
      · cases next
      · cases next
        simp [and_assoc, Offset.lt_min_iff]

/-- There is nothing to see after a cursor exactly where the window there is
clear. -/
theorem ends_iff_clear
    (source : Log.Sound theirs ends)
    {size : UInt64}
    {stop : Option Offset}
    {cursor : Offset} :
    Ends theirs home size stop cursor ↔ Clear theirs home size stop cursor := by
  constructor
  · intro ended offset held spans
    apply Nat.le_of_not_lt
    intro near
    obtain ⟨message, found⟩ := source.holds_iff.1 held
    obtain ⟨contained, rfl, rfl⟩ := source.contains_of_record found
    have below : message.offset < cursor.advance size := by
      have bound := (source.ended message.home).lt_of_holds held
      have top := ((ends.get? message.home).getD 0).toNat_lt
      rw [UInt64.lt_iff_toNat_lt] at bound ⊢
      rw [Offset.toNat_advance]
      have size : UInt64.size = 2 ^ 64 := rfl
      omega
    cases next : nextWindow? size stop cursor with
    | none => exact absurd spans (not_spans_of_nextWindow? next _)
    | some window =>
        have inside := source.mem_records_iff.2
          ⟨rfl, contained, (spans_of_nextWindow? next _).2 ⟨spans, below⟩⟩
        rw [ended _ next] at inside
        cases inside
  · intro clear window next
    apply List.eq_nil_iff_forall_not_mem.2
    intro message inside
    obtain ⟨rfl, held, within⟩ := source.mem_records_iff.1 inside
    obtain ⟨spans, near⟩ := (spans_of_nextWindow? next _).1 within
    have far := clear message.offset (source.holds_iff.2 ⟨_, held⟩) spans
    rw [UInt64.lt_iff_toNat_lt, Offset.toNat_advance] at near
    omega

/-- Without a bound, there is nothing to see after a cursor exactly where a hole
begins. -/
theorem ends_iff_hole
    (source : Log.Sound theirs ends)
    {size : UInt64}
    {cursor : Offset} :
    Ends theirs home size none cursor ↔ Hole theirs home size cursor := by
  rw [ends_iff_clear source]
  unfold Clear Hole Log.Window.Spans
  simp

/-! ## One page -/

/-- The next cursor is the offset after a message of the page. -/
theorem exists_last_of_nextCursor?
    {cursor next : Offset}
    {page : List Message}
    (further : nextCursor? cursor page = some next) :
    ∃ last ∈ page, next.toNat = last.offset.toNat + 1 := by
  obtain ⟨follows, _⟩ := Option.filter_eq_some_iff.1 further
  obtain ⟨last, final, after⟩ := Option.bind_eq_some_iff.1 follows
  exact ⟨last, List.mem_of_getLast? final, Offset.next?_eq_some_iff.1 after⟩

/-- A page holds records of the partition from the start of its window on. -/
theorem from_of_mem_page
    (source : Log.Sound theirs ends)
    {window : Log.Window}
    {page : List Message}
    (front : page <+: Log.records theirs home window)
    {message : Message}
    (inside : message ∈ page) :
    From theirs home window.start message := by
  obtain ⟨homes, held, least, _⟩ :=
    source.mem_records_iff.1 (front.subset inside)
  exact ⟨homes, held, least⟩

/-- A page with messages gives the next cursor, and holds all records of its
window before it. -/
theorem nextCursor?_page
    (source : Log.Sound theirs ends)
    {window : Log.Window}
    {page : List Message}
    (front : page <+: Log.records theirs home window)
    (some : page ≠ []) :
    ∃ next, nextCursor? window.start page = .some next ∧
      ∀ message, From theirs home window.start message → message.offset < next →
        message ∈ page := by
  have insideLast := List.getLast_mem some
  obtain ⟨homes, held, least, below⟩ :=
    source.mem_records_iff.1 (front.subset insideLast)
  obtain ⟨next, follows⟩ : ∃ next,
      (page.getLast some).offset.next? = .some next := by
    have under := (source.ended _).lt_of_holds (source.holds_iff.2 ⟨_, held⟩)
    rw [UInt64.lt_iff_toNat_lt] at under
    cases after : (page.getLast some).offset.next? with
    | some next => exact ⟨next, rfl⟩
    | none =>
        have full := Offset.next?_eq_none_iff.1 after
        have bound := ((ends.get? (page.getLast some).home).getD 0).toNat_lt
        have size : UInt64.size = 2 ^ 64 := rfl
        omega
  have further : window.start < next :=
    UInt64.lt_of_le_of_lt least (Offset.lt_of_next? follows)
  refine ⟨next, ?_, ?_⟩
  · rw [nextCursor?, List.getLast?_eq_some_getLast some, Option.bind_some,
      follows]
    simp [Option.filter, further]
  · rintro message ⟨homes', held', least'⟩ before
    have atMost : message.offset ≤ (page.getLast some).offset := by
      rw [UInt64.lt_iff_toNat_lt, Offset.next?_eq_some_iff.1 follows] at before
      rw [UInt64.le_iff_toNat_le]
      omega
    have recorded : message ∈ Log.records theirs home window :=
      source.mem_records_iff.2 ⟨homes', held', least',
        fun stop bounded => UInt64.lt_of_le_of_lt atMost (below stop bounded)⟩
    obtain ⟨rest, whole⟩ := front
    have ordered := source.records_ordered home window
    rw [← whole] at recorded ordered
    rcases List.mem_append.1 recorded with inside | later
    · exact inside
    · have above := (List.pairwise_append.1 ordered).2.2 _ insideLast _ later
      exact absurd above (UInt64.not_lt.2 atMost)

/-- A page that a peer shows grows a store by its messages. -/
theorem grows_page
    (source : Log.Sound theirs ends)
    {window : Log.Window}
    {page : List Message}
    (front : page <+: Log.records theirs home window)
    {store : Store}
    (sound : store.Sound) :
    Store.Grows (· ∈ page) store (store.placeAll {} page).2 := by
  have held : ∀ message ∈ page, From theirs home window.start message :=
    fun message inside => from_of_mem_page source front inside
  have free : ∀ message ∈ page, ':' ∉ message.topic.toList :=
    fun message inside => source.free_of_record (held message inside).2.1
  refine (sound.grows_placeAll free {}).weaken fun stored named => ?_
  exact named.mem fun message inside =>
    source.id_ne_nil (held message inside).2.1

theorem holds_page
    (source : Log.Sound theirs ends)
    {window : Log.Window}
    {page : List Message}
    (front : page <+: Log.records theirs home window)
    {store after : Store}
    (sound : store.Sound)
    {tally : Tally}
    (placed : store.placeAll {} page = (.ok tally, after))
    {message : Message}
    (inside : message ∈ page) :
    Log.Holds after.keyspace message.home message.offset := by
  have free : ∀ message ∈ page, ':' ∉ message.topic.toList :=
    fun message inside =>
      source.free_of_record (from_of_mem_page source front inside).2.1
  have held := sound.holds_placeAll free (by rw [placed]) inside
  rw [placed] at held
  exact held

/-- An answer to the window after a cursor leaves the world as it is, and is a
page of it. -/
theorem Shows.answer
    {peer : Peer World}
    {world world' : World}
    (shows : Shows peer world theirs)
    {window : Log.Window}
    {page : List Message}
    (answer : peer.range home window world = (.ok page, world')) :
    world' = world ∧ page <+: Log.records theirs home window := by
  obtain ⟨same, front⟩ := shows home window
  rw [answer] at same front
  exact ⟨same, front page rfl⟩

/-! ## All pages -/

/-- Whatever becomes of a catch-up, it has stored only what the pages from its
cursors show. -/
theorem resume_grows_of
    {peer : Peer World}
    {world : World}
    (shows : Shows peer world theirs)
    (source : Log.Sound theirs ends)
    {size : UInt64}
    {stop : Option Offset}
    (reached : Offset → Prop)
    {kind : Message → Prop}
    (pages : ∀ window page, reached window.start →
      nextWindow? size stop window.start = some window →
      page <+: Log.records theirs home window →
        (∀ message ∈ page, kind message) ∧
        ∀ next, nextCursor? window.start page = some next → reached next)
    {cursor : Offset}
    (start : reached cursor)
    (report : Report)
    {store : Store}
    (sound : store.Sound) :
    Store.Grows kind store
      (resume peer size home stop cursor report store world).2.1 ∧
    (resume peer size home stop cursor report store world).2.2 = world := by
  fun_induction resume peer size home stop cursor report store world with
  | case1 cursor report store world last =>
      exact ⟨.refl sound, rfl⟩
  | case2 cursor report store world window next fault world' answer =>
      have same := (shows home window).1
      rw [answer] at same
      exact ⟨.refl sound, same⟩
  | case3 cursor report store world window next page world' answer fault store'
      placed =>
      obtain ⟨same, front⟩ := shows.answer answer
      have grows := grows_page source front sound
      rw [placed] at grows
      cases start_nextWindow? next
      exact ⟨grows.weaken (pages window page start next front).1, same⟩
  | case4 cursor report store world window next page world' answer tally store'
    placed report'
      last =>
      obtain ⟨same, front⟩ := shows.answer answer
      have grows := grows_page source front sound
      rw [placed] at grows
      cases start_nextWindow? next
      exact ⟨grows.weaken (pages window page start next front).1, same⟩
  | case5 cursor report store world window next page world' answer tally store'
    placed report'
      cursor' further step =>
      obtain ⟨same, front⟩ := shows.answer answer
      have grows := grows_page source front sound
      rw [placed] at grows
      subst same
      cases start_nextWindow? next
      obtain ⟨kinds, reaches⟩ := pages window page start next front
      obtain ⟨rest, unchanged⟩ :=
        step shows (reaches cursor' further) grows.sound
      exact ⟨(grows.weaken kinds).trans rest, unchanged⟩

/-- Whatever becomes of a catch-up, it has copied records of the peer. -/
theorem resume_grows
    {peer : Peer World}
    {world : World}
    (shows : Shows peer world theirs)
    (source : Log.Sound theirs ends)
    (size : UInt64)
    (home : PartitionKey)
    (stop : Option Offset)
    (cursor : Offset)
    (report : Report)
    {store : Store}
    (sound : store.Sound) :
    Store.Grows (From theirs home cursor) store
      (resume peer size home stop cursor report store world).2.1 ∧
    (resume peer size home stop cursor report store world).2.2 = world := by
  apply resume_grows_of shows source (cursor ≤ ·) ?_ (UInt64.le_refl _)
    report sound
  intro window page least next front
  constructor
  · intro message inside
    obtain ⟨homes, held, from'⟩ := from_of_mem_page source front inside
    exact ⟨homes, held, UInt64.le_trans least from'⟩
  · intro cursor' further
    exact UInt64.le_trans least (UInt64.le_of_lt (lt_of_nextCursor? further))

/-- A catch-up stores nothing beyond a hole of the peer. -/
theorem resume_grows_below
    {peer : Peer World}
    {world : World}
    (shows : Shows peer world theirs)
    (source : Log.Sound theirs ends)
    {size : UInt64}
    {cursor bound : Offset}
    (hole : Hole theirs home size bound)
    (before : cursor ≤ bound)
    (report : Report)
    {store : Store}
    (sound : store.Sound) :
    Store.Grows
      (fun message => From theirs home cursor message ∧ message.offset < bound)
      store (resume peer size home none cursor report store world).2.1 := by
  refine (resume_grows_of shows source
    (fun start => cursor ≤ start ∧ start ≤ bound) ?_
    ⟨UInt64.le_refl _, before⟩ report sound).1
  intro window page ⟨least, most⟩ next front
  have ended : window.stop = some (window.start.advance size) :=
    congrArg Log.Window.stop (Option.some.inj next).symm
  have kinds : ∀ message ∈ page,
      From theirs home cursor message ∧ message.offset < bound := by
    intro message inside
    obtain ⟨rfl, held, from', below⟩ :=
      source.mem_records_iff.1 (front.subset inside)
    refine ⟨⟨rfl, held, UInt64.le_trans least from'⟩,
      UInt64.not_le.1 fun beyond => ?_⟩
    have far := hole message.offset (source.holds_iff.2 ⟨_, held⟩) beyond
    have near := below _ ended
    rw [UInt64.lt_iff_toNat_lt, Offset.toNat_advance] at near
    rw [UInt64.le_iff_toNat_le] at most
    omega
  refine ⟨kinds, fun next further => ⟨?_, ?_⟩⟩
  · exact UInt64.le_trans least (UInt64.le_of_lt (lt_of_nextCursor? further))
  · obtain ⟨last, inside, follows⟩ := exists_last_of_nextCursor? further
    have under := UInt64.lt_iff_toNat_lt.1 (kinds last inside).2
    rw [UInt64.le_iff_toNat_le, follows]
    exact under

/-- A catch-up that succeeds has copied all records up to a window in which
there were none. -/
theorem resume_complete
    {peer : Peer World}
    {world : World}
    (shows : Shows peer world theirs)
    (yields : Yields peer world theirs)
    (source : Log.Sound theirs ends)
    (size : UInt64)
    (home : PartitionKey)
    (stop : Option Offset)
    (cursor : Offset)
    (report : Report)
    {store : Store}
    (sound : store.Sound)
    (result : Report)
    (done : (resume peer size home stop cursor report store world).1 =
      .ok result) :
    ∃ finish, cursor ≤ finish ∧
      Ends theirs home size stop finish ∧
      ∀ message, From theirs home cursor message → message.offset < finish →
        Log.Holds
          (resume peer size home stop cursor report store world).2.1.keyspace
          home message.offset := by
  fun_induction resume peer size home stop cursor report store world with
  | case1 cursor report store world last =>
      refine ⟨cursor, UInt64.le_refl _, ?_, ?_⟩
      · intro window next
        rw [last] at next
        cases next
      · rintro message ⟨_, _, least⟩ before
        exact absurd before (UInt64.not_lt.2 least)
  | case2 => cases done
  | case3 => cases done
  | case4 cursor report store world window next page world' answer tally store'
    placed report'
      last =>
      obtain ⟨_, front⟩ := shows.answer answer
      have start := start_nextWindow? next
      by_cases nothing : page = []
      · refine ⟨cursor, UInt64.le_refl _, ?_, ?_⟩
        · intro window' next'
          rw [next] at next'
          cases next'
          apply yields
          rw [answer, nothing]
        · rintro message ⟨_, _, least⟩ before
          exact absurd before (UInt64.not_lt.2 least)
      · obtain ⟨cursor', further, _⟩ := nextCursor?_page source front nothing
        rw [start, last] at further
        cases further
  | case5 cursor report store world window next page world' answer tally store'
    placed report'
      cursor' further step =>
      obtain ⟨same, front⟩ := shows.answer answer
      subst same
      have start := start_nextWindow? next
      have some : page ≠ [] := by
        rintro rfl
        cases further
      have grows := grows_page source front sound
      rw [placed] at grows
      obtain ⟨finish, later, ended, copied⟩ :=
        step shows yields grows.sound done
      obtain ⟨cursor'', further', complete⟩ :=
        nextCursor?_page source front some
      rw [start, further] at further'
      cases further'
      have rises := lt_of_nextCursor? further
      refine ⟨finish, UInt64.le_trans (UInt64.le_of_lt rises) later, ended, ?_⟩
      rintro message ⟨rfl, held, least⟩ before
      by_cases early : message.offset < cursor'
      · have inside := complete message ⟨rfl, held, start ▸ least⟩ early
        obtain ⟨grown, _⟩ :=
          resume_grows shows source size message.home stop cursor' report'
            grows.sound
        exact grown.holds grows.sound
          (holds_page source front sound placed inside)
      · exact copied message ⟨rfl, held, UInt64.not_lt.1 early⟩ before

end CatchUp

end MessageBroker
