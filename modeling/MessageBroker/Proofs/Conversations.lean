import Mathlib.Data.List.Chain
import MessageBroker.Proofs.ExactCopies

/-!
# Catching up from any peer

A catch-up trusts its peer with nothing.  Whatever messages a page brings, in
whatever order and of whatever topics, the next request starts after the last of
them or is not made, so requests move on through the window and come to an end.
The messages are stored one by one as they come, and none of them takes anything
away: what was there stays, and no end falls.

Nothing is asked of the store either, nor of the names in it.
-/

namespace MessageBroker

/-! ## What storing keeps -/

namespace Log

/-- The counter of a partition as it is stored. -/
theorem exists_counter_of_nextOffset
    {keyspace : Keyspace}
    {operation : String}
    {home : PartitionKey}
    {current : Offset}
    (read : nextOffset keyspace operation home = .ok current) :
    ∃ end? : Option Offset,
      keyspace.get? (Key.nextOffset home).bytes = end?.map Record.ofCounter ∧
      current = end?.getD 0 := by
  rw [nextOffset, Keyspace.counter, map_eq_ok_iff] at read
  rcases read with ⟨end?, read, rfl⟩
  unfold Keyspace.counter? at read
  split at read
  · rename_i vacant
    cases read
    exact ⟨none, vacant, rfl⟩
  · rename_i value found
    rcases map_eq_ok_iff.1 read with ⟨count, read, rfl⟩
    have eight : value.length = 8 := by
      unfold Record.toCounter at read
      split at read
      · assumption
      · cases read
    rcases Record.exists_ofCounter eight with ⟨stored, rfl⟩
    rw [Record.toCounter_ofCounter] at read
    cases read
    exact ⟨some count, found, rfl⟩

theorem le_raised
    (current? : Option Offset)
    (next : Offset) :
    current?.getD 0 ≤ Ends.raised current? next ∧
    next ≤ Ends.raised current? next := by
  cases current? with
  | none =>
      exact ⟨UInt64.le_iff_toNat_le.2 (Nat.zero_le _), UInt64.le_refl next⟩
  | some current =>
      unfold Ends.raised
      dsimp only
      split
      · rename_i rises
        exact ⟨UInt64.le_of_lt rises, UInt64.le_refl next⟩
      · rename_i stays
        exact ⟨UInt64.le_refl current, UInt64.not_lt.1 stays⟩

end Log

namespace Store

/-- On the way from one store to another no record changes and no end falls,
neither the stored nor the remembered one. -/
structure Keeps (before after : Store) : Prop where
  record : ∀ home offset value,
    before.keyspace.get? (Key.message home offset).bytes = some value →
      after.keyspace.get? (Key.message home offset).bytes = some value
  stored : ∀ home current, Log.endOffset before.keyspace home = .ok current →
    ∃ next, Log.endOffset after.keyspace home = .ok next ∧ current ≤ next
  remembered : ∀ home, before.next home ≤ after.next home

/-- There is a record in a message's place, and both ends of its partition are
behind it. -/
structure Covers (store : Store) (message : Message) : Prop where
  held : Log.Holds store.keyspace message.home message.offset
  stored : ∃ next, Log.endOffset store.keyspace message.home = .ok next ∧
    message.offset < next
  remembered : message.offset < store.next message.home

variable {before store middle after : Store} {message : Message}
  {outcome : Log.Outcome}

theorem Keeps.refl (store : Store) : store.Keeps store where
  record _ _ _ found := found
  stored _ current read := ⟨current, read, UInt64.le_refl current⟩
  remembered _ := UInt64.le_refl _

theorem Keeps.trans
    (first : before.Keeps middle)
    (second : middle.Keeps after) :
    before.Keeps after where
  record home offset value found :=
    second.record home offset value (first.record home offset value found)
  stored home current read := by
    rcases first.stored home current read with ⟨next, read', least⟩
    rcases second.stored home next read' with ⟨last, read'', least'⟩
    exact ⟨last, read'', UInt64.le_trans least least'⟩
  remembered home :=
    UInt64.le_trans (first.remembered home) (second.remembered home)

theorem Covers.keep
    (covers : store.Covers message)
    (keeps : store.Keeps after) :
    after.Covers message where
  held := by
    rcases Option.isSome_iff_exists.1 covers.held with ⟨value, found⟩
    exact Option.isSome_iff_exists.2 ⟨value, keeps.record _ _ value found⟩
  stored := by
    rcases covers.stored with ⟨next, read, below⟩
    rcases keeps.stored _ next read with ⟨last, read', least⟩
    exact ⟨last, read', UInt64.lt_of_lt_of_le below least⟩
  remembered := UInt64.lt_of_lt_of_le covers.remembered (keeps.remembered _)

theorem next_raise
    (ends : Ends)
    (home sought : PartitionKey)
    (candidate : Offset) :
    (ends.raise home candidate).next sought =
      if sought = home then Ends.raised (ends.get? home) candidate
      else ends.next sought := by
  rw [Ends.next, Log.get?_raise]
  split <;> rfl

/-- What a store holds and remembers after placing a message. -/
theorem exists_written (done : store.place message = .ok (outcome, after)) :
    ∃ (value : Bytes) (next : Offset) (end? : Option Offset),
      next.toNat = message.offset.toNat + 1 ∧
      store.keyspace.get?
        (Key.nextOffset message.home).bytes = end?.map Record.ofCounter ∧
      after.keyspace =
        Log.written store.keyspace message value (end?.getD 0) next ∧
      after.ends = store.ends.raise message.home next := by
  rcases place_eq_ok_iff.1 done with ⟨placed, inner, rfl, records, ends, _⟩
  rcases Log.place_eq_ok_iff.1 inner with
    ⟨value, current, _, read, follows, _, written⟩
  rcases Log.exists_counter_of_nextOffset read with ⟨end?, counter, rfl⟩
  exact ⟨value, placed.next, end?, follows, counter,
    records.trans written, ends⟩

theorem keeps_place (done : store.place message = .ok (outcome, after)) :
    store.Keeps after ∧ after.Covers message := by
  rcases exists_written done with
    ⟨value, next, end?, follows, counter, written, ends⟩
  have positive : 0 < next.toNat := by omega
  have below : message.offset < next := UInt64.lt_iff_toNat_lt.2 (by omega)
  have found : ∀ place,
      (Log.written store.keyspace message value (end?.getD 0) next).get? place =
        _ :=
    Log.get?_written counter positive
  have counted : after.keyspace.get? (Key.nextOffset message.home).bytes =
      (some (Ends.raised end? next)).map Record.ofCounter := by
    rw [written, found, if_pos rfl]
    rfl
  have raised : Log.endOffset after.keyspace message.home =
      .ok (Ends.raised end? next) :=
    Log.nextOffset_of_counter counted _
  constructor
  case left =>
    constructor
    case record =>
      intro home offset value' held
      rw [written, found,
        if_neg (Key.message_bytes_ne_nextOffset home message.home offset), held]
      split <;> rfl
    case stored =>
      intro home current read
      by_cases same : home = message.home
      · subst same
        rw [Log.endOffset, Log.nextOffset_of_counter counter] at read
        cases read
        exact ⟨_, raised, (Log.le_raised end? next).1⟩
      · refine ⟨current, ?_, UInt64.le_refl current⟩
        have other : after.keyspace.get? (Key.nextOffset home).bytes =
            store.keyspace.get? (Key.nextOffset home).bytes := by
          rw [written, found, if_neg fun shared =>
            same (Key.nextOffset_bytes_inj.1 shared),
            if_neg (Key.message_bytes_ne_nextOffset message.home home
              message.offset).symm]
        rw [← read, Log.endOffset, Log.nextOffset, Keyspace.counter,
          Keyspace.counter?, other]
        rfl
    case remembered =>
      intro home
      rw [Store.next, Store.next, ends, next_raise]
      split
      · rename_i same
        rw [same]
        exact (Log.le_raised (store.ends.get? message.home) next).1
      · exact UInt64.le_refl _
  case right =>
    constructor
    case held =>
      rw [Log.Holds, written, found,
        if_neg (Key.message_bytes_ne_nextOffset _ _ _), if_pos rfl]
      cases store.keyspace.get? (Key.message message.home message.offset).bytes
        <;> rfl
    case stored =>
      exact ⟨_, raised, UInt64.lt_of_lt_of_le below (Log.le_raised end? next).2⟩
    case remembered =>
      rw [Store.next, ends, next_raise, if_pos rfl]
      exact UInt64.lt_of_lt_of_le below (Log.le_raised _ next).2

theorem keeps_placeAll
    (tally : Tally)
    (batch : List Message)
    (store : Store) :
    store.Keeps (store.placeAll tally batch).2 := by
  induction batch generalizing tally store with
  | nil => exact .refl store
  | cons message rest step =>
      unfold placeAll
      split
      · rename_i outcome next placed
        exact (keeps_place placed).1.trans (step _ next)
      · exact .refl store

theorem covers_placeAll
    {batch : List Message}
    {tally sum : Tally}
    (done : store.placeAll tally batch = (.ok sum, after)) :
    ∀ message ∈ batch, after.Covers message := by
  induction batch generalizing tally store with
  | nil => nofun
  | cons message rest step =>
      unfold placeAll at done
      split at done
      · rename_i outcome next placed
        have later := keeps_placeAll (tally.add outcome) rest next
        rw [done] at later
        exact List.forall_mem_cons.2 ⟨(keeps_place placed).2.keep later,
          step done⟩
      · cases done

/-- At every point of a run that succeeds nothing is lost, and what came before
it is covered. -/
theorem keeps_throughout
    {earlier later : List Message}
    {tally sum : Tally}
    (done : store.placeAll tally (earlier ++ later) = (.ok sum, after)) :
    ∃ count middle, store.placeAll tally earlier = (.ok count, middle) ∧
      store.Keeps middle ∧
      middle.Keeps after ∧
      ∀ message ∈ earlier, middle.Covers message := by
  rw [placeAll_append] at done
  rcases first : store.placeAll tally earlier with ⟨outcome, middle⟩
  rw [first] at done
  cases outcome with
  | error error => cases done
  | ok count =>
      have before := keeps_placeAll tally earlier store
      have behind := keeps_placeAll count later middle
      rw [first] at before
      dsimp only at done
      rw [done] at behind
      exact ⟨count, middle, rfl, before, behind, covers_placeAll first⟩

/-- A run that fails has stored all messages before the one that it failed
at. -/
theorem placeAll_eq_error
    {batch : List Message}
    {tally : Tally}
    {error : Error}
    (failed : store.placeAll tally batch = (.error error, after)) :
    ∃ front message rest sum, batch = front ++ message :: rest ∧
      store.placeAll tally front = (.ok sum, after) ∧
      after.place message = .error error := by
  induction batch generalizing tally store with
  | nil => cases failed
  | cons message rest step =>
      unfold placeAll at failed
      split at failed
      · rename_i outcome next placed
        rcases step failed with ⟨front, refused, rest', sum, rfl, done, fails⟩
        refine ⟨message :: front, refused, rest', sum, rfl, ?_, fails⟩
        rw [placeAll, placed]
        exact done
      · rename_i fault refused
        cases failed
        exact ⟨[], message, rest, tally, rfl, rfl, refused⟩

end Store

/-! ## Requests on record -/

namespace CatchUp

/-- A request for a window, and what the peer answered. -/
structure Exchange where
  home : PartitionKey
  window : Log.Window
  answer : Except TransportError (List Message)

/-- The messages that came. -/
def Exchange.page (exchange : Exchange) : List Message :=
  exchange.answer.toOption.getD []

/-- All messages that came, in order. -/
def received (talk : List Exchange) : List Message :=
  talk.flatMap Exchange.page

end CatchUp

variable {World : Type}

/-- The peer, with its exchanges of windows put on record. -/
def Peer.recorded (peer : Peer World) :
    Peer (World × List CatchUp.Exchange) where
  id := peer.id
  replicate batch :=
    lift Prod.fst (fun world whole => (world, whole.2)) (peer.replicate batch)
  range home window whole :=
    let (answer, world) := peer.range home window whole.1
    (answer, world, whole.2 ++ [⟨home, window, answer⟩])
  ping := lift Prod.fst (fun world whole => (world, whole.2)) peer.ping

/-- The fanout, with the exchanges of all peers put on record. -/
def Fanout.recorded (fanout : Fanout World) :
    Fanout (World × List CatchUp.Exchange) where
  self := fanout.self
  peers := fanout.peers.map Peer.recorded
  page := fanout.page
  page_pos := fanout.page_pos

theorem Fanout.peer?_recorded
    (fanout : Fanout World)
    (id : NodeId) :
    fanout.recorded.peer? id = (fanout.peer? id).map Peer.recorded := by
  rw [peer?, recorded, List.find?_map]
  rfl

namespace CatchUp

/-- How a catch-up goes on from a cursor, a report and a store: what is said,
how it ends, and what is stored then. -/
inductive Conversation
    (size : UInt64)
    (home : PartitionKey)
    (stop : Option Offset) :
    Offset → Report → Store → List Exchange → Except Error Report → Store → Prop
  /-- There is nothing left to ask for. -/
  | covered {cursor report store} (last : nextWindow? size stop cursor = none) :
      Conversation size home stop cursor report store [] (.ok report) store
  /-- The peer fails. -/
  | failed
      {cursor report store window fault}
      (next : nextWindow? size stop cursor = some window) :
      Conversation size home stop cursor report store
        [⟨home, window, .error fault⟩] (.error fault.toError) store
  /-- A message of the page cannot be stored. -/
  | refused {cursor report store window page error after}
      (next : nextWindow? size stop cursor = some window)
      (placed : store.placeAll {} page = (.error error, after)) :
      Conversation size home stop cursor report store [⟨home, window, .ok page⟩]
        (.error error) after
  /-- The page leads no further. -/
  | ended {cursor report store window page tally after}
      (next : nextWindow? size stop cursor = some window)
      (placed : store.placeAll {} page = (.ok tally, after))
      (last : nextCursor? cursor page = none) :
      Conversation size home stop cursor report store [⟨home, window, .ok page⟩]
        (.ok (report.add page tally)) after
  /-- The next request starts after the page. -/
  | resumed
      {cursor cursor' report store window page tally middle talk result after}
      (next : nextWindow? size stop cursor = some window)
      (placed : store.placeAll {} page = (.ok tally, middle))
      (further : nextCursor? cursor page = some cursor')
      (rest : Conversation size home stop cursor' (report.add page tally) middle
        talk result after) :
      Conversation size home stop cursor report store
        (⟨home, window, .ok page⟩ :: talk) result after

variable {size : UInt64} {home : PartitionKey} {stop : Option Offset}

theorem range_recorded
    {peer : Peer World}
    {window : Log.Window}
    {world left : World}
    {answer : Except TransportError (List Message)}
    (answered : peer.range home window world = (answer, left))
    (heard : List Exchange) :
    peer.recorded.range home window (world, heard) =
      (answer, left, heard ++ [⟨home, window, answer⟩]) := by
  have said : peer.recorded.range home window (world, heard) =
      ((peer.range home window world).1, (peer.range home window world).2,
        heard ++ [⟨home, window, (peer.range home window world).1⟩]) := rfl
  rw [said, answered]

/-- What a catch-up does is a conversation, and the record shows it. -/
theorem exists_conversation
    (peer : Peer World)
    (size : UInt64)
    (home : PartitionKey)
    (stop : Option Offset)
    (cursor : Offset)
    (report : Report)
    (store : Store)
    (world : World)
    (heard : List Exchange) :
    ∃ talk result after left,
      resume peer size home stop cursor report store world =
        (result, after, left) ∧
      resume peer.recorded size home stop cursor report store (world, heard) =
        (result, after, left, heard ++ talk) ∧
      Conversation size home stop cursor report store talk result after := by
  fun_induction resume peer size home stop cursor report store world
    generalizing heard with
  | case1 cursor report store world last =>
      refine ⟨[], _, _, _, rfl, ?_, .covered last⟩
      rw [resume_of_covered last, List.append_nil]
  | case2 cursor report store world window next fault left answered =>
      exact ⟨_, _, _, _, rfl,
        resume_of_failed next (range_recorded answered heard) report store,
        .failed next⟩
  | case3 cursor report store world window next page left answered error after
      placed =>
      exact ⟨_, _, _, _, rfl,
        resume_of_refused next (range_recorded answered heard) placed report,
        .refused next placed⟩
  | case4 cursor report store world window next page left answered tally after
    placed report'
      last =>
      exact ⟨_, _, _, _, rfl,
        resume_of_last next (range_recorded answered heard) placed last report,
        .ended next placed last⟩
  | case5 cursor report store world window next page left answered tally middle
    placed report'
      cursor' further step =>
      rcases step (heard ++ [⟨home, window, .ok page⟩]) with
        ⟨talk, result, after, left', plain, recorded, rest⟩
      refine ⟨⟨home, window, .ok page⟩ :: talk, result, after, left', plain, ?_,
        .resumed next placed further rest⟩
      rw [resume_of_further next (range_recorded answered heard) placed further
        report, recorded,
        List.append_assoc]
      rfl

/-! ## Which windows are asked for -/

/-- The offsets below which a catch-up may ask. -/
def limit (stop : Option Offset) : Nat :=
  (stop.map UInt64.toNat).getD UInt64.size

/-- The requests of a catch-up move through its window, each at most a page
wide, and each after the first begins right behind the last message that
came. -/
structure Advancing
    (size : UInt64)
    (home : PartitionKey)
    (window : Log.Window)
    (talk : List Exchange) :
    Prop where
  /-- All are for the one partition. -/
  asks : ∀ exchange ∈ talk, exchange.home = home
  /-- Their starts rise. -/
  rising : talk.Pairwise fun earlier later =>
    earlier.window.start < later.window.start
  /-- They start in the window. -/
  starts : ∀ exchange ∈ talk, window.start ≤ exchange.window.start ∧
    exchange.window.start.toNat < limit window.stop
  /-- They stop in it, and after a page at most. -/
  stops : ∀ exchange ∈ talk, ∃ stop, exchange.window.stop = some stop ∧
    stop.toNat = min (limit window.stop)
      (min (exchange.window.start.toNat + size.toNat) (UInt64.size - 1))
  /-- Each goes on where the one before left off. -/
  follows : talk.IsChain fun earlier later => ∃ last ∈ earlier.page.getLast?,
    later.window.start.toNat = last.offset.toNat + 1
  /-- There are no more of them than offsets to ask for. -/
  few : talk.length ≤ limit window.stop - window.start.toNat

theorem Advancing.nil (window : Log.Window) : Advancing size home window [] :=
  ⟨nofun, .nil, nofun, nofun, .nil, Nat.zero_le _⟩

theorem of_nextWindow?
    {cursor : Offset}
    {window : Log.Window}
    (next : nextWindow? size stop cursor = some window) :
    cursor.toNat < limit stop ∧
    ∃ finish, window.stop = some finish ∧
      finish.toNat =
        min (limit stop)
          (min (cursor.toNat + size.toNat) (UInt64.size - 1)) := by
  unfold nextWindow? at next
  split at next
  · rename_i bound
    split at next
    · cases next
    · rename_i before
      cases next
      refine ⟨UInt64.lt_iff_toNat_lt.1 (UInt64.not_le.1 before), _, rfl, ?_⟩
      rw [UInt64.toNat_min, Offset.toNat_advance]
      rfl
  · cases next
    refine ⟨cursor.toNat_lt, _, rfl, ?_⟩
    rw [Offset.toNat_advance]
    exact (Nat.min_eq_right
      (Nat.le_trans (Nat.min_le_right _ _) (Nat.sub_le _ _))).symm

namespace Conversation

variable {cursor : Offset} {report : Report} {store after : Store}
  {talk : List Exchange} {result : Except Error Report}

theorem start_of_mem_head?
    (conversation :
      Conversation size home stop cursor report store talk result after) :
    ∀ exchange ∈ talk.head?, exchange.window.start = cursor := by
  intro exchange first
  cases conversation with
  | covered last => cases first
  | failed next | refused next placed | ended next placed last
  | resumed next placed further rest =>
      cases first
      exact start_nextWindow? next

/-- One request from a cursor is a catch-up's. -/
theorem advancing_single
    {window : Log.Window}
    (next : nextWindow? size stop cursor = some window)
    (answer : Except TransportError (List Message)) :
    Advancing size home ⟨cursor, stop⟩ [⟨home, window, answer⟩] := by
  rcases of_nextWindow? next with ⟨below, stops⟩
  have start := start_nextWindow? next
  constructor
  case asks => simp
  case rising => simp
  case starts => simpa [start] using below
  case stops => simpa [start] using stops
  case follows => simp
  case few =>
    exact Nat.sub_pos_of_lt below

theorem advancing
    (conversation :
      Conversation size home stop cursor report store talk result after) :
    Advancing size home ⟨cursor, stop⟩ talk := by
  induction conversation with
  | covered last => exact .nil _
  | failed next => exact advancing_single next _
  | refused next placed => exact advancing_single next _
  | ended next placed last => exact advancing_single next _
  | @resumed cursor cursor' report store window page tally middle talk result
    after next placed
      further rest step =>
      have single :
          Advancing size home ⟨cursor, stop⟩ [⟨home, window, .ok page⟩] :=
        advancing_single next _
      have rises := lt_of_nextCursor? further
      have start := start_nextWindow? next
      have later : ∀ exchange ∈ talk, cursor < exchange.window.start :=
        fun exchange inside =>
          UInt64.lt_of_lt_of_le rises (step.starts exchange inside).1
      constructor
      case asks =>
        exact List.forall_mem_cons.2 ⟨rfl, step.asks⟩
      case rising =>
        refine List.pairwise_cons.2 ⟨?_, step.rising⟩
        rw [start]
        exact later
      case starts =>
        refine List.forall_mem_cons.2
          ⟨single.starts _ (List.mem_singleton.2 rfl), ?_⟩
        exact fun exchange inside =>
          ⟨UInt64.le_of_lt (later exchange inside),
            (step.starts exchange inside).2⟩
      case stops =>
        exact List.forall_mem_cons.2 ⟨single.stops _ (List.mem_singleton.2 rfl),
          step.stops⟩
      case follows =>
        refine List.isChain_cons.2 ⟨?_, step.follows⟩
        intro exchange first
        rw [rest.start_of_mem_head? exchange first]
        rcases Option.filter_eq_some_iff.1 further with ⟨follows, _⟩
        rcases Option.bind_eq_some_iff.1 follows with ⟨last, final, after'⟩
        exact ⟨last, final, Offset.next?_eq_some_iff.1 after'⟩
      case few =>
        have below := (of_nextWindow? next).1
        have rises' := UInt64.lt_iff_toNat_lt.1 rises
        have few := step.few
        dsimp only at few ⊢
        rw [List.length_cons]
        omega

end Conversation

/-! ## What is stored of what came -/

/-- A catch-up that received a front and a rest has stored the front.  It
succeeds with nothing left and reports the front; it fails at the first message
that is left, or because the peer did. -/
structure Accounts
    (report : Report)
    (store after : Store)
    (talk : List Exchange)
    (result : Except Error Report)
    (front rest : List Message)
    (tally : Tally) :
    Prop where
  came : received talk = front ++ rest
  placed : store.placeAll {} front = (.ok tally, after)
  succeeds : ∀ sum, result = .ok sum → rest = [] ∧ sum = report.add front tally
  fails : ∀ error, result = .error error →
    (∃ message more, rest = message :: more ∧
      after.place message = .error error) ∨
    rest = [] ∧
      ∃ exchange ∈ talk.getLast?, ∃ fault, exchange.answer = .error fault ∧
        error = fault.toError

theorem Conversation.accounts
    {cursor : Offset}
    {report : Report}
    {store after : Store}
    {talk : List Exchange}
    {result : Except Error Report}
    (conversation :
      Conversation size home stop cursor report store talk result after) :
    ∃ front rest tally,
      Accounts report store after talk result front rest tally := by
  induction conversation with
  | covered last =>
      refine ⟨[], [], {}, rfl, rfl, ?_, nofun⟩
      rintro sum same
      cases same
      exact ⟨rfl, rfl⟩
  | failed next =>
      refine ⟨[], [], {}, rfl, rfl, nofun, ?_⟩
      rintro error same
      cases same
      exact .inr ⟨rfl, _, rfl, _, rfl, rfl⟩
  | refused next placed =>
      rcases Store.placeAll_eq_error placed with
        ⟨front, message, more, tally, rfl, done, refused⟩
      refine ⟨front, message :: more, tally, List.append_nil _, done, nofun, ?_⟩
      rintro error same
      cases same
      exact .inl ⟨message, more, rfl, refused⟩
  | @ended cursor report store window page tally after next placed last =>
      refine ⟨page, [], tally, rfl, placed, ?_, nofun⟩
      rintro sum same
      cases same
      exact ⟨rfl, rfl⟩
  | @resumed cursor cursor' report store window page tally middle talk result
    after next placed
      further rest step =>
      rcases step with ⟨front, left, tally', came, placed', succeeds, fails⟩
      refine ⟨page ++ front, left, tally.plus tally', ?_, ?_, ?_, ?_⟩
      · rw [List.append_assoc, ← came]
        rfl
      · rw [Store.placeAll_append, placed]
        have counted := Store.placeAll_plus tally {} middle front
        rw [placed'] at counted
        exact counted
      · intro sum same
        rcases succeeds sum same with ⟨nothing, reported⟩
        exact ⟨nothing, by rw [add_append, reported]⟩
      · intro error same
        rcases fails error same with refused |
          ⟨nothing, exchange, final, failure⟩
        · exact .inl refused
        · refine .inr ⟨nothing, exchange, ?_, failure⟩
          rw [List.getLast?_cons, final]
          rfl

/-- Whatever a peer answers, a catch-up ends.  Its requests advance through its
window, at most as many as there are offsets to ask for.  What it stored is what
came, up to the first message that could not be stored, and at every point on
the way nothing is lost, no end falls, and what came so far is covered. -/
theorem catches_up_from_any_peer
    (fanout : Fanout World)
    (id : NodeId)
    (home : PartitionKey)
    (window : Log.Window)
    (store : Store)
    (world : World) :
    ∃ talk result after left,
      run fanout id home window store world = (result, after, left) ∧
      run fanout.recorded id home window store (world, []) =
        (result, after, left, talk) ∧
      Advancing fanout.page home window talk ∧
      (fanout.peer? id = none ∧
          talk = [] ∧
          result = .error (.notFound "peer" id) ∧
          after = store ∨
        ∃ front rest tally,
          Accounts {} store after talk result front rest tally ∧
          ∀ earlier later, front = earlier ++ later →
            ∃ count middle, store.placeAll {} earlier = (.ok count, middle) ∧
              store.Keeps middle ∧
              middle.Keeps after ∧
              ∀ message ∈ earlier, middle.Covers message) := by
  cases known : fanout.peer? id with
  | none =>
      have unknown : fanout.recorded.peer? id = none := by
        rw [Fanout.peer?_recorded, known, Option.map_none]
      exact ⟨[], _, _, _, by rw [run, known], by rw [run, unknown], .nil window,
        .inl ⟨rfl, rfl, rfl, rfl⟩⟩
  | some peer =>
      have known' : fanout.recorded.peer? id = some peer.recorded := by
        rw [Fanout.peer?_recorded, known, Option.map_some]
      rcases exists_conversation peer fanout.page home window.stop window.start
        {} store world []
        with ⟨talk, result, after, left, plain, recorded, conversation⟩
      rcases conversation.accounts with ⟨front, rest, tally, accounts⟩
      refine ⟨talk, result, after, left, (run_eq known ..).trans plain,
        (run_eq known' ..).trans recorded, conversation.advancing,
        .inr ⟨front, rest, tally, accounts, ?_⟩⟩
      rintro earlier later rfl
      exact Store.keeps_throughout accounts.placed

end CatchUp

end MessageBroker
