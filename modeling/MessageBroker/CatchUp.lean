import MessageBroker.Fanout
import MessageBroker.Store

/-!
# Catching up

A node catches up on a partition by reading it from a peer, window after window,
and storing what it gets at the offsets it has.  The next window starts after
the last message of the page, and only if that is further on; a page without
messages ends the catch-up.  So the starts of windows rise, and catching up ends
whatever the peer answers.
-/

namespace MessageBroker.CatchUp

/-- What a catch-up did. -/
structure Report where
  /-- Messages that the peer sent. -/
  fetched : Nat := 0
  /-- Messages stored. -/
  applied : Nat := 0
  /-- Messages found at offsets already taken. -/
  duplicates : Nat := 0
  deriving DecidableEq

/-- The report with one more page. -/
def Report.add
    (report : Report)
    (page : List Message)
    (tally : Tally) :
    Report :=
  ⟨report.fetched + page.length, report.applied + tally.applied,
    report.duplicates + tally.duplicates⟩

variable {World : Type}

/-- The window to ask for next, unless everything below the bound was asked
for. -/
def nextWindow?
    (page : UInt64)
    (stop : Option Offset)
    (cursor : Offset) :
    Option Log.Window :=
  match stop with
  | some stop =>
      if stop ≤ cursor then none
      else some ⟨cursor, some (min stop (cursor.advance page))⟩
  | none => some ⟨cursor, some (cursor.advance page)⟩

/-- Where the next window starts after a page, if it starts further on. -/
def nextCursor? (cursor : Offset) (page : List Message) : Option Offset :=
  (page.getLast?.bind fun last => last.offset.next?).filter (cursor < ·)

theorem lt_of_nextCursor?
    {cursor next : Offset}
    {page : List Message}
    (further : nextCursor? cursor page = some next) :
    cursor < next := by
  simpa using (Option.filter_eq_some_iff.1 further).2

/-- Catch up from a cursor on. -/
def resume
    (peer : Peer World)
    (page : UInt64)
    (home : PartitionKey)
    (stop : Option Offset)
    (cursor : Offset)
    (report : Report)
    (store : Store)
    (world : World) :
    Except Error Report × Store × World :=
  match nextWindow? page stop cursor with
  | none => (.ok report, store, world)
  | some window =>
      match peer.range home window world with
      | (.error error, world) => (.error error.toError, store, world)
      | (.ok batch, world) =>
          match store.placeAll {} batch with
          | (.error error, store) => (.error error, store, world)
          | (.ok tally, store) =>
              let report := report.add batch tally
              match _further : nextCursor? cursor batch with
              | none => (.ok report, store, world)
              | some next => resume peer page home stop next report store world
termination_by UInt64.size - cursor.toNat
decreasing_by
  have rises := UInt64.lt_iff_toNat_lt.1 (lt_of_nextCursor? _further)
  have bound : next.toNat < UInt64.size := next.toNat_lt
  omega

section Turns

variable {peer : Peer World} {size : UInt64} {home : PartitionKey}
  {stop : Option Offset} {cursor : Offset} {window : Log.Window}
  {page : List Message} {store after : Store} {world left : World}

theorem resume_of_covered
    (covered : nextWindow? size stop cursor = none)
    (report : Report)
    (store : Store)
    (world : World) :
    resume peer size home stop cursor report store world =
      (.ok report, store, world) := by
  rw [resume, covered]

theorem resume_of_failed
    {fault : TransportError}
    (next : nextWindow? size stop cursor = some window)
    (answered : peer.range home window world = (.error fault, left))
    (report : Report)
    (store : Store) :
    resume peer size home stop cursor report store world =
      (.error fault.toError, store, left) := by
  rw [resume, next]
  dsimp only
  rw [answered]

theorem resume_of_refused
    {error : Error}
    (next : nextWindow? size stop cursor = some window)
    (answered : peer.range home window world = (.ok page, left))
    (refused : store.placeAll {} page = (.error error, after))
    (report : Report) :
    resume peer size home stop cursor report store world =
      (.error error, after, left) := by
  rw [resume, next]
  dsimp only
  rw [answered]
  dsimp only
  rw [refused]

theorem resume_of_last
    {tally : Tally}
    (next : nextWindow? size stop cursor = some window)
    (answered : peer.range home window world = (.ok page, left))
    (placed : store.placeAll {} page = (.ok tally, after))
    (last : nextCursor? cursor page = none)
    (report : Report) :
    resume peer size home stop cursor report store world =
      (.ok (report.add page tally), after, left) := by
  rw [resume, next]
  dsimp only
  rw [answered]
  dsimp only
  rw [placed]
  dsimp only
  split
  · rfl
  · rename_i further
    cases last.symm.trans further

theorem resume_of_further
    {tally : Tally}
    {cursor' : Offset}
    (next : nextWindow? size stop cursor = some window)
    (answered : peer.range home window world = (.ok page, left))
    (placed : store.placeAll {} page = (.ok tally, after))
    (further : nextCursor? cursor page = some cursor')
    (report : Report) :
    resume peer size home stop cursor report store world =
      resume peer size home stop cursor' (report.add page tally) after
        left := by
  rw [resume, next]
  dsimp only
  rw [answered]
  dsimp only
  rw [placed]
  dsimp only
  split
  · rename_i last
    cases further.symm.trans last
  · rename_i found
    cases further.symm.trans found
    rfl

end Turns

/-- Catch up on a window of a partition from the peer of that id. -/
def run
    (fanout : Fanout World)
    (peer : NodeId)
    (home : PartitionKey)
    (window : Log.Window)
    (store : Store)
    (world : World) :
    Except Error Report × Store × World :=
  match fanout.peer? peer with
  | none => (.error (.notFound "peer" peer), store, world)
  | some peer =>
      resume peer fanout.page home window.stop window.start {} store world

end MessageBroker.CatchUp
