import MessageBroker.Proofs.Interleavings
import MessageBroker.Proofs.Journals

/-!
# Parts of a store do not disturb each other

Logs, queues, the catalog and reading positions share one keyspace, with sweeps
that go through all queues at once.  Still each partition, each queue and each
position is on its own.  Take any two runs of requests that agree on those that
concern a part, in their order: whatever else the two runs ask for in between,
the part gives the same answers and shows the same in the end.

For partitions and positions this is seen on the records themselves.  For queues
it is seen on the machine that describes the keyspace, whose lines are separate
from the start.
-/

namespace MessageBroker

namespace Interleaving

variable {limits : Limits} {settings : Queue.Settings}

/-! ## Partitions -/

/-- Requests of other areas leave all journals as they are. -/
theorem journal_serve
    {store : Store}
    (intact : store.Intact)
    (request : Request)
    (elsewhere : request.area ≠ .logs)
    (home : PartitionKey) :
    (serve limits settings store request).2.journal home =
      store.journal home := by
  unfold Store.journal
  rw [ends_serve elsewhere]
  congr 1
  funext offset
  exact confined_serve intact (.message home offset) elsewhere.symm

/-- A message goes to its place, if it can be placed anywhere. -/
def put
    (answer : Answer)
    (ids : IdSource)
    (message : Message)
    (store : Store) :
    Answer × Store :=
  match Log.admitted ids.upcoming message with
  | .ok stored =>
      (answer, Store.placed { store with ids := ids } message stored)
  | .error fault => (.refused fault, store)

theorem serve_append_eq
    {store : Store}
    (intact : store.Intact)
    (ids : IdSource)
    (message : Message) :
    serve limits settings store (.append ids message) =
      put
        (.appended
          ((message.identified ids.upcoming).moved (store.next message.home)))
        ids (message.moved (store.next message.home)) store := by
  have sound := (intact.withIds ids).logs
  have next : Store.next { store with ids := ids } message.home =
      store.next message.home :=
    rfl
  unfold serve put
  dsimp only
  rw [sound.append_eq, next]
  cases Log.admitted ids.upcoming (message.moved (store.next message.home)) <;>
    rfl

theorem serve_place_eq
    {store : Store}
    (intact : store.Intact)
    (ids : IdSource)
    (message : Message) :
    serve limits settings store (.place ids message) =
      put
        (.placed
          (if Log.Holds store.keyspace message.home message.offset then
            .duplicate
          else .applied)) ids message store := by
  have sound := (intact.withIds ids).logs
  unfold serve put
  dsimp only
  rw [sound.place_eq]
  cases Log.admitted ids.upcoming message <;> rfl

/-- A message changes the journal of its partition and no other. -/
theorem journal_put_other
    {store : Store}
    (intact : store.Intact)
    (answer : Answer)
    (ids : IdSource)
    {message : Message}
    {home : PartitionKey}
    (other : message.home ≠ home) :
    (put answer ids message store).2.journal home = store.journal home := by
  unfold put
  cases admits : Log.admitted ids.upcoming message with
  | error fault => rfl
  | ok stored =>
      have sound := (intact.withIds ids).logs
      exact (sound.journal_placed admits home).trans (if_neg other.symm)

variable {first second : Store}

/-- What a message does to the journal of its partition depends on that journal
alone. -/
theorem put_congr
    (intactFirst : first.Intact)
    (intactSecond : second.Intact)
    (answer : Answer)
    (ids : IdSource)
    {message : Message}
    {home : PartitionKey}
    (here : message.home = home)
    (same : first.journal home = second.journal home) :
    (put answer ids message first).2.journal home =
      (put answer ids message second).2.journal home ∧
    (put answer ids message first).1 = (put answer ids message second).1 := by
  unfold put
  cases admits : Log.admitted ids.upcoming message with
  | error fault => exact ⟨same, rfl⟩
  | ok stored =>
      have soundFirst := (intactFirst.withIds ids).logs
      have soundSecond := (intactSecond.withIds ids).logs
      refine ⟨(soundFirst.journal_placed admits home).trans ?_, rfl⟩
      refine Eq.trans ?_ (soundSecond.journal_placed admits home).symm
      rw [if_pos here.symm, if_pos here.symm]
      exact congrArg (Journal.place · _ stored) same

/-- A partition is shut off from the rest. -/
theorem shutOff_log
    (limits : Limits)
    (settings : Queue.Settings)
    (home : PartitionKey) :
    ShutOff (serve limits settings) Store.Intact Request.IsPlain
      (Store.journal · home) (Part.log home).hears
      (Part.log home).concerns where
  keep := intact_serve limits settings
  heard := Part.concerns_of_hears
  aside := by
    intro store request intact plain unconcerned
    by_cases own : request.area = .logs
    · cases request with
      | append ids message =>
          rw [serve_append_eq intact]
          exact journal_put_other intact _ ids (of_decide_eq_false unconcerned)
      | place ids message =>
          rw [serve_place_eq intact]
          exact journal_put_other intact _ ids (of_decide_eq_false unconcerned)
      | restart ids =>
          unfold serve
          dsimp only
          rw [intact.logs.reopened_eq]
          rfl
      | _ => cases own
    · exact journal_serve intact request own home
  within := by
    intro first second request intactFirst intactSecond plain concerned same
    cases request with
    | append ids message =>
        have here : message.home = home := of_decide_eq_true concerned
        subst here
        have next : first.next message.home = second.next message.home :=
          congrArg (fun journal : Journal => journal.next?.getD 0) same
        rw [serve_append_eq intactFirst, serve_append_eq intactSecond, next]
        rcases put_congr intactFirst intactSecond _ ids
          (rfl : (message.moved (second.next message.home)).home = message.home)
            same with
          ⟨after, answer⟩
        exact ⟨after, fun _ => answer⟩
    | place ids message =>
        have here : message.home = home := of_decide_eq_true concerned
        subst here
        have taken : Log.Holds first.keyspace message.home message.offset =
            Log.Holds second.keyspace message.home message.offset :=
          congrArg
            (fun journal : Journal =>
              ((journal.contents message.offset).isSome : Prop)) same
        rw [serve_place_eq intactFirst, serve_place_eq intactSecond]
        simp only [taken]
        rcases put_congr intactFirst intactSecond _ ids rfl same with
          ⟨after, answer⟩
        exact ⟨after, fun _ => answer⟩
    | _ => exact absurd concerned Bool.false_ne_true

/-! ## Reading positions -/

/-- What is stored for a position. -/
def positionContent
    (group : String)
    (home : PartitionKey)
    (store : Store) :
    Option Bytes :=
  store.keyspace.get? (Key.cursor group home).bytes

/-- Requests of other areas leave all positions as they are. -/
theorem positionContent_serve
    {store : Store}
    (intact : store.Intact)
    (request : Request)
    (elsewhere : request.area ≠ .cursors)
    (group : String)
    (home : PartitionKey) :
    positionContent group home (serve limits settings store request).2 =
      positionContent group home store :=
  confined_serve intact (.cursor group home) elsewhere.symm

/-- A position is shut off from the rest. -/
theorem shutOff_cursor
    (limits : Limits)
    (settings : Queue.Settings)
    (group : String)
    (home : PartitionKey) :
    ShutOff (serve limits settings) Store.Intact Request.IsPlain
      (positionContent group home) (Part.cursor group home).hears
      (Part.cursor group home).concerns where
  keep := intact_serve limits settings
  heard := Part.concerns_of_hears
  aside := by
    intro store request intact plain unconcerned
    by_cases own : request.area = .cursors
    · cases request with
      | commit group' home' offset =>
          have other : ¬ (group' = group ∧ home' = home) :=
            of_decide_eq_false unconcerned
          have free : ':' ∉ home'.topic.toList :=
            plain home'.topic (by simp [Request.names])
          unfold serve
          dsimp only
          split
          · rename_i done
            rcases Cursor.commit_eq_ok_iff.1 done with ⟨named, rfl⟩
            refine (Keyspace.get?_insert_key _ (Cursor.isPlain named free) _
              _).trans (if_neg ?_)
            rintro ⟨⟩
            exact other ⟨rfl, rfl⟩
          · rfl
      | _ => cases own
    · exact positionContent_serve intact request own group home
  within := by
    intro first second request intactFirst intactSecond plain concerned same
    cases request with
    | commit group' home' offset =>
        rcases (of_decide_eq_true concerned : group' = group ∧ home' = home)
          with ⟨rfl, rfl⟩
        unfold serve Cursor.commit
        dsimp only
        cases limits.checkName "group" group' with
        | error fault => exact ⟨same, fun _ => rfl⟩
        | ok _ =>
            refine ⟨?_, fun _ => rfl⟩
            have set : ∀ store : Store,
                positionContent group' home'
                { store with keyspace :=
                  store.keyspace.setCounter (.cursor group' home') offset } =
                some (Record.ofCounter offset) :=
              fun store =>
                (OrderedMap.get?_insert _ _ _ _).trans (if_pos rfl)
            exact (set first).trans (set second).symm
    | _ => exact absurd concerned Bool.false_ne_true

/-! ## Queues -/

open Queue (Machine)

/-- The answer of a machine to a request; it does nothing about requests that
are not of queues. -/
def describe
    (settings : Queue.Settings)
    (machine : Machine) :
    Request → Answer × Machine
  | .queue operation =>
      let (answer, after) := machine.perform settings operation
      (.queue answer, after)
  | _ => (.done, machine)

/-- The machine after requests. -/
def machineAfter
    (settings : Queue.Settings)
    (machine : Machine)
    (requests : List Request) :
    Machine :=
  requests.foldl (fun before request => (describe settings before request).2)
    machine

/-- No queue sees as many messages as there are generations. -/
def HasRoom (settings : Queue.Settings) (requests : List Request) : Prop :=
  (machineAfter settings .empty requests).HasRoom

instance
    (settings : Queue.Settings)
    (requests : List Request) :
    Decidable (HasRoom settings requests) :=
  inferInstanceAs (Decidable (Machine.HasRoom _))

variable {machine : Machine} {name : String}

theorem entered_describe_le
    (settings : Queue.Settings)
    (machine : Machine)
    (request : Request)
    (queue : String) :
    (machine.line queue).entered ≤
      ((describe settings machine request).2.line queue).entered := by
  cases request with
  | queue operation =>
      exact Machine.entered_perform_le settings machine operation queue
  | _ => exact Nat.le_refl _

theorem entered_machineAfter_le
    (settings : Queue.Settings)
    (machine : Machine)
    (requests : List Request)
    (queue : String) :
    (machine.line queue).entered ≤
      ((machineAfter settings machine requests).line queue).entered := by
  induction requests generalizing machine with
  | nil => exact Nat.le_refl _
  | cons request rest step =>
      exact Nat.le_trans (entered_describe_le settings machine request queue)
        (step _)

/-- Every request leaves a store that the machine describes, and those of a
queue are answered as the machine answers them. -/
theorem describes_serve
    (limits : Limits)
    (name : String)
    {store : Store}
    (intact : store.Intact)
    (describes : machine.Describes store.keyspace)
    {request : Request}
    (plain : request.IsPlain)
    (room : ∀ queue,
      ((describe settings machine request).2.line queue).entered <
        UInt64.size) :
    (describe settings machine request).2.Describes
      (serve limits settings store request).2.keyspace ∧
    ((Part.queue name).hears request = true →
      (serve limits settings store request).1 =
        (describe settings machine request).1) := by
  have legible := (intact_serve limits settings intact plain).logs.legible
  cases request with
  | queue operation =>
      have named : operation.IsPlain :=
        fun queue named => plain queue (Option.mem_toList.2 named)
      rcases describes.serve settings named room with ⟨answer, described⟩
      exact ⟨described, fun _ => congrArg Answer.queue answer⟩
  | _ => exact ⟨describes.confined (confined_serve intact) nofun legible, nofun⟩

/-- A queue is heard to answer as the line of the machine does.  Lines only
count up, so the room that is left at the end is left at every step. -/
theorem listen_describe
    (limits : Limits)
    (name : String)
    {store : Store}
    (intact : store.Intact)
    (describes : machine.Describes store.keyspace)
    {requests : List Request}
    (plain : ∀ request ∈ requests, request.IsPlain)
    (room : ∀ queue,
      ((machineAfter settings machine requests).line queue).entered <
        UInt64.size) :
    (listen (serve limits settings) (Part.queue name).hears store requests).1 =
      (listen (describe settings) (Part.queue name).hears machine requests).1 ∧
    (listen (describe settings) (Part.queue name).hears machine
        requests).2.Describes
      (listen (serve limits settings) (Part.queue name).hears store
        requests).2.keyspace := by
  induction requests generalizing store machine with
  | nil => exact ⟨rfl, describes⟩
  | cons request rest step =>
      rcases List.forall_mem_cons.1 plain with ⟨head, tail⟩
      have enough : ∀ queue,
          ((describe settings machine request).2.line queue).entered <
            UInt64.size :=
        fun queue =>
          Nat.lt_of_le_of_lt (entered_machineAfter_le settings _ rest queue)
            (room queue)
      rcases describes_serve limits name intact describes head enough with
        ⟨described, answers⟩
      rcases step (intact_serve limits settings intact head) described tail
          room with
        ⟨later, finish⟩
      refine ⟨?_, finish⟩
      simp only [listen, later]
      split
      · rename_i heard
        rw [answers heard]
      · rfl

/-- An operation on one queue leaves the lines of the others as they are. -/
theorem line_perform_other
    (settings : Queue.Settings)
    (machine : Machine)
    {operation : Queue.Operation}
    {queue : String}
    (named : operation.queue? = some queue)
    (other : some queue ≠ some name) :
    (machine.perform settings operation).2.line name = machine.line name := by
  have other : name ≠ queue := fun same => other (congrArg some same.symm)
  unfold Machine.perform
  cases operation with
  | enqueue fresh queue message =>
      cases named
      dsimp only
      split
      · exact (Machine.line_insert _ _ _ _).trans (if_neg other)
      · rfl
  | dequeue queue now =>
      cases named
      exact (Machine.line_insert _ _ _ _).trans (if_neg other)
  | acknowledge queue id =>
      cases named
      exact (Machine.line_insert _ _ _ _).trans (if_neg other)
  | sweep now => cases named

/-- A line of the machine is shut off from the rest. -/
theorem shutOff_line
    (settings : Queue.Settings)
    (name : String) :
    ShutOff (describe settings) (fun _ => True) (fun _ => True)
      (Machine.line · name) (Part.queue name).hears
      (Part.queue name).concerns where
  keep _ _ := trivial
  heard := Part.concerns_of_hears
  aside := by
    intro machine request _ _ unconcerned
    cases request with
    | queue operation =>
        show (machine.perform settings operation).2.line name =
          machine.line name
        cases operation with
        | sweep now => exact absurd unconcerned.symm Bool.false_ne_true
        | _ =>
            refine line_perform_other settings machine ?_
              (of_decide_eq_false unconcerned)
            rfl
    | _ => rfl
  within := by
    intro first second request _ _ _ concerned same
    have own : ∀ line other : Queue.Line, line = other →
        Machine.line (first.insert name line) name =
          Machine.line (second.insert name other) name := by
      rintro line _ rfl
      rw [Machine.line_insert, Machine.line_insert, if_pos rfl, if_pos rfl]
    cases request with
    | queue operation =>
        cases operation with
        | enqueue fresh queue message =>
            cases (of_decide_eq_true concerned : some queue = some name)
            unfold describe Machine.perform
            dsimp only
            split
            · exact ⟨own _ _ (by rw [same]), fun _ => rfl⟩
            · exact ⟨same, fun _ => rfl⟩
        | dequeue queue now =>
            cases (of_decide_eq_true concerned : some queue = some name)
            refine ⟨own _ _ (by rw [same]), fun _ => ?_⟩
            simp only [describe, Machine.perform, same]
        | acknowledge queue id =>
            cases (of_decide_eq_true concerned : some queue = some name)
            exact ⟨own _ _ (by rw [same]), fun _ => rfl⟩
        | sweep now =>
            refine ⟨?_, nofun⟩
            unfold describe Machine.perform
            dsimp only
            rw [Machine.line_sweep, Machine.line_sweep, same]
    | _ => exact absurd concerned Bool.false_ne_true

/-! ## The parts of a store -/

/-- Stores that agree on a journal show the same of the partition. -/
theorem alike_log
    {first second : Store}
    (intactFirst : first.Intact)
    (intactSecond : second.Intact)
    {home : PartitionKey}
    (same : first.journal home = second.journal home) :
    (Part.log home).Alike first second := by
  refine ⟨intactFirst.logs.read_congr intactSecond.logs same, ?_,
    congrArg Journal.next? same⟩
  rw [intactFirst.logs.endOffset_eq, intactSecond.logs.endOffset_eq, same]

/-- Stores that machines with the same line describe show the same of the
queue. -/
theorem alike_queue
    {first second : Store}
    {other : Machine}
    (describesFirst : machine.Describes first.keyspace)
    (describesSecond : other.Describes second.keyspace)
    (same : machine.line name = other.line name) :
    (Part.queue name).Alike first second := by
  have waits : Queue.waiting first.keyspace name =
      Queue.waiting second.keyspace name := by
    rw [describesFirst.waiting, describesSecond.waiting, same]
  refine ⟨waits, fun id => ?_, ?_, ?_⟩
  · rw [describesFirst.delivered, describesSecond.delivered, same]
  · rw [← describesFirst.sound.length_waiting,
      ← describesSecond.sound.length_waiting, waits]
  · rw [Queue.inFlightCount, describesFirst.expiries_eq, List.length_map,
      Queue.inFlightCount, describesSecond.expiries_eq, List.length_map, same]

/-- The store after requests. -/
def storeAfter
    (limits : Limits)
    (settings : Queue.Settings)
    (store : Store)
    (requests : List Request) :
    Store :=
  requests.foldl
    (fun before request => (serve limits settings before request).2) store

/-- A part of a store depends on nothing but the requests that concern it.  Two
runs from an empty store that agree on these, whatever else they ask for and in
whatever order, get the same answers from the part and leave it showing the
same; for a queue this takes that no queue runs out of generations, because a
sweep succeeds for all queues or for none. -/
theorem parts_apart
    (limits : Limits)
    (settings : Queue.Settings)
    (ids : IdSource)
    (part : Part)
    {first second : List Request}
    (plainFirst : ∀ request ∈ first, request.IsPlain)
    (plainSecond : ∀ request ∈ second, request.IsPlain)
    (room : ∀ name, part = .queue name →
      HasRoom settings first ∧ HasRoom settings second)
    (same : first.filter part.concerns = second.filter part.concerns) :
    (listen (serve limits settings) part.hears (.empty ids) first).1 =
      (listen (serve limits settings) part.hears (.empty ids) second).1 ∧
    part.Alike (storeAfter limits settings (.empty ids) first)
      (storeAfter limits settings (.empty ids) second) := by
  have start := Store.Intact.empty ids
  have intactFirst :=
    keep_listen (intact_serve limits settings) part.hears start plainFirst
  have intactSecond :=
    keep_listen (intact_serve limits settings) part.hears start plainSecond
  unfold storeAfter
  rw [← snd_listen _ part.hears, ← snd_listen _ part.hears]
  cases part with
  | log home =>
      rcases (shutOff_log limits settings home).listen_eq plainFirst plainSecond
          start same with
        ⟨answers, journals⟩
      exact ⟨answers, alike_log intactFirst intactSecond journals⟩
  | cursor group home =>
      rcases (shutOff_cursor limits settings group home).listen_eq plainFirst
        plainSecond start
        same with ⟨answers, contents⟩
      refine ⟨answers, ?_⟩
      unfold positionContent at contents
      unfold Part.Alike Cursor.position? Keyspace.counter?
      dsimp only
      rw [contents]
  | queue name =>
      rcases room name rfl with ⟨roomFirst, roomSecond⟩
      rcases listen_describe limits name start .empty plainFirst
          roomFirst.entered_lt with
        ⟨answersFirst, describesFirst⟩
      rcases listen_describe limits name start .empty plainSecond
          roomSecond.entered_lt with
        ⟨answersSecond, describesSecond⟩
      rcases (shutOff_line settings name).listen_eq (fun _ _ => trivial)
        (fun _ _ => trivial)
        trivial same with ⟨answers, lines⟩
      rw [answersFirst, answersSecond]
      exact ⟨answers, alike_queue describesFirst describesSecond lines⟩

/-- Requests of all areas, under names that begin alike. -/
def crowded : List Request :=
  [.catalog (.createTopic ⟨"q", 1, "u"⟩),
    .append (.series 0) { topic := "q", payload := [1] },
    .queue (.enqueue (.numbered 0 0) "q" { topic := "q", payload := [2] }),
    .queue (.enqueue (.numbered 0 1) "q-1" { topic := "q-1", payload := [3] }),
    .queue (.dequeue "q-1" 0), .queue (.dequeue "q" 0), .commit "q" ⟨"q", 0⟩ 1,
    .queue (.sweep 30001)]

/-- The same for the queue named `q`, and little else. -/
def lonely : List Request :=
  [.queue (.enqueue (.numbered 0 0) "q" { topic := "q", payload := [2] }),
    .place (.series 4) { topic := "q-1", offset := 3 }, .queue (.dequeue "q" 0),
    .queue (.sweep 30001)]

/-- The queue is returned its one message in both. -/
theorem parts_apart_crowded :
    (listen (serve {} {}) (Part.queue "q").hears (.empty (.series 9))
        crowded).1 =
      (listen (serve {} {}) (Part.queue "q").hears (.empty (.series 9))
        lonely).1 ∧
    (Part.queue "q").Alike (storeAfter {} {} (.empty (.series 9)) crowded)
      (storeAfter {} {} (.empty (.series 9)) lonely) ∧
    Queue.pendingCount (storeAfter {} {} (.empty (.series 9)) crowded).keyspace
        "q" =
      1 := by
  have plainFirst : ∀ request ∈ crowded, request.IsPlain := by decide
  have plainSecond : ∀ request ∈ lonely, request.IsPlain := by decide
  have room : HasRoom {} crowded ∧ HasRoom {} lonely :=
    ⟨by decide +kernel, by decide +kernel⟩
  rcases parts_apart {} {} (.series 9) (.queue "q") plainFirst plainSecond
    (fun _ _ => room) rfl
    with ⟨answers, alike⟩
  exact ⟨answers, alike, by decide +kernel⟩

end Interleaving

end MessageBroker
