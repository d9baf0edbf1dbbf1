import MessageBroker.Proofs.IntactStores

/-!
# Interleaved requests

A store serves requests to its logs, its queues, its catalog and its reading
positions, in any order.  A part of it is one partition, one queue, or one
position.  Every request is made of at most one part, except for a sweep, which
concerns all queues.

A part is shut off from the rest when the requests that concern it decide what
is seen of it.  Then two runs that agree on those requests cannot be told apart
by that part.
-/

namespace MessageBroker

/-! ## Two runs -/

section TwoRuns

variable {state request answer view : Type}

/-- The answers to some of the requests, first one first, and the state after
all of them. -/
def listen
    (step : state → request → answer × state)
    (hears : request → Bool)
    (start : state) :
    List request → List answer × state
  | [] => ([], start)
  | asked :: rest =>
      let (answer, next) := step start asked
      let (later, finish) := listen step hears next rest
      (if hears asked then answer :: later else later, finish)

/-- What is seen of a state depends only on the requests that concern it, and so
do the answers to those that are heard. -/
structure ShutOff
    (step : state → request → answer × state)
    (kept : state → Prop)
    (allowed : request → Prop)
    (seen : state → view)
    (hears concerns : request → Bool) :
    Prop where
  keep : ∀ {before asked}, kept before → allowed asked →
    kept (step before asked).2
  heard : ∀ {asked}, hears asked = true → concerns asked = true
  aside : ∀ {before asked}, kept before → allowed asked →
    concerns asked = false → seen (step before asked).2 = seen before
  within : ∀ {first second asked}, kept first → kept second → allowed asked →
    concerns asked = true → seen first = seen second →
      seen (step first asked).2 = seen (step second asked).2 ∧
        (hears asked = true → (step first asked).1 = (step second asked).1)

variable {step : state → request → answer × state} {kept : state → Prop}
  {allowed : request → Prop} {seen : state → view}
  {hears concerns : request → Bool}

/-- A run is as good as what is left of it when all other requests are
dropped. -/
theorem ShutOff.listen_filter
    (shut : ShutOff step kept allowed seen hears concerns)
    {requests : List request}
    (each : ∀ asked ∈ requests, allowed asked)
    {first second : state}
    (keptFirst : kept first)
    (keptSecond : kept second)
    (same : seen first = seen second) :
    (listen step hears first requests).1 =
      (listen step hears second (requests.filter concerns)).1 ∧
    seen (listen step hears first requests).2 =
      seen (listen step hears second (requests.filter concerns)).2 := by
  induction requests generalizing first second with
  | nil => exact ⟨rfl, same⟩
  | cons asked rest induct =>
      rcases List.forall_mem_cons.1 each with ⟨head, tail⟩
      have next := shut.keep keptFirst head
      by_cases concerned : concerns asked = true
      · rcases shut.within keptFirst keptSecond head concerned same with
          ⟨after, answers⟩
        rcases induct tail next (shut.keep keptSecond head) after with
          ⟨later, finish⟩
        rw [List.filter_cons_of_pos concerned]
        refine ⟨?_, finish⟩
        simp only [listen, later]
        split
        · rename_i heard
          rw [answers heard]
        · rfl
      · have unheard : ¬ hears asked = true :=
          fun heard => concerned (shut.heard heard)
        have after := shut.aside keptFirst head (Bool.eq_false_iff.2 concerned)
        rw [List.filter_cons_of_neg concerned]
        simp only [listen, if_neg unheard]
        exact induct tail next keptSecond (after.trans same)

/-- Two runs that agree on the requests that concern a part cannot be told apart
there. -/
theorem ShutOff.listen_eq
    (shut : ShutOff step kept allowed seen hears concerns)
    {first second : List request}
    (eachFirst : ∀ asked ∈ first, allowed asked)
    (eachSecond : ∀ asked ∈ second, allowed asked)
    {start : state}
    (keptStart : kept start)
    (same : first.filter concerns = second.filter concerns) :
    (listen step hears start first).1 = (listen step hears start second).1 ∧
    seen (listen step hears start first).2 =
      seen (listen step hears start second).2 := by
  rcases shut.listen_filter eachFirst keptStart keptStart rfl with
    ⟨answers, finish⟩
  rcases shut.listen_filter eachSecond keptStart keptStart rfl with
    ⟨answers', finish'⟩
  rw [answers, finish, same]
  exact ⟨answers'.symm, finish'.symm⟩

/-- What is left at the end does not depend on what is heard. -/
theorem snd_listen
    (step : state → request → answer × state)
    (hears : request → Bool)
    (start : state)
    (requests : List request) :
    (listen step hears start requests).2 =
      requests.foldl (fun before asked => (step before asked).2) start := by
  induction requests generalizing start with
  | nil => rfl
  | cons asked rest induct => exact induct _

theorem keep_listen
    (keep : ∀ {before asked}, kept before → allowed asked →
      kept (step before asked).2)
    (hears : request → Bool)
    {start : state}
    (keptStart : kept start)
    {requests : List request}
    (each : ∀ asked ∈ requests, allowed asked) :
    kept (listen step hears start requests).2 := by
  induction requests generalizing start with
  | nil => exact keptStart
  | cons asked rest induct =>
      rcases List.forall_mem_cons.1 each with ⟨head, tail⟩
      exact induct (keep keptStart head) tail

end TwoRuns

namespace Interleaving

/-! ## Requests -/

/-- What is asked of a store.  Ids are generated elsewhere and come with the
request. -/
inductive Request where
  /-- Store a message at the end of its partition. -/
  | append (ids : IdSource) (message : Message)
  /-- Store a message at the offset it has. -/
  | place (ids : IdSource) (message : Message)
  /-- An operation on queues. -/
  | queue (operation : Queue.Operation)
  /-- An operation on the catalog. -/
  | catalog (operation : Catalog.Operation)
  /-- Set the position of a group in a partition. -/
  | commit (group : String) (home : PartitionKey) (offset : Offset)
  /-- Close the store and open it again. -/
  | restart (ids : IdSource)

namespace Request

/-- The partitions and queues that a request names. -/
def names : Request → List String
  | .append _ message | .place _ message => [message.topic]
  | .queue operation => operation.queue?.toList
  | .commit _ home _ => [home.topic]
  | .catalog _ | .restart _ => []

/-- The names hold no colon. -/
def IsPlain (request : Request) : Prop :=
  ∀ name ∈ request.names, ':' ∉ name.toList

instance (request : Request) : Decidable request.IsPlain :=
  inferInstanceAs (Decidable (∀ name ∈ request.names, ':' ∉ name.toList))

/-- The area in which a request may change records. -/
def area : Request → Area
  | .append .. | .place .. | .restart _ => .logs
  | .queue _ => .queues
  | .catalog _ => .catalog
  | .commit .. => .cursors

end Request

/-- What is answered. -/
inductive Answer where
  /-- A message as it was appended, with its offset. -/
  | appended (message : Message)
  /-- Whether a message was stored or found already there. -/
  | placed (outcome : Log.Outcome)
  /-- The answer of the queues. -/
  | queue (answer : Queue.Answer)
  /-- The answer of the catalog. -/
  | catalog (answer : Except Error Catalog.Answer)
  /-- It is done. -/
  | done
  /-- Nothing was done. -/
  | refused (fault : Error)

/-- The answer to a request, and the store after it; one that is refused changes
nothing. -/
def serve
    (limits : Limits)
    (settings : Queue.Settings)
    (store : Store) :
    Request → Answer × Store
  | .append ids message =>
      match { store with ids := ids }.append message with
      | .ok (stored, after) => (.appended stored, after)
      | .error fault => (.refused fault, store)
  | .place ids message =>
      match { store with ids := ids }.place message with
      | .ok (outcome, after) => (.placed outcome, after)
      | .error fault => (.refused fault, store)
  | .queue operation =>
      let (answer, keyspace) := Queue.serve settings store.keyspace operation
      (.queue answer, { store with keyspace := keyspace })
  | .catalog operation =>
      let (answer, keyspace) := Catalog.serve limits store.keyspace operation
      (.catalog answer, { store with keyspace := keyspace })
  | .commit group home offset =>
      match Cursor.commit store.keyspace limits group home offset with
      | .ok keyspace => (.done, { store with keyspace := keyspace })
      | .error fault => (.refused fault, store)
  | .restart ids => (.done, store.reopened ids)

/-! ## Parts -/

/-- A part of a store. -/
inductive Part where
  /-- The log of a partition. -/
  | log (home : PartitionKey)
  /-- A queue. -/
  | queue (name : String)
  /-- The position of a group in a partition. -/
  | cursor (group : String) (home : PartitionKey)

namespace Part

/-- Whether a request is made of a part. -/
def hears : Part → Request → Bool
  | .log home, .append _ message
  | .log home, .place _ message => message.home = home
  | .queue name, .queue operation => operation.queue? = some name
  | .cursor group home, .commit group' home' _ => group' = group ∧ home' = home
  | _, _ => false

/-- Whether a request is made of a part or is a sweep, which is made of all
queues. -/
def concerns : Part → Request → Bool
  | .queue _, .queue (.sweep _) => true
  | part, request => part.hears request

/-- Two stores show the same of a part: the same messages in every window of a
partition, and the same end of it, stored and remembered; the same messages
waiting in a queue and handed out from it, and the same counts of them; the same
position. -/
def Alike : Part → Store → Store → Prop
  | .log home, first, second =>
      (∀ window most budget, Log.read first.keyspace home window most budget =
        Log.read second.keyspace home window most budget) ∧
      Log.endOffset first.keyspace home = Log.endOffset second.keyspace home ∧
      first.ends.get? home = second.ends.get? home
  | .queue name, first, second =>
      Queue.waiting first.keyspace name = Queue.waiting second.keyspace name ∧
      (∀ id, Queue.delivered? first.keyspace name id =
        Queue.delivered? second.keyspace name id) ∧
      Queue.pendingCount first.keyspace name =
        Queue.pendingCount second.keyspace name ∧
      Queue.inFlightCount first.keyspace name =
        Queue.inFlightCount second.keyspace name
  | .cursor group home, first, second =>
      Cursor.position? first.keyspace group home =
        Cursor.position? second.keyspace group home

end Part

variable {limits : Limits} {settings : Queue.Settings} {store : Store}
  {request : Request}

/-- A part is heard only where it is concerned. -/
theorem Part.concerns_of_hears
    {part : Part}
    (heard : part.hears request = true) :
    part.concerns request = true := by
  unfold Part.concerns
  split
  · rfl
  · exact heard

/-! ## Every request -/

theorem intact_serve
    (limits : Limits)
    (settings : Queue.Settings)
    (intact : store.Intact)
    (plain : request.IsPlain) :
    (serve limits settings store request).2.Intact := by
  unfold serve
  cases request with
  | append ids message =>
      have free : ':' ∉ message.topic.toList :=
        plain message.topic (by simp [Request.names])
      dsimp only
      split
      · rename_i done
        exact (intact.withIds ids).append free done
      · exact intact
  | place ids message =>
      have free : ':' ∉ message.topic.toList :=
        plain message.topic (by simp [Request.names])
      dsimp only
      split
      · rename_i done
        exact (intact.withIds ids).place free done
      · exact intact
  | queue operation =>
      exact intact.serveQueues settings fun queue named =>
        plain queue (Option.mem_toList.2 named)
  | catalog operation => exact intact.serveCatalog limits operation
  | commit group home offset =>
      have free : ':' ∉ home.topic.toList :=
        plain home.topic (by simp [Request.names])
      dsimp only
      split
      · rename_i done
        exact intact.commit free done
      · exact intact
  | restart ids => exact intact.reopened ids

/-- Requests of one area change no records of another. -/
theorem confined_serve (intact : store.Intact) :
    Keyspace.Confined request.area store.keyspace
      (serve limits settings store request).2.keyspace := by
  unfold serve
  cases request with
  | append ids message =>
      dsimp only
      split
      · rename_i done
        rcases (intact.withIds ids).logs.append done with ⟨_, _, placed⟩
        have confined := Store.confined_place placed
        exact confined
      · exact .refl _ _
  | place ids message =>
      dsimp only
      split
      · rename_i done
        have confined := Store.confined_place done
        exact confined
      · exact .refl _ _
  | queue operation =>
      exact Queue.confined_serve settings store.keyspace operation
  | catalog operation =>
      exact Catalog.confined_serve limits store.keyspace operation
  | commit group home offset =>
      dsimp only
      split
      · rename_i done
        exact Cursor.confined_commit done
      · exact .refl _ _
  | restart ids =>
      dsimp only
      rw [intact.logs.reopened_eq]
      exact .refl _ _

theorem ends_serve (elsewhere : request.area ≠ .logs) :
    (serve limits settings store request).2.ends = store.ends := by
  unfold serve
  cases request with
  | append => exact absurd rfl elsewhere
  | place => exact absurd rfl elsewhere
  | restart => exact absurd rfl elsewhere
  | queue => rfl
  | catalog => rfl
  | commit =>
      dsimp only
      split <;> rfl

end Interleaving

end MessageBroker
