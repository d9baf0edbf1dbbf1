import MessageBroker.Medium
import MessageBroker.Proofs.Attempts
import MessageBroker.Proofs.IdOrder
import MessageBroker.Proofs.KeyLayout

/-!
# Operations within the bounds of the medium

An operation that is held to the bounds of the medium is the operation itself
wherever the medium takes the keys that it hands over.  Everywhere else it
breaks off at a key that is refused, and what was there stays as it was.  Which
keys an operation hands over is said operation by operation; they depend on how
far it comes, since one that fails early hands over no further key.

A key is never empty, and where every name in it is short, the medium takes it.
So a node that admits short names only never meets the bounds at all, and there
the operations are the ones that all other modules are about.
-/

namespace MessageBroker.Medium

/-! ## Keys -/

/-- The medium takes a key. -/
def Takes (key : Bytes) : Prop :=
  key ≠ [] ∧ key.length ≤ longestKey

/-- The medium takes a key to look up; without entries there is no need to. -/
def LooksUp (keyspace : Keyspace) (key : Key) : Prop :=
  keyspace.entries = [] ∨ Takes key.bytes

/-- The medium takes the key that a scan of a window starts from; an empty scan
has none. -/
def Scans (home : PartitionKey) (window : Log.Window) (most : Nat) : Prop :=
  (most = 0 ∨ window.isEmpty) ∨ Takes (Key.message home window.start).bytes

/-- The most bytes of a name that fits every key. -/
def longestName : Nat := 32748

theorem length_ofText_id (id : MessageId) :
    (Bytes.ofText id.text).length = 36 := by
  rw [MessageId.ofText_text]
  simp [Hex.length_spelled, id.length_bytes]

theorem length_bytes_le
    {key : Key}
    {most : Nat}
    (short : ∀ name ∈ key.names, name.utf8ByteSize ≤ most) :
    key.bytes.length ≤ 2 * most + 39 := by
  rw [Key.bytes_eq_cons]
  cases key
  all_goals
    simp only [Key.names, List.forall_mem_cons] at short
    simp only [Key.parts, Bytes.joined, List.length_cons, List.length_append,
      Key.length_partitionDigits, Key.length_longDigits, length_ofText_id]
    simp only [Bytes.length_ofText]
    omega

/-- The medium takes every key whose names are short. -/
theorem takes_of_short
    {key : Key}
    (short : ∀ name ∈ key.names, name.utf8ByteSize ≤ longestName) :
    Takes key.bytes := by
  constructor
  · rw [Key.bytes_eq_cons]
    exact List.cons_ne_nil _ _
  · exact length_bytes_le short

theorem size_le_of_checkName
    {limits : Limits}
    {kind name : String}
    (passes : limits.checkName kind name = .ok ()) :
    name.utf8ByteSize ≤ limits.nameBytes.toNat := by
  unfold Limits.checkName at passes
  split at passes
  · cases passes
  split at passes
  · cases passes
  · rename_i _ within
    exact Nat.not_lt.1 within

/-- Where the limits keep names short, the medium takes every key whose names
are acceptable. -/
theorem takes_of_checkName
    {limits : Limits}
    (small : limits.nameBytes.toNat ≤ longestName)
    {key : Key}
    (acceptable : ∀ name ∈ key.names, ∃ kind,
      limits.checkName kind name = .ok ()) :
    Takes key.bytes := by
  apply takes_of_short
  intro name inside
  obtain ⟨kind, passes⟩ := acceptable name inside
  exact Nat.le_trans (size_le_of_checkName passes) small

example : ({} : Limits).nameBytes.toNat ≤ longestName := by decide

theorem takes_stems_of_short
    {queue : String}
    (short : queue.utf8ByteSize ≤ longestName) :
    Takes (Bytes.ofText (Key.pendingOf queue)) ∧
    Takes (Bytes.ofText (Key.expiriesOf queue)) := by
  have sizes : "q:".utf8ByteSize = 2 ∧ Key.expiries.utf8ByteSize = 2 ∧
      ":".utf8ByteSize = 1 := by decide
  unfold longestName at short
  constructor
  all_goals
    rw [Takes, ← List.length_pos_iff, Bytes.length_ofText, longestKey]
    simp only [Key.pendingOf, Key.expiriesOf, String.utf8ByteSize_append, sizes]
    omega

/-! ## Attempts that are held to a condition -/

section Attempts

variable {result other : Type} {fits fits' : Prop}
  {operation bounded : Except Error result} {guard : Except Error Unit}

/-- An attempt breaks off at a key that the medium does not take. -/
def Refused (attempt : Except Error result) : Prop :=
  ∃ key, ¬ Takes key ∧ attempt = .error (.refusedKey key.length)

/-- An attempt that is held to a condition: where it is met, the attempt is the
operation, and elsewhere it breaks off. -/
structure HeldTo
    (fits : Prop)
    (operation bounded : Except Error result) :
    Prop where
  agrees : fits → bounded = operation
  refused : ¬ fits → Refused bounded

theorem HeldTo.congr
    (held : HeldTo fits operation bounded)
    (same : fits ↔ fits') :
    HeldTo fits' operation bounded :=
  ⟨fun met => held.agrees (same.2 met), fun unmet =>
    held.refused fun met => unmet (same.1 met)⟩

/-- Nothing is asked of an operation that hands over no key. -/
theorem HeldTo.free (operation : Except Error result) :
    HeldTo True operation operation :=
  ⟨fun _ => rfl, fun unmet => absurd trivial unmet⟩

/-- A step is taken as it is, and what follows is held to a condition on what it
finds. -/
theorem HeldTo.bind
    {step : Except Error other}
    {next bounded : other → Except Error result}
    {fits : other → Prop}
    (later : ∀ found, HeldTo (fits found) (next found) (bounded found)) :
    HeldTo (∀ found, step = .ok found → fits found) (step >>= next)
      (step >>= bounded) := by
  cases step with
  | error fault =>
      refine ⟨fun _ => rfl, fun unmet => absurd ?_ unmet⟩
      intro found none
      cases none
  | ok found =>
      refine ⟨fun met => (later found).agrees (met found rfl), fun unmet => ?_⟩
      refine (later found).refused fun met => unmet ?_
      intro other same
      cases same
      exact met

/-- A check of keys comes first. -/
theorem HeldTo.after
    (guarded : HeldTo fits (.ok ()) guard)
    (later : HeldTo fits' operation bounded) :
    HeldTo (fits ∧ fits') operation (guard >>= fun _ => bounded) := by
  by_cases met : fits
  · rw [guarded.agrees met]
    exact later.congr (by simp [met])
  · obtain ⟨key, untaken, breaks⟩ := guarded.refused met
    refine ⟨fun both => absurd both.1 met, fun _ => ⟨key, untaken, ?_⟩⟩
    rw [breaks]
    rfl

theorem HeldTo.guarded
    (guarded : HeldTo fits (.ok ()) guard)
    (operation : Except Error result) :
    HeldTo fits operation (guard >>= fun _ => operation) :=
  (guarded.after (.free operation)).congr (and_iff_left trivial)

/-- A check of keys comes last, and what was found is passed on. -/
theorem HeldTo.before
    {guard : result → Except Error Unit}
    {fits : result → Prop}
    (guarded : ∀ found, HeldTo (fits found) (.ok ()) (guard found))
    (operation : Except Error result) :
    HeldTo (∀ found, operation = .ok found → fits found) operation
      (operation >>= fun found => guard found >>= fun _ => .ok found) := by
  have same : (operation >>= fun found => .ok found) = operation := by
    cases operation <;> rfl
  have held : HeldTo _ (operation >>= fun found => .ok found)
      (operation >>= fun found => guard found >>= fun _ => .ok found) :=
    .bind fun found => (guarded found).guarded (.ok found)
  rwa [same] at held

/-- Every element of a list is checked. -/
theorem HeldTo.forM
    {element : Type}
    {guard : element → Except Error Unit}
    {fits : element → Prop}
    (guarded : ∀ found, HeldTo (fits found) (.ok ()) (guard found))
    (elements : List element) :
    HeldTo (∀ found ∈ elements, fits found) (.ok ()) (elements.forM guard) := by
  induction elements with
  | nil => exact (HeldTo.free (.ok ())).congr (by simp)
  | cons first rest step =>
      exact ((guarded first).after step).congr List.forall_mem_cons.symm

theorem HeldTo.map
    (held : HeldTo fits operation bounded)
    (change : result → other) :
    HeldTo fits (operation.map change) (bounded.map change) := by
  refine ⟨fun met => by rw [held.agrees met], fun unmet => ?_⟩
  obtain ⟨key, untaken, breaks⟩ := held.refused unmet
  exact ⟨key, untaken, by rw [breaks]; rfl⟩

end Attempts

/-! ## Checks -/

theorem check_held (key : Bytes) : HeldTo (Takes key) (.ok ()) (check key) := by
  by_cases taken : Takes key
  · refine ⟨fun _ => if_neg ?_, fun untaken => absurd taken untaken⟩
    rw [List.isEmpty_iff]
    exact not_or.2 ⟨taken.1, Nat.not_lt.2 taken.2⟩
  · refine ⟨fun met => absurd met taken, fun _ => ⟨key, taken, if_pos ?_⟩⟩
    rw [List.isEmpty_iff]
    exact (Classical.not_and_iff_not_or_not.1 taken).imp
      Classical.not_not.1 Nat.not_le.1

theorem isOk_check_iff {key : Bytes} : (check key).isOk ↔ Takes key := by
  have held := check_held key
  constructor
  · intro passes
    by_contra untaken
    obtain ⟨_, _, breaks⟩ := held.refused untaken
    rw [breaks] at passes
    cases passes
  · intro taken
    rw [held.agrees taken]
    rfl

theorem checkLookup_held
    (keyspace : Keyspace)
    (key : Key) :
    HeldTo (LooksUp keyspace key) (.ok ()) (checkLookup keyspace key) := by
  unfold checkLookup LooksUp
  by_cases empty : keyspace.entries = []
  · rw [if_pos (List.isEmpty_iff.2 empty)]
    exact (HeldTo.free _).congr (by simp [empty])
  · rw [if_neg (fun none => empty (List.isEmpty_iff.1 none))]
    exact (check_held _).congr (by simp [empty])

theorem checkWindow_held
    (home : PartitionKey)
    (window : Log.Window)
    (most : Nat) :
    HeldTo (Scans home window most) (.ok ())
      (checkWindow home window most) := by
  unfold checkWindow Scans
  by_cases empty : most = 0 ∨ window.isEmpty
  · rw [if_pos empty]
    exact (HeldTo.free _).congr (by simp [empty])
  · rw [if_neg empty]
    exact (check_held _).congr (by simp only [empty, false_or])

theorem checkStem_held (stem : String) :
    HeldTo (Takes (Bytes.ofText stem)) (.ok ()) (checkStem stem) :=
  check_held _

theorem checkAll_held (keyspace : Keyspace) :
    HeldTo (∀ entry ∈ keyspace.entries, Takes entry.1) (.ok ())
      (checkAll keyspace) :=
  .forM (fun entry => check_held entry.1) keyspace.entries

/-! ## What an attempt leaves -/

/-- The medium takes all keys of a store. -/
def Taken (store : Store) : Prop :=
  ∀ entry ∈ store.keyspace.entries, Takes entry.1

/-- What is there after an attempt: what it leaves, where the medium takes all
of that, and else what was there before. -/
def settled (before : Store) (attempt : Except Error Store) : Store :=
  match attempt with
  | .error _ => before
  | .ok after =>
      match checkAll after.keyspace with
      | .error _ => before
      | .ok () => after

variable {fits : Prop} {operation bounded : Except Error Store}
  {before after : Store}

theorem settled_ok (taken : Taken after) :
    settled before (.ok after) = after := by
  rw [settled, (checkAll_held after.keyspace).agrees taken]

theorem settled_of_untaken (untaken : ¬ Taken after) :
    settled before (.ok after) = before := by
  obtain ⟨_, _, breaks⟩ := (checkAll_held after.keyspace).refused untaken
  rw [settled, breaks]

theorem settled_of_refused (refused : Refused bounded) :
    settled before bounded = before := by
  obtain ⟨_, _, rfl⟩ := refused
  rfl

/-- An operation that is held to a condition leaves what the operation itself
leaves where the condition is met, and changes nothing elsewhere. -/
theorem HeldTo.settled
    (held : HeldTo fits operation bounded)
    [Decidable fits]
    (before : Store) :
    settled before bounded =
      if fits then settled before operation else before := by
  split
  · rename_i met
    rw [held.agrees met]
  · rename_i unmet
    exact settled_of_refused (held.refused unmet)

/-- No attempt leaves a key that the medium does not take. -/
theorem taken_settled
    (taken : Taken before)
    (attempt : Except Error Store) :
    Taken (Medium.settled before attempt) := by
  cases attempt with
  | error fault => exact taken
  | ok after =>
      by_cases all : Taken after
      · rw [settled_ok all]
        exact all
      · rw [settled_of_untaken all]
        exact taken

/-- However many attempts are made, all keys are ones that the medium takes. -/
theorem taken_run
    (attempts : List (Store → Except Error Store))
    {start : Store}
    (taken : Taken start) :
    Taken
      (attempts.foldl
        (fun store attempt => Medium.settled store (attempt store)) start) := by
  induction attempts generalizing start with
  | nil => exact taken
  | cons attempt rest step => exact step (taken_settled taken (attempt start))

/-! ## Logs -/

theorem append_held
    (store : Store)
    (message : Message) :
    HeldTo (LooksUp store.keyspace (.nextOffset message.home))
      (store.append message) (append store message) :=
  (checkLookup_held _ _).guarded _

theorem endOffset_held
    (keyspace : Keyspace)
    (home : PartitionKey) :
    HeldTo (LooksUp keyspace (.nextOffset home)) (Log.endOffset keyspace home)
      (endOffset keyspace home) :=
  (checkLookup_held _ _).guarded _

theorem read_held
    (keyspace : Keyspace)
    (home : PartitionKey)
    (window : Log.Window)
    (most : Nat)
    (budget : Option Nat) :
    HeldTo (Scans home window most) (Log.read keyspace home window most budget)
      (read keyspace home window most budget) :=
  (checkWindow_held _ _ _).guarded _

theorem range_held
    (limits : Limits)
    (keyspace : Keyspace)
    (home : PartitionKey)
    (window : Log.Window) :
    HeldTo (Scans home window (Replica.pageMessages limits window))
      (Replica.range limits keyspace home window)
      (range limits keyspace home window) :=
  (checkWindow_held _ _ _).guarded _

/-- Only a request for a window hands over a key of its own. -/
theorem handle_held
    (limits : Limits)
    (store : Store)
    (request : Request) :
    HeldTo
      (∀ home window, request = .range home window →
        Scans home window (Replica.pageMessages limits window))
      (.ok (Replica.handle limits store request))
      (handle limits store request) := by
  cases request with
  | range home window =>
      refine ((checkWindow_held home window _).guarded _).congr ?_
      constructor
      · rintro scans _ _ ⟨⟩
        exact scans
      · exact fun all => all home window rfl
  | replicate batch => exact (HeldTo.free _).congr (by simp)
  | ping => exact (HeldTo.free _).congr (by simp)

theorem caughtUp_held
    (home : PartitionKey)
    (window : Log.Window)
    (result : Except Error CatchUp.Report) :
    HeldTo (∀ report, result = .ok report → Scans home window 1) result
      (caughtUp home window result) :=
  .before (fun _ => checkWindow_held home window 1) result

/-- A reconciliation scans every partition of the catalog from the start. -/
theorem reconciled_held
    (keyspace : Keyspace)
    (report : Reconciliation.Report) :
    HeldTo
      (report.peer.isSome →
        ∀ topic ∈ (Catalog.topics keyspace).toOption.getD [],
          Scans ⟨topic.name, 0⟩ ⟨0, none⟩ topic.partitions.toNat) (.ok report)
      (reconciled keyspace report) := by
  unfold reconciled
  cases report.peer.isSome with
  | false => exact (HeldTo.free _).congr (by simp)
  | true =>
      refine (HeldTo.guarded (.forM (fun topic : Catalog.Topic =>
        checkWindow_held ⟨topic.name, 0⟩ ⟨0, none⟩ topic.partitions.toNat) _)
        (.ok report)).congr ?_
      simp

/-! ## Broadcasts -/

/-- A batch that the medium takes is sent as it is. -/
theorem broadcast_of_takes
    {World : Type}
    (fanout : Fanout World)
    {batch : List Message}
    (takes : ∀ message ∈ batch,
      Takes (Key.message message.home message.offset).bytes)
    (world : World) :
    broadcast fanout batch world = fanout.broadcast batch world :=
  if_pos (List.all_eq_true.2 fun message inside =>
    isOk_check_iff.2 (takes message inside))

/-- No peer acknowledges another batch, and each is sent what comes before the
first message that is refused. -/
theorem broadcast_of_refused
    {World : Type}
    (fanout : Fanout World)
    {front rest : List Message}
    {refused : Message}
    (takes : ∀ message ∈ front,
      Takes (Key.message message.home message.offset).bytes)
    (untaken : ¬ Takes (Key.message refused.home refused.offset).bytes)
    (world : World) :
    broadcast fanout (front ++ refused :: rest) world =
      (⟨fanout.peers.length, []⟩, (fanout.broadcast front world).2) := by
  let isTaken (message : Message) :=
    (check (Key.message message.home message.offset).bytes).isOk
  have stops : ¬ isTaken refused := fun passes =>
    untaken (isOk_check_iff.1 passes)
  have sent : (front ++ refused :: rest).takeWhile isTaken = front := by
    rw [List.takeWhile_append_of_pos
      (fun message inside => isOk_check_iff.2 (takes message inside)),
      List.takeWhile_cons_of_neg stops, List.append_nil]
  have some : ¬ (front ++ refused :: rest).all isTaken := fun all =>
    stops (List.all_eq_true.1 all refused
      (List.mem_append_right _ List.mem_cons_self))
  rw [broadcast, if_neg some, sent]

/-! ## Queues -/

theorem dequeue_held
    (keyspace : Keyspace)
    (settings : Queue.Settings)
    (queue : String)
    (now : UInt64) :
    HeldTo (Takes (Bytes.ofText (Key.pendingOf queue)))
      (Queue.dequeue keyspace settings queue now)
      (dequeue keyspace settings queue now) :=
  (checkStem_held _).guarded _

theorem acknowledge_held
    (keyspace : Keyspace)
    (queue : String)
    (id : MessageId) :
    HeldTo (Takes (Key.expiry queue id).bytes)
      (.ok (Queue.acknowledge keyspace queue id))
      (acknowledge keyspace queue id) :=
  (check_held _).guarded _

theorem pendingCount_held
    (keyspace : Keyspace)
    (queue : String) :
    HeldTo (Takes (Bytes.ofText (Key.pendingOf queue)))
      (.ok (Queue.pendingCount keyspace queue)) (pendingCount keyspace queue) :=
  (checkStem_held _).guarded _

theorem inFlightCount_held
    (keyspace : Keyspace)
    (queue : String) :
    HeldTo (Takes (Bytes.ofText (Key.expiriesOf queue)))
      (.ok (Queue.inFlightCount keyspace queue))
      (inFlightCount keyspace queue) :=
  (checkStem_held _).guarded _

/-! ## The catalog and positions -/

theorem topic_held
    (keyspace : Keyspace)
    (name : String) :
    HeldTo (LooksUp keyspace (.topicRecord name)) (Catalog.topic keyspace name)
      (topic keyspace name) :=
  (checkLookup_held _ _).guarded _

theorem deleteTopic_held
    (keyspace : Keyspace)
    (name user : String) :
    HeldTo (LooksUp keyspace (.topicRecord name))
      (Catalog.deleteTopic keyspace name user)
      (deleteTopic keyspace name user) :=
  (checkLookup_held _ _).guarded _

theorem queue_held
    (keyspace : Keyspace)
    (name : String) :
    HeldTo (LooksUp keyspace (.queueRecord name)) (Catalog.queue keyspace name)
      (queue keyspace name) :=
  (checkLookup_held _ _).guarded _

theorem hasQueue_held
    (keyspace : Keyspace)
    (name : String) :
    HeldTo (LooksUp keyspace (.queueRecord name))
      (.ok (Catalog.hasQueue keyspace name)) (hasQueue keyspace name) :=
  (checkLookup_held _ _).guarded _

theorem deleteQueue_held
    (keyspace : Keyspace)
    (name user : String) :
    HeldTo (LooksUp keyspace (.queueRecord name))
      (Catalog.deleteQueue keyspace name user)
      (deleteQueue keyspace name user) :=
  (checkLookup_held _ _).guarded _

theorem position?_held
    (keyspace : Keyspace)
    (group : String)
    (home : PartitionKey) :
    HeldTo (LooksUp keyspace (.cursor group home))
      (Cursor.position? keyspace group home) (position? keyspace group home) :=
  (checkLookup_held _ _).guarded _

/-! ## The broker -/

theorem published_held
    {Result : Type}
    (keyspace : Keyspace)
    (topic : String)
    (result : Except Error Result) :
    HeldTo (LooksUp keyspace (.topicRecord topic)) result
      (published keyspace topic result) :=
  (checkLookup_held _ _).guarded _

/-- A pull looks up the topic, then the position, and then it scans. -/
theorem pull_held
    (keyspace : Keyspace)
    (group : String)
    (home : PartitionKey)
    (most : Nat) :
    HeldTo
      (LooksUp keyspace (.topicRecord home.topic) ∧
        ∀ found, Broker.checkPartition keyspace home = .ok found →
          LooksUp keyspace (.cursor group home) ∧
          ∀ messages, Broker.pull keyspace group home most = .ok messages →
            Scans home ⟨0, none⟩ most) (Broker.pull keyspace group home most)
      (pull keyspace group home most) := by
  have again : (Broker.checkPartition keyspace home >>= fun _ =>
        Broker.pull keyspace group home most) =
      Broker.pull keyspace group home most := by
    unfold Broker.pull
    cases Broker.checkPartition keyspace home <;> rfl
  have held : HeldTo _
      (Broker.checkPartition keyspace home >>= fun _ =>
        Broker.pull keyspace group home most) _ :=
    .bind fun _ => (checkLookup_held keyspace (.cursor group home)).after
      (.before (fun _ => checkWindow_held home ⟨0, none⟩ most) _)
  rw [again] at held
  exact (checkLookup_held _ _).after held

theorem commit_held
    (limits : Limits)
    (keyspace : Keyspace)
    (group : String)
    (home : PartitionKey)
    (offset : Offset) :
    HeldTo (LooksUp keyspace (.topicRecord home.topic))
      (Broker.commit limits keyspace group home offset)
      (commit limits keyspace group home offset) :=
  (checkLookup_held _ _).guarded _

theorem enqueueKnown_held
    (limits : Limits)
    (store : Store)
    (queue : String)
    (payload : Bytes)
    (producer : String) :
    HeldTo (LooksUp store.keyspace (.queueRecord queue))
      (Broker.enqueue limits store queue payload producer)
      (enqueueKnown limits store queue payload producer) :=
  (checkLookup_held _ _).guarded _

theorem dequeueKnown_held
    (keyspace : Keyspace)
    (settings : Queue.Settings)
    (queue : String)
    (now : UInt64) :
    HeldTo
      (LooksUp keyspace (.queueRecord queue) ∧
        ∀ found, Broker.checkQueue keyspace queue = .ok found →
          Takes (Bytes.ofText (Key.pendingOf queue)))
      (Broker.dequeue settings keyspace queue now)
      (dequeueKnown keyspace settings queue now) :=
  (checkLookup_held _ _).after
    (.bind fun _ => dequeue_held keyspace settings queue now)

theorem acknowledgeKnown_held
    (keyspace : Keyspace)
    (queue : String)
    (id : MessageId) :
    HeldTo
      (LooksUp keyspace (.queueRecord queue) ∧
        ∀ found, Broker.checkQueue keyspace queue = .ok found →
          Takes (Key.expiry queue id).bytes)
      (Broker.acknowledge keyspace queue id)
      (acknowledgeKnown keyspace queue id) :=
  (checkLookup_held _ _).after
    (.bind fun _ => acknowledge_held keyspace queue id)

end MessageBroker.Medium
