import MessageBroker.Proofs.IntactStores

/-!
# Counts of queues

A queue holds the messages that wait in it and those that are handed out.  An
enqueue adds one, a sweep none, and an acknowledgement takes one away where it
ends a delivery.  A dequeue moves the head of the queue into the delivery of its
id.  If a message is already handed out under that id, the head takes its place
and the queue holds one message less, which nobody acknowledged.  So what
entered a queue is what it holds, what was acknowledged and what was displaced
like this; nothing is displaced where a queue never sees an id twice.
-/

namespace MessageBroker

/-- The queue that holds a message because of this key. -/
def Key.holder? : Key → Option String
  | .pending queue _ => some queue
  | .expiry queue _ => some queue
  | _ => none

namespace Queue

/-- How many messages of a queue wait or are handed out. -/
def heldCount (keyspace : Keyspace) (queue : String) : Nat :=
  pendingCount keyspace queue + inFlightCount keyspace queue

/-- The head of a queue has the id of a message that is handed out. -/
def Collides (keyspace : Keyspace) (queue : String) : Prop :=
  ∃ message ∈ (waiting keyspace queue).head?,
    (delivered? keyspace queue message.id).isSome

instance
    (keyspace : Keyspace)
    (queue : String) :
    Decidable (Collides keyspace queue) :=
  inferInstanceAs (Decidable (∃ message ∈ (waiting keyspace queue).head?, _))

variable {keyspace after : Keyspace}

/-! ## One key -/

/-- The scans behind the count show a key once, for its holder. -/
theorem shown_once
    {key : Key}
    (plain : key.IsPlain)
    (queue : String)
    (changes : Prop)
    [Decidable changes] :
    (if Bytes.ofText (Key.pendingOf queue) <+: key.bytes ∧ changes then 1
          else 0) +
        (if Bytes.ofText (Key.expiriesOf queue) <+: key.bytes ∧ changes then 1
        else 0) =
      if key.holder? = some queue ∧ changes then 1 else 0 := by
  classical
  simp only [Key.pendingOf_front_iff fun _ => plain,
    Key.expiriesOf_front_iff fun _ => plain]
  cases key <;> simp [Key.holder?]

theorem heldCount_insert
    (keyspace : Keyspace)
    {key : Key}
    (plain : key.IsPlain)
    (content : Bytes)
    (queue : String) :
    heldCount (keyspace.insert key.bytes content) queue =
      heldCount keyspace queue +
        if key.holder? = some queue ∧ keyspace.get? key.bytes = none then 1
        else 0 := by
  rw [← shown_once plain, heldCount, pendingCount, inFlightCount,
    Keyspace.length_withStem_insert, Keyspace.length_withStem_insert]
  exact Nat.add_add_add_comm _ _ _ _

theorem heldCount_erase
    (keyspace : Keyspace)
    {key : Key}
    (plain : key.IsPlain)
    (queue : String) :
    heldCount (keyspace.erase key.bytes) queue +
        (if key.holder? = some queue ∧ (keyspace.get? key.bytes).isSome then 1
        else 0) =
      heldCount keyspace queue := by
  have waiting :=
    Keyspace.length_withStem_erase keyspace (Key.pendingOf queue) key.bytes
  have timed :=
    Keyspace.length_withStem_erase keyspace (Key.expiriesOf queue) key.bytes
  rw [← shown_once plain, heldCount, pendingCount, inFlightCount, heldCount,
    pendingCount, inFlightCount, ← waiting, ← timed]
  exact Nat.add_add_add_comm _ _ _ _

/-! ## One operation -/

/-- What is put last is held. -/
theorem heldCount_putLast
    {queue : String}
    (free : ':' ∉ queue.toList)
    {generation : UInt64}
    {value : Bytes}
    (new : keyspace.get? (Key.pending queue generation).bytes = none)
    (done : putLast keyspace queue generation value = .ok after)
    (sought : String) :
    heldCount after sought =
      heldCount keyspace sought + if sought = queue then 1 else 0 := by
  have pendingPlain := (Key.pending queue generation).isPlain_of_name rfl free
  have counterPlain := (Key.nextGeneration queue).isPlain_of_name rfl free
  obtain ⟨next, _, rfl⟩ := putLast_eq_ok_iff.1 done
  rw [Keyspace.setCounter, heldCount_insert _ counterPlain,
    heldCount_insert _ pendingPlain]
  simp [Key.holder?, new, eq_comm]

theorem Sound.heldCount_enqueue
    (sound : Sound keyspace)
    {fresh : FreshId}
    {queue : String}
    (free : ':' ∉ queue.toList)
    {message : Message}
    {enqueued : Enqueued}
    (done : Queue.enqueue keyspace fresh queue message = .ok enqueued)
    (sought : String) :
    heldCount enqueued.keyspace sought =
      heldCount keyspace sought + if sought = queue then 1 else 0 := by
  obtain ⟨_, value, generation, stored, known, put⟩ := enqueue_eq_ok_iff.1 done
  obtain ⟨generation', known', below⟩ := sound.counter_eq "enqueue" queue
  rw [known] at known'
  cases known'
  refine heldCount_putLast free ?_ put sought
  by_contra present
  obtain ⟨content, found⟩ := Option.ne_none_iff_exists'.1 present
  exact UInt64.lt_irrefl _ (below generation content found)

/-- An acknowledgement ends a delivery where there is one. -/
theorem Sound.heldCount_acknowledge
    (sound : Sound keyspace)
    {queue : String}
    (free : ':' ∉ queue.toList)
    (id : MessageId)
    (sought : String) :
    heldCount (Queue.acknowledge keyspace queue id) sought +
        (if sought = queue ∧ (delivered? keyspace queue id).isSome then 1
        else 0) =
      heldCount keyspace sought := by
  have expiryPlain := (Key.expiry queue id).isPlain_of_name rfl free
  have bodyPlain := (Key.body queue id).isPlain_of_name rfl free
  have delivered : (delivered? keyspace queue id).isSome =
      (keyspace.get? (Key.expiry queue id).bytes).isSome := by
    rw [Bool.eq_iff_iff, Option.isSome_iff_ne_none, Option.isSome_iff_ne_none,
      not_iff_not]
    exact sound.delivered?_eq_none_iff
  have timed := heldCount_erase keyspace expiryPlain sought
  have body :=
    heldCount_erase (keyspace.erase (Key.expiry queue id).bytes) bodyPlain
      sought
  simp only [Key.holder?, reduceCtorEq, false_and, if_false, Nat.add_zero]
    at body
  simp only [Key.holder?, Option.some.injEq, eq_comm (b := sought)] at timed
  rw [delivered, Queue.acknowledge, body, timed]

/-- The head of a queue becomes a delivery, unless it displaces one.  One key
fewer waits; whether its expiry is a new key decides if the count is kept. -/
theorem Sound.heldCount_dequeue
    (sound : Sound keyspace)
    {settings : Settings}
    {queue : String}
    {now : UInt64}
    {result : Delivered}
    (done : Queue.dequeue keyspace settings queue now = .ok result)
    (sought : String) :
    heldCount result.keyspace sought +
        (if sought = queue ∧ Collides keyspace queue then 1 else 0) =
      heldCount keyspace sought := by
  rcases sound.dequeue_cases settings queue now with
    ⟨scan, given⟩ |
      ⟨generation, message, content, rest, free, scan, found, stored, _, given⟩
  · rw [given] at done
    cases done
    have nothing : ¬ Collides keyspace queue := by
      simp [Collides, waiting, scan]
    rw [if_neg fun collides => nothing collides.2, Nat.add_zero]
  · rw [given] at done
    cases done
    have plain := (Key.pending queue generation).isPlain_of_name rfl free
    have expiryPlain := (Key.expiry queue message.id).isPlain_of_name rfl free
    have bodyPlain := (Key.body queue message.id).isPlain_of_name rfl free
    have collides : Collides keyspace queue ↔
        ¬ keyspace.get? (Key.expiry queue message.id).bytes = none := by
      rw [← sound.delivered?_eq_none_iff, Collides, waiting, scan]
      simp only [List.filterMap_cons, read_eq_some "dequeue" stored,
        List.head?_cons, Option.mem_some_iff, exists_eq_left',
        Option.isSome_iff_ne_none, ne_eq]
    have taken := heldCount_erase keyspace plain sought
    rw [Queue.delivering, Keyspace.setCounter, heldCount_insert _ bodyPlain,
      heldCount_insert _ expiryPlain, Keyspace.get?_erase_key _ plain, ← taken]
    simp only [collides, Key.holder?, reduceCtorEq, false_and, if_false, found,
      Option.isSome_some, Option.some.injEq, eq_comm (b := sought), and_true]
    by_cases here : sought = queue <;>
      by_cases absent : keyspace.get? (Key.expiry queue message.id).bytes =
        none <;>
        simp [here, absent]

/-! ## Sweeps -/

/-- The messages of a queue that are handed out are its listed deliveries. -/
theorem Sound.inFlightCount_eq
    (sound : Sound keyspace)
    (queue : String) :
    inFlightCount keyspace queue =
      (deliveries keyspace).countP fun place => decide (place.1 = queue) := by
  rw [List.countP_eq_length_filter, sound.deliveries_of_queue,
    List.length_filterMap_eq_countP, inFlightCount, eq_comm,
    List.countP_eq_length]
  rintro ⟨place, content⟩ inside
  obtain ⟨stemmed, found⟩ := Keyspace.mem_withStem_iff.1 inside
  obtain ⟨key, plain, rfl⟩ := sound.legible place content found
  obtain ⟨id, rfl⟩ := (Key.expiriesOf_front_iff fun _ => plain).1 stemmed
  have free : ':' ∉ queue.toList := by
    simpa [Key.IsPlain, Key.names] using plain
  rw [Key.readExpiry?_expiry free]
  rfl

/-- A sweep leaves the deliveries that are not overdue. -/
theorem Sound.deliveries_swept
    (sound : Sound keyspace)
    {settings : Settings}
    {now : UInt64}
    {sweep : Sweep}
    (done : Queue.requeueExpired keyspace settings now = .ok sweep) :
    (deliveries sweep.keyspace).Perm
      ((deliveries keyspace).filter fun place =>
        !((contents keyspace).overdue? settings now place).isSome) := by
  obtain ⟨after, expired⟩ := sound.requeueExpired settings now done
  have distinct := sound.deliveries_nodup
  refine (List.perm_ext_iff_of_nodup after.deliveries_nodup
    (distinct.filter _)).2 ?_
  rintro ⟨queue, id⟩
  have delivered : delivered? sweep.keyspace queue id = if (queue, id) ∈
      deliveries keyspace ∧
      ((contents keyspace).overdue? settings now (queue, id)).isSome then none
      else delivered? keyspace queue id :=
    (congrArg (fun held => held.delivered queue id) expired).trans
      (Contents.delivered_foldl_expire distinct queue id)
  rw [after.mem_deliveries_iff, List.mem_filter, delivered, Bool.not_eq_true',
    ← Bool.not_eq_true]
  split
  · rename_i overdue
    simp [overdue.2]
  · rename_i kept
    rw [← sound.mem_deliveries_iff]
    exact ⟨fun held => ⟨held, fun overdue => kept ⟨held, overdue⟩⟩, fun held =>
      held.1⟩

/-- A sweep moves messages and drops none. -/
theorem Sound.heldCount_swept
    (sound : Sound keyspace)
    (settings : Settings)
    (now : UInt64)
    (queue : String) :
    heldCount (swept keyspace settings now) queue =
      heldCount keyspace queue := by
  unfold swept
  split
  · rename_i sweep done
    obtain ⟨after, expired⟩ := sound.requeueExpired settings now done
    have waits : waiting sweep.keyspace queue = waiting keyspace queue ++
        (contents keyspace).given settings now queue (deliveries keyspace) :=
      (congrArg (fun held => held.waiting queue) expired).trans
        (Contents.waiting_foldl_expire sound.deliveries_nodup queue)
    have given : ((contents keyspace).given settings now queue
          (deliveries keyspace)).length =
        ((deliveries keyspace).filter fun place =>
            ((contents keyspace).overdue? settings now place).isSome).countP
          fun place => decide (place.1 = queue) := by
      rw [Contents.given, List.length_filterMap_eq_countP, List.countP_filter,
        List.countP_filter]
      exact List.countP_congr fun place _ => by rw [Bool.and_comm]
    have split := List.countP_eq_countP_filter_add (deliveries keyspace)
      (fun place => decide (place.1 = queue))
      fun place => ((contents keyspace).overdue? settings now place).isSome
    have left :=
      (sound.deliveries_swept done).countP_eq fun place =>
        decide (place.1 = queue)
    rw [heldCount, ← after.length_waiting, after.inFlightCount_eq, waits,
      List.length_append, given, left, heldCount, ← sound.length_waiting,
      sound.inFlightCount_eq, split]
    omega
  · rfl

/-! ## Histories -/

namespace Ledger

/-- How many messages entered a queue. -/
def enteredCount (ledger : Ledger) (queue : String) : Nat :=
  ledger.entered.countP fun entry => decide (entry.1 = queue)

/-- How many deliveries of a queue were acknowledged. -/
def settledCount (ledger : Ledger) (queue : String) : Nat :=
  ledger.settled.countP fun entry => decide (entry.1 = queue)

theorem enteredCount_enter
    (ledger : Ledger)
    (queue : String)
    (message : Message)
    (sought : String) :
    (ledger.enter queue message).enteredCount sought =
      ledger.enteredCount sought + if sought = queue then 1 else 0 := by
  simp only [enteredCount, enter, List.countP_cons, decide_eq_true_eq,
    eq_comm (a := sought)]

theorem settledCount_settle
    (ledger : Ledger)
    (queue : String)
    (id : MessageId)
    (sought : String) :
    (ledger.settle queue id).settledCount sought =
      ledger.settledCount sought + if sought = queue then 1 else 0 := by
  simp only [settledCount, settle, List.countP_cons, decide_eq_true_eq,
    eq_comm (a := sought)]

end Ledger

namespace History

variable {settings : Settings} {history : History}

theorem keyspace_perform
    (settings : Settings)
    (history : History)
    (operation : Operation) :
    (history.perform settings operation).keyspace =
      (Queue.serve settings history.keyspace operation).2 := by
  cases operation with
  | enqueue fresh queue message =>
      cases attempt : Queue.enqueue history.keyspace fresh queue message <;>
        simp only [perform, Queue.serve, attempt]
  | dequeue queue now =>
      cases attempt : Queue.dequeue history.keyspace settings queue now <;>
        simp only [perform, Queue.serve, attempt]
  | acknowledge queue id => rfl
  | sweep now =>
      cases attempt : requeueExpired history.keyspace settings now <;>
        simp only [perform, swept, Queue.serve, attempt]

theorem queues_perform
    (sound : Queue.Sound history.keyspace)
    {operation : Operation}
    (plain : operation.IsPlain) :
    Queue.Sound (history.perform settings operation).keyspace := by
  rw [keyspace_perform]
  exact sound.serve settings plain

theorem queues_run
    (sound : Queue.Sound history.keyspace)
    {operations : List Operation}
    (plain : ∀ operation ∈ operations, operation.IsPlain) :
    Queue.Sound (history.run settings operations).keyspace := by
  induction operations generalizing history with
  | nil => exact sound
  | cons operation rest step =>
      obtain ⟨first, later⟩ := List.forall_mem_cons.1 plain
      exact step (queues_perform sound first) later

/-- How many messages of a queue an operation displaces. -/
def displacedBy (history : History) (queue : String) : Operation → Nat
  | .dequeue sought _ =>
      if queue = sought ∧ Collides history.keyspace sought then 1 else 0
  | _ => 0

/-- How many messages of a queue operations displace. -/
def displacedCount
    (settings : Settings)
    (queue : String)
    (history : History) :
    List Operation → Nat
  | [] => 0
  | operation :: rest =>
      history.displacedBy queue operation +
        displacedCount settings queue (history.perform settings operation) rest

/-- What entered a queue is what it holds, what was acknowledged and what was
displaced. -/
def Balances (history : History) (queue : String) (displaced : Nat) : Prop :=
  history.ledger.enteredCount queue =
    heldCount history.keyspace queue + history.ledger.settledCount queue +
      displaced

theorem Balances.perform
    {queue : String}
    {displaced : Nat}
    (balances : history.Balances queue displaced)
    (sound : Queue.Sound history.keyspace)
    {operation : Operation}
    (plain : operation.IsPlain) :
    (history.perform settings operation).Balances queue
      (displaced + history.displacedBy queue operation) := by
  unfold Balances at balances ⊢
  cases operation with
  | enqueue fresh sought message =>
      cases attempt : Queue.enqueue history.keyspace fresh sought message with
      | error fault =>
          simp only [History.perform, attempt]
          exact balances
      | ok enqueued =>
          have held := sound.heldCount_enqueue (plain sought rfl) attempt queue
          simp only [History.perform, attempt, Ledger.enteredCount_enter,
            balances, held, displacedBy]
          simp only [Ledger.settledCount, Ledger.enter]
          omega
  | dequeue sought now =>
      obtain ⟨result, attempt, _⟩ := sound.dequeue settings sought now
      have held := sound.heldCount_dequeue attempt queue
      simp only [History.perform, attempt, balances, ← held, displacedBy]
      omega
  | acknowledge sought id =>
      have held := sound.heldCount_acknowledge (plain sought rfl) id queue
      cases delivered : delivered? history.keyspace sought id with
      | none =>
          have absent := sound.delivered?_eq_none_iff.1 delivered
          simp only [delivered, Option.isSome_none, Bool.false_eq_true,
            and_false, if_false] at held
          simp only [History.perform, absent, Option.isSome_none,
            Bool.false_eq_true, if_false, balances, ← held, displacedBy]
          omega
      | some delivery =>
          obtain ⟨time, message⟩ := delivery
          obtain ⟨timed, _⟩ := sound.delivered?_eq_some_iff.1 delivered
          simp only [delivered, Option.isSome_some, and_true] at held
          simp only [History.perform, timed, Option.isSome_some, if_true,
            Ledger.settledCount_settle, displacedBy]
          simp only [Ledger.enteredCount, Ledger.settle] at balances ⊢
          omega
  | sweep now =>
      simp only [History.perform, sound.heldCount_swept settings now queue,
        balances, displacedBy]
      omega

/-- What entered a queue, at any moment. -/
theorem Balances.run
    {queue : String}
    {displaced : Nat}
    (balances : history.Balances queue displaced)
    (sound : Queue.Sound history.keyspace)
    {operations : List Operation}
    (plain : ∀ operation ∈ operations, operation.IsPlain) :
    (history.run settings operations).Balances queue
      (displaced + displacedCount settings queue history operations) := by
  induction operations generalizing history displaced with
  | nil => exact balances
  | cons operation rest step =>
      obtain ⟨first, later⟩ := List.forall_mem_cons.1 plain
      rw [displacedCount, ← Nat.add_assoc]
      exact step (balances.perform sound first)
        (queues_perform sound first) later

/-- After any operations, whichever ids they repeat, a dequeue keeps how many
messages each queue holds, and every delivery, but where the head of the queue
collides with a delivery: that one gives way to the head, and one message less
is held.  A sweep keeps what every queue holds, an enqueue adds a message, and
an acknowledgement takes away the delivery that it ends.  So the messages that
entered a queue are all held, acknowledged or displaced; none is displaced where
no queue saw an id twice. -/
theorem held_unless_displaced
    (settings : Settings)
    (operations : List Operation)
    (plain : ∀ operation ∈ operations, operation.IsPlain) :
    let history := run settings {} operations
    let keyspace := history.keyspace
    (∀ queue now, ∃ result,
      Queue.dequeue keyspace settings queue now = .ok result ∧
      contents result.keyspace =
        (contents keyspace).handOut queue (settings.expiry now) ∧
      ∀ sought,
        heldCount result.keyspace sought +
            (if sought = queue ∧ Collides keyspace queue then 1 else 0) =
          heldCount keyspace sought) ∧
    (∀ now queue, heldCount (swept keyspace settings now) queue =
      heldCount keyspace queue) ∧
    (∀ fresh queue message enqueued, ':' ∉ queue.toList →
      Queue.enqueue keyspace fresh queue message = .ok enqueued →
      ∀ sought, heldCount enqueued.keyspace sought =
        heldCount keyspace sought + if sought = queue then 1 else 0) ∧
    (∀ queue id, ':' ∉ queue.toList →
      ∀ sought,
        heldCount (acknowledge keyspace queue id) sought +
            (if sought = queue ∧ (delivered? keyspace queue id).isSome then 1
            else 0) =
          heldCount keyspace sought) ∧
    (∀ queue,
      history.Balances queue (displacedCount settings queue {} operations)) ∧
    (settings.redelivery = .preserve → history.ledger.Distinct →
      ∀ queue, ¬ Collides keyspace queue) := by
  intro history keyspace
  have sound : Queue.Sound keyspace := queues_run .empty plain
  refine ⟨fun queue now => ?_, fun now queue =>
    sound.heldCount_swept settings now queue,
    fun fresh queue message enqueued free done =>
      sound.heldCount_enqueue free done,
    fun queue id free => sound.heldCount_acknowledge free id, fun queue => ?_,
    fun preserves distinct queue => ?_⟩
  · obtain ⟨result, done, _, _, handedOut⟩ := sound.dequeue settings queue now
    exact ⟨result, done, handedOut, sound.heldCount_dequeue done⟩
  · have start : Balances {} queue 0 := rfl
    have balances : history.Balances queue (0 + _) :=
      start.run Queue.Sound.empty plain
    rwa [Nat.zero_add] at balances
  · rintro ⟨message, head, delivered⟩
    have apart :=
      (Sound.start.run preserves plain distinct).balanced.apart queue message
        (List.mem_of_mem_head? head)
    have absent : delivered? keyspace queue message.id = none := apart
    rw [absent] at delivered
    cases delivered

/-- Two messages enter a queue under one id, and the first is handed out. -/
def colliding : List Operation :=
  let id := (FreshId.numbered 0 0).id
  [.enqueue (.numbered 0 1) "q" { id := id, topic := "q", payload := [0] },
    .enqueue (.numbered 0 2) "q" { id := id, topic := "q", payload := [1] },
    .dequeue "q" 0]

theorem held_unless_displaced_colliding :
    let keyspace := (run {} {} colliding).keyspace
    (∀ operation ∈ colliding, operation.IsPlain) ∧
    Collides keyspace "q" ∧
    ∃ result, Queue.dequeue keyspace {} "q" 0 = .ok result ∧
      heldCount result.keyspace "q" + 1 = heldCount keyspace "q" := by
  intro keyspace
  have plain : ∀ operation ∈ colliding, operation.IsPlain := by decide +kernel
  have collides : Collides keyspace "q" := by decide +kernel
  obtain ⟨result, done, _, held⟩ :=
    (held_unless_displaced {} colliding plain).1 "q" 0
  refine ⟨plain, collides, result, done, ?_⟩
  have count := held "q"
  rwa [if_pos ⟨rfl, collides⟩] at count

/-- The second message displaces the first, which nobody acknowledged. -/
theorem displaced_unacknowledged :
    let before := run {} {} colliding
    let after := run {} {} (colliding ++ [.dequeue "q" 0])
    let first : Message := ⟨(FreshId.numbered 0 0).id, "q", 0, 0, "", [0], ""⟩
    let second : Message := ⟨(FreshId.numbered 0 0).id, "q", 0, 0, "", [1], ""⟩
    delivered? before.keyspace "q" first.id = some (30000, first) ∧
    delivered? after.keyspace "q" first.id = some (30000, second) ∧
    heldCount before.keyspace "q" = 2 ∧
    heldCount after.keyspace "q" = 1 ∧
    after.ledger.settled = [] := by
  decide +kernel

end History

end Queue

end MessageBroker
