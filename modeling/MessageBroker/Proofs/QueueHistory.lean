import MessageBroker.Proofs.QueueLedger

/-!
# Histories of queues

A keyspace starts empty and then sees enqueues, dequeues, acknowledgements and
sweeps of any queues, in any order and with any readings of the clock.  At every
moment each message that entered is in exactly one place, as it came: it waits,
or it is delivered, or it was acknowledged while it was delivered, and then no
dequeue ever returns it again.
-/

namespace MessageBroker

namespace Queue

/-- What queues are asked to do. -/
inductive Operation where
  /-- Put a message at the tail of a queue, with a fresh id where it has
  none. -/
  | enqueue (fresh : FreshId) (queue : String) (message : Message)
  /-- Hand out the head of a queue. -/
  | dequeue (queue : String) (now : UInt64)
  /-- End a delivery for good. -/
  | acknowledge (queue : String) (id : MessageId)
  /-- Return every expired delivery of every queue. -/
  | sweep (now : UInt64)

namespace Operation

/-- The queue that an operation names. -/
def queue? : Operation → Option String
  | .enqueue _ queue _ => some queue
  | .dequeue queue _ => some queue
  | .acknowledge queue _ => some queue
  | .sweep _ => none

/-- The queue that an operation names is of a name without colons. -/
def IsPlain (operation : Operation) : Prop :=
  ∀ queue ∈ operation.queue?, ':' ∉ queue.toList

instance (operation : Operation) : Decidable operation.IsPlain :=
  inferInstanceAs (Decidable (∀ queue ∈ operation.queue?, ':' ∉ queue.toList))

end Operation

/-- A keyspace and the ledger of its queues. -/
structure History where
  keyspace : Keyspace := .empty
  /-- What entered and what was settled. -/
  ledger : Ledger := {}

namespace History

/-- The history with one more operation; one that fails changes nothing.  An
acknowledgement settles an id only if there is a delivery under it. -/
def perform (settings : Settings) (history : History) : Operation → History
  | .enqueue fresh queue message =>
      match Queue.enqueue history.keyspace fresh queue message with
      | .ok enqueued =>
          ⟨enqueued.keyspace,
            history.ledger.enter queue (message.identified fresh)⟩
      | .error _ => history
  | .dequeue queue now =>
      match Queue.dequeue history.keyspace settings queue now with
      | .ok delivered => { history with keyspace := delivered.keyspace }
      | .error _ => history
  | .acknowledge queue id =>
      { keyspace := acknowledge history.keyspace queue id
        ledger := if (history.keyspace.get? (Key.expiry queue id).bytes).isSome
          then history.ledger.settle queue id else history.ledger }
  | .sweep now =>
      { history with keyspace := swept history.keyspace settings now }

/-- The history with more operations, first one first. -/
def run
    (settings : Settings)
    (history : History)
    (operations : List Operation) :
    History :=
  operations.foldl (perform settings) history

/-! ## The ledger only grows -/

theorem ledger_perform
    (settings : Settings)
    (history : History)
    (operation : Operation) :
    history.ledger.entered <:+
      (history.perform settings operation).ledger.entered ∧
    history.ledger.settled <:+
      (history.perform settings operation).ledger.settled := by
  cases operation with
  | enqueue fresh queue message =>
      unfold perform
      dsimp only
      split
      · exact ⟨List.suffix_cons _ _, List.suffix_refl _⟩
      · exact ⟨List.suffix_refl _, List.suffix_refl _⟩
  | dequeue queue now =>
      unfold perform
      dsimp only
      split <;> exact ⟨List.suffix_refl _, List.suffix_refl _⟩
  | acknowledge queue id =>
      unfold perform
      dsimp only
      split
      · exact ⟨List.suffix_refl _, List.suffix_cons _ _⟩
      · exact ⟨List.suffix_refl _, List.suffix_refl _⟩
  | sweep now => exact ⟨List.suffix_refl _, List.suffix_refl _⟩

theorem ledger_run
    (settings : Settings)
    (history : History)
    (operations : List Operation) :
    history.ledger.entered <:+
      (history.run settings operations).ledger.entered ∧
    history.ledger.settled <:+
      (history.run settings operations).ledger.settled := by
  induction operations generalizing history with
  | nil => exact ⟨List.suffix_refl _, List.suffix_refl _⟩
  | cons operation rest step =>
      obtain ⟨entered, settled⟩ := ledger_perform settings history operation
      obtain ⟨entered', settled'⟩ := step (history.perform settings operation)
      exact ⟨entered.trans entered', settled.trans settled'⟩

/-- Ids that are distinct in the end were distinct all along. -/
theorem distinct_of_run
    {settings : Settings}
    {history : History}
    {operations : List Operation}
    (distinct : (history.run settings operations).ledger.Distinct) :
    history.ledger.Distinct := by
  obtain ⟨newer, whole⟩ := (ledger_run settings history operations).1
  rw [Ledger.Distinct, ← whole] at distinct
  exact (List.pairwise_append.1 distinct).2.1

/-! ## What every operation keeps -/

/-- The queues are sound and balance with their ledger. -/
structure Sound (history : History) : Prop where
  queues : Queue.Sound history.keyspace
  balanced : Balanced (contents history.keyspace) history.ledger

theorem Sound.start : Sound {} where
  queues := .empty
  balanced := .empty

variable {settings : Settings} {history : History}

theorem Sound.perform
    (sound : history.Sound)
    (preserves : settings.redelivery = .preserve)
    {operation : Operation}
    (plain : operation.IsPlain)
    (distinct : (history.perform settings operation).ledger.Distinct) :
    (history.perform settings operation).Sound := by
  cases operation with
  | enqueue fresh queue message =>
      have free : ':' ∉ queue.toList := plain queue rfl
      unfold History.perform at distinct ⊢
      dsimp only at distinct ⊢
      split at distinct
      · rename_i enqueued done
        obtain ⟨_, queues, entered⟩ := sound.queues.enqueue free done
        refine ⟨queues, ?_⟩
        rw [entered]
        exact sound.balanced.put distinct
      · exact sound
  | dequeue queue now =>
      obtain ⟨delivered, done, _, queues, handedOut⟩ :=
        sound.queues.dequeue settings queue now
      unfold History.perform
      simp only [done]
      refine ⟨queues, ?_⟩
      rw [handedOut]
      exact sound.balanced.handOut queue (settings.expiry now)
  | acknowledge queue id =>
      have free : ':' ∉ queue.toList := plain queue rfl
      refine ⟨sound.queues.acknowledge free id, ?_⟩
      unfold History.perform
      dsimp only
      rw [contents_acknowledge free]
      cases delivered : (contents history.keyspace).delivered queue id with
      | none =>
          have absent := sound.queues.delivered?_eq_none_iff.1 delivered
          rw [Contents.settle_eq_self delivered, absent, if_neg (by simp)]
          exact sound.balanced
      | some delivery =>
          obtain ⟨time, message⟩ := delivery
          obtain ⟨held, _⟩ := sound.queues.delivered?_eq_some_iff.1 delivered
          rw [held, Option.isSome_some, if_pos rfl]
          exact sound.balanced.settle delivered
  | sweep now =>
      unfold History.perform swept
      dsimp only
      split
      · rename_i sweep done
        obtain ⟨queues, expired⟩ :=
          sound.queues.requeueExpired settings now done
        refine ⟨queues, ?_⟩
        rw [expired]
        exact sound.balanced.foldl_expire preserves now _
      · exact sound

theorem Sound.run
    (sound : history.Sound)
    (preserves : settings.redelivery = .preserve)
    {operations : List Operation}
    (plain : ∀ operation ∈ operations, operation.IsPlain)
    (distinct : (history.run settings operations).ledger.Distinct) :
    (history.run settings operations).Sound := by
  induction operations generalizing history with
  | nil => exact sound
  | cons operation rest step =>
      have first := sound.perform preserves (plain operation List.mem_cons_self)
        (distinct_of_run distinct)
      exact step first
        (fun other inside => plain other (List.mem_cons_of_mem _ inside))
        distinct

/-! ## Conservation -/

/-- In every history in which no queue sees an id twice, a message that entered
a queue either waits there, or is delivered, as it came and once, or else it was
acknowledged while it was delivered; then it does neither, and no dequeue
returns its id, now or after whatever happens later.  The messages that wait are
all the entries that the queue has. -/
theorem conserved
    (settings : Settings)
    (preserves : settings.redelivery = .preserve)
    (operations : List Operation)
    (plain : ∀ operation ∈ operations, operation.IsPlain)
    (distinct : (run settings {} operations).ledger.Distinct) :
    let history := run settings {} operations
    (∀ queue, ((contents history.keyspace).waiting queue).length =
      pendingCount history.keyspace queue) ∧
    (∀ queue message, (queue, message) ∈ history.ledger.entered →
      ((queue, message.id) ∉ history.ledger.settled →
        (contents history.keyspace).Waits queue message ∨
        (contents history.keyspace).Delivers queue message) ∧
      ((queue, message.id) ∈ history.ledger.settled →
        (contents history.keyspace).Lacks queue message.id)) ∧
    ∀ queue id, (queue, id) ∈ history.ledger.settled →
      ∀ later : List Operation, (∀ operation ∈ later, operation.IsPlain) →
        (history.run settings later).ledger.Distinct →
        ∀ now result message,
          Queue.dequeue (history.run settings later).keyspace settings queue
              now =
            .ok result →
          result.message = some message → message.id ≠ id := by
  intro history
  have sound : history.Sound := Sound.start.run preserves plain distinct
  refine ⟨sound.queues.length_waiting, fun queue message entered =>
    ⟨?_, ?_⟩, ?_⟩
  · intro unsettled
    rcases sound.balanced.kept queue message entered with waits | delivered |
      settled
    · exact .inl (sound.balanced.waits_of_mem waits)
    · obtain ⟨expiry, delivered⟩ := delivered
      exact .inr (sound.balanced.delivers_of_eq_some delivered)
    · exact absurd settled unsettled
  · exact sound.balanced.gone queue message.id
  · intro queue id settled later plain' distinct' now result message done
      returned
    have soundLater := sound.run preserves plain' distinct'
    have settledLater := (ledger_run settings history later).2.subset settled
    obtain ⟨result', done', head, _⟩ :=
      soundLater.queues.dequeue settings queue now
    rw [done] at done'
    cases done'
    rw [returned] at head
    exact (soundLater.balanced.gone queue id settledLater).2 message
      (List.mem_of_mem_head? head.symm)

/-- Two messages are handed out; one is acknowledged, and the other is returned
when it expires. -/
def returning : List Operation :=
  [.enqueue (.numbered 0 0) "q" { topic := "q", payload := [1] },
    .enqueue (.numbered 0 1) "q" { topic := "q", payload := [2] },
    .dequeue "q" 0, .dequeue "q" 0, .acknowledge "q" (FreshId.numbered 0 0).id,
    .sweep 30001]

theorem conserved_returning :
    let history := run {} {} returning
    let first : Message := ⟨(FreshId.numbered 0 0).id, "q", 0, 0, "", [1], ""⟩
    let second : Message := ⟨(FreshId.numbered 0 1).id, "q", 0, 0, "", [2], ""⟩
    (∀ operation ∈ returning, operation.IsPlain) ∧
    history.ledger.Distinct ∧
    (contents history.keyspace).waiting "q" = [second] ∧
    (contents history.keyspace).Lacks "q" first.id ∧
    ((contents history.keyspace).Waits "q" second ∨
      (contents history.keyspace).Delivers "q" second) := by
  intro history first second
  have plain : ∀ operation ∈ returning, operation.IsPlain := by decide +kernel
  have distinct : history.ledger.Distinct := by decide +kernel
  have places := (conserved {} rfl returning plain distinct).2.1
  refine ⟨plain, distinct, by decide +kernel, ?_, ?_⟩
  · exact (places "q" first (by decide +kernel)).2 (by decide +kernel)
  · exact (places "q" second (by decide +kernel)).1 (by decide +kernel)

end History

end Queue

end MessageBroker
