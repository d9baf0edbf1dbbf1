import MessageBroker.Proofs.QueueSweep

/-!
# Accounts of queues

A ledger notes which messages entered which queues, and which ids were settled
while they were delivered.  Contents balance with a ledger when every message
that entered waits, is delivered or is settled, and nothing is in two of these
places, or twice in one.  Each operation keeps the balance: handing out and
giving back move one message between two places, and settling strikes it off.

Ids tell messages of one queue apart, so this takes a ledger in which no queue
saw an id twice.
-/

namespace MessageBroker

namespace Queue

/-- What entered the queues and what was settled, latest first. -/
structure Ledger where
  /-- The messages that entered, each with its queue. -/
  entered : List (String × Message) := []
  /-- The ids that were settled, each with its queue. -/
  settled : List (String × MessageId) := []

namespace Ledger

/-- No queue saw an id twice. -/
def Distinct (ledger : Ledger) : Prop :=
  ledger.entered.Pairwise fun later earlier =>
    later.1 = earlier.1 → later.2.id ≠ earlier.2.id

instance (ledger : Ledger) : Decidable ledger.Distinct :=
  inferInstanceAs (Decidable (List.Pairwise _ _))

/-- One more message entered. -/
def enter (ledger : Ledger) (queue : String) (message : Message) : Ledger :=
  { ledger with entered := (queue, message) :: ledger.entered }

/-- One more id was settled. -/
def settle (ledger : Ledger) (queue : String) (id : MessageId) : Ledger :=
  { ledger with settled := (queue, id) :: ledger.settled }

end Ledger

/-- Every message that entered is in one place, and nothing else is anywhere. -/
structure Balanced (contents : Contents) (ledger : Ledger) : Prop where
  waits : ∀ queue, ∀ message ∈ contents.waiting queue,
    (queue, message) ∈ ledger.entered
  delivers : ∀ queue id expiry message,
    contents.delivered queue id = some (expiry, message) →
    message.id = id ∧ (queue, message) ∈ ledger.entered
  once : ∀ queue,
    (contents.waiting queue).Pairwise fun earlier later => earlier.id ≠ later.id
  apart : ∀ queue, ∀ message ∈ contents.waiting queue,
    contents.delivered queue message.id = none
  gone : ∀ queue id, (queue, id) ∈ ledger.settled →
    contents.delivered queue id = none ∧
    ∀ message ∈ contents.waiting queue, message.id ≠ id
  known : ∀ queue id, (queue, id) ∈ ledger.settled →
    ∃ message, (queue, message) ∈ ledger.entered ∧ message.id = id
  kept : ∀ queue message, (queue, message) ∈ ledger.entered →
    message ∈ contents.waiting queue ∨
      (∃ expiry, contents.delivered queue message.id = some (expiry, message)) ∨
      (queue, message.id) ∈ ledger.settled

variable {contents : Contents} {ledger : Ledger}

theorem Balanced.empty : Balanced (Queue.contents .empty) {} where
  waits _ _ inside := by cases inside
  delivers _ _ _ _ found := by cases found
  once _ := .nil
  apart _ _ inside := by cases inside
  gone _ _ inside := by cases inside
  known _ _ inside := by cases inside
  kept _ _ inside := by cases inside

namespace Contents

theorem mem_put
    {queue sought : String}
    {message other : Message} :
    other ∈ (contents.put queue message).waiting sought ↔
      other ∈ contents.waiting sought ∨ sought = queue ∧ other = message := by
  simp only [put]
  by_cases same : sought = queue
  · rw [if_pos same, List.mem_append, List.mem_singleton]
    simp [same]
  · rw [if_neg same]
    simp [same]

/-- A message of another id than all that wait may come last. -/
theorem once_put
    {queue : String}
    {message : Message}
    (once : ∀ queue,
      (contents.waiting queue).Pairwise fun earlier later =>
        earlier.id ≠ later.id)
    (other : ∀ other ∈ contents.waiting queue, other.id ≠ message.id)
    (sought : String) :
    ((contents.put queue message).waiting sought).Pairwise fun earlier later =>
      earlier.id ≠ later.id := by
  simp only [put]
  split
  · rename_i same
    subst same
    refine List.pairwise_append.2 ⟨once sought, List.pairwise_singleton _ _, ?_⟩
    intro earlier waits later added
    rw [List.mem_singleton.1 added]
    exact other earlier waits
  · exact once sought

theorem delivered_settle
    {queue sought : String}
    {id other : MessageId} :
    (contents.settle queue id).delivered sought other =
      if sought = queue ∧ other = id then none
      else contents.delivered sought other :=
  rfl

theorem delivered_settle_eq_some
    {queue sought : String}
    {id other : MessageId}
    {delivery : UInt64 × Message} :
    (contents.settle queue id).delivered sought other = some delivery ↔
      ¬ (sought = queue ∧ other = id) ∧
      contents.delivered sought other = some delivery := by
  rw [delivered_settle]
  split
  · rename_i same
    simp [same]
  · rename_i different
    simp [different]

theorem delivered_settle_eq_none
    {queue sought : String}
    {id other : MessageId}
    (vacant : contents.delivered sought other = none) :
    (contents.settle queue id).delivered sought other = none := by
  rw [delivered_settle, vacant, ite_self]

/-- Where nothing is delivered, there is nothing to settle. -/
theorem settle_eq_self
    {queue : String}
    {id : MessageId}
    (vacant : contents.delivered queue id = none) :
    contents.settle queue id = contents := by
  have same : (contents.settle queue id).delivered = contents.delivered := by
    funext sought other
    rw [delivered_settle]
    split
    · rename_i same
      rw [same.1, same.2, vacant]
    · rfl
  exact congrArg (Contents.mk contents.waiting) same

end Contents

/-! ## Entering -/

theorem Balanced.put
    (balanced : Balanced contents ledger)
    {queue : String}
    {message : Message}
    (distinct : (ledger.enter queue message).Distinct) :
    Balanced (contents.put queue message) (ledger.enter queue message) := by
  have fresh : ∀ other, (queue, other) ∈ ledger.entered →
      message.id ≠ other.id :=
    fun other inside => (List.pairwise_cons.1 distinct).1 _ inside rfl
  constructor
  case waits =>
      intro sought other waits
      rcases Contents.mem_put.1 waits with old | ⟨rfl, rfl⟩
      · exact List.mem_cons_of_mem _ (balanced.waits sought other old)
      · exact List.mem_cons_self
  case delivers =>
      intro sought id expiry other delivered
      obtain ⟨same, inside⟩ :=
        balanced.delivers sought id expiry other delivered
      exact ⟨same, List.mem_cons_of_mem _ inside⟩
  case once =>
      apply Contents.once_put balanced.once
      intro other waits
      exact (fresh other (balanced.waits queue other waits)).symm
  case apart =>
      intro sought other waits
      rcases Contents.mem_put.1 waits with old | ⟨rfl, rfl⟩
      · exact balanced.apart sought other old
      · cases delivered : contents.delivered sought other.id with
        | none => exact delivered
        | some delivery =>
            obtain ⟨same, inside⟩ := balanced.delivers sought _ _ _ delivered
            exact absurd same.symm (fresh _ inside)
  case gone =>
      intro sought id settled
      obtain ⟨vacant, waiting⟩ := balanced.gone sought id settled
      refine ⟨vacant, fun other waits => ?_⟩
      rcases Contents.mem_put.1 waits with old | ⟨rfl, rfl⟩
      · exact waiting other old
      · obtain ⟨earlier, entered, rfl⟩ := balanced.known sought id settled
        exact fresh earlier entered
  case known =>
      intro sought id settled
      obtain ⟨earlier, entered, same⟩ := balanced.known sought id settled
      exact ⟨earlier, List.mem_cons_of_mem _ entered, same⟩
  case kept =>
      intro sought other inside
      rcases List.mem_cons.1 inside with new | old
      · cases new
        exact .inl (Contents.mem_put.2 (.inr ⟨rfl, rfl⟩))
      · rcases balanced.kept sought other old with waits | elsewhere
        · exact .inl (Contents.mem_put.2 (.inl waits))
        · exact .inr elsewhere

/-! ## Handing out -/

theorem Balanced.handOut
    (balanced : Balanced contents ledger)
    (queue : String)
    (expiry : UInt64) :
    Balanced (contents.handOut queue expiry) ledger := by
  unfold Contents.handOut
  split
  · exact balanced
  rename_i message rest heads
  have inside : message ∈ contents.waiting queue := by
    rw [heads]
    exact List.mem_cons_self
  have once := balanced.once queue
  rw [heads] at once
  obtain ⟨others, tail⟩ := List.pairwise_cons.1 once
  have vacant := balanced.apart queue message inside
  have stays : ∀ sought,
      ∀ other ∈ (if sought = queue then rest else contents.waiting sought),
        other ∈ contents.waiting sought ∧
        ¬ (sought = queue ∧ other.id = message.id) := by
    intro sought other waits
    split at waits
    · rename_i same
      subst same
      rw [heads]
      exact ⟨List.mem_cons_of_mem _ waits, fun again =>
        others other waits again.2.symm⟩
    · rename_i different
      exact ⟨waits, fun again => different again.1⟩
  constructor
  case waits =>
      intro sought other waits
      exact balanced.waits sought other (stays sought other waits).1
  case delivers =>
      intro sought id time other delivered
      dsimp only at delivered
      split at delivered
      · rename_i same
        cases delivered
        exact ⟨same.2.symm, same.1 ▸ balanced.waits queue message inside⟩
      · exact balanced.delivers sought id time other delivered
  case once =>
      intro sought
      dsimp only
      split
      · exact tail
      · exact balanced.once sought
  case apart =>
      intro sought other waits
      obtain ⟨waited, different⟩ := stays sought other waits
      dsimp only
      rw [if_neg different]
      exact balanced.apart sought other waited
  case gone =>
      intro sought id settled
      obtain ⟨delivered, waiting⟩ := balanced.gone sought id settled
      refine ⟨?_, fun other waits => waiting other (stays sought other waits).1⟩
      dsimp only
      rw [if_neg]
      · exact delivered
      · rintro ⟨rfl, rfl⟩
        exact waiting message inside rfl
  case known => exact balanced.known
  case kept =>
      intro sought other entered
      dsimp only
      rcases balanced.kept sought other entered with waits | ⟨time, delivered⟩ |
        settled
      · by_cases same : sought = queue
        · subst same
          rw [heads] at waits
          rcases List.mem_cons.1 waits with rfl | waits
          · exact .inr (.inl ⟨expiry, if_pos ⟨rfl, rfl⟩⟩)
          · rw [if_pos rfl]
            exact .inl waits
        · rw [if_neg same]
          exact .inl waits
      · refine .inr (.inl ⟨time, ?_⟩)
        rw [if_neg]
        · exact delivered
        · rintro ⟨rfl, same⟩
          rw [same, vacant] at delivered
          cases delivered
      · exact .inr (.inr settled)

/-! ## Settling -/

theorem Balanced.settle
    (balanced : Balanced contents ledger)
    {queue : String}
    {id : MessageId}
    {expiry : UInt64}
    {message : Message}
    (delivered : contents.delivered queue id = some (expiry, message)) :
    Balanced (contents.settle queue id) (ledger.settle queue id) := by
  obtain ⟨same, entered⟩ := balanced.delivers queue id expiry message delivered
  constructor
  case waits => exact balanced.waits
  case delivers =>
      intro sought other time found held
      exact balanced.delivers sought other time found
        (Contents.delivered_settle_eq_some.1 held).2
  case once => exact balanced.once
  case apart =>
      intro sought other waits
      exact Contents.delivered_settle_eq_none
        (balanced.apart sought other waits)
  case gone =>
      intro sought other settled
      rcases List.mem_cons.1 settled with new | old
      · cases new
        refine ⟨if_pos ⟨rfl, rfl⟩, fun waiting waits again => ?_⟩
        have vacant := balanced.apart queue waiting waits
        rw [again, delivered] at vacant
        cases vacant
      · obtain ⟨vacant, waiting⟩ := balanced.gone sought other old
        exact ⟨Contents.delivered_settle_eq_none vacant, waiting⟩
  case known =>
      intro sought other settled
      rcases List.mem_cons.1 settled with new | old
      · cases new
        exact ⟨message, entered, same⟩
      · exact balanced.known sought other old
  case kept =>
      intro sought other inside
      rcases balanced.kept sought other inside with waits | ⟨time, held⟩ |
        settled
      · exact .inl waits
      · by_cases struck : sought = queue ∧ other.id = id
        · refine .inr (.inr ?_)
          rw [struck.1, struck.2]
          exact List.mem_cons_self
        · exact .inr
            (.inl ⟨time, Contents.delivered_settle_eq_some.2 ⟨struck, held⟩⟩)
      · exact .inr (.inr (List.mem_cons_of_mem _ settled))

/-! ## Giving back -/

theorem Balanced.giveBack
    (balanced : Balanced contents ledger)
    {queue : String}
    {id : MessageId}
    {expiry : UInt64}
    {message : Message}
    (delivered : contents.delivered queue id = some (expiry, message)) :
    Balanced ((contents.put queue message).settle queue id) ledger := by
  obtain ⟨rfl, entered⟩ := balanced.delivers queue id expiry message delivered
  constructor
  case waits =>
      intro sought other waits
      rcases Contents.mem_put.1 waits with old | ⟨rfl, rfl⟩
      · exact balanced.waits sought other old
      · exact entered
  case delivers =>
      intro sought id time other held
      exact balanced.delivers sought id time other
        (Contents.delivered_settle_eq_some.1 held).2
  case once =>
      apply Contents.once_put balanced.once
      intro other waits same
      have vacant := balanced.apart queue other waits
      rw [same, delivered] at vacant
      cases vacant
  case apart =>
      intro sought other waits
      rcases Contents.mem_put.1 waits with old | ⟨rfl, rfl⟩
      · exact Contents.delivered_settle_eq_none
          (balanced.apart sought other old)
      · exact if_pos ⟨rfl, rfl⟩
  case gone =>
      intro sought other settled
      obtain ⟨vacant, waiting⟩ := balanced.gone sought other settled
      refine ⟨Contents.delivered_settle_eq_none vacant, fun back waits => ?_⟩
      rcases Contents.mem_put.1 waits with old | ⟨rfl, rfl⟩
      · exact waiting back old
      · rintro rfl
        rw [delivered] at vacant
        cases vacant
  case known => exact balanced.known
  case kept =>
      intro sought other inside
      rcases balanced.kept sought other inside with waits | ⟨time, held⟩ |
        settled
      · exact .inl (Contents.mem_put.2 (.inl waits))
      · by_cases back : sought = queue ∧ other.id = message.id
        · obtain ⟨rfl, same⟩ := back
          rw [same, delivered] at held
          cases held
          exact .inl (Contents.mem_put.2 (.inr ⟨rfl, rfl⟩))
        · exact .inr
            (.inl ⟨time, Contents.delivered_settle_eq_some.2 ⟨back, held⟩⟩)
      · exact .inr (.inr settled)

/-- Sweeping keeps the balance where returned messages keep their payload. -/
theorem Balanced.foldl_expire
    {settings : Settings}
    (preserves : settings.redelivery = .preserve)
    (now : UInt64)
    (places : List (String × MessageId))
    (balanced : Balanced contents ledger) :
    Balanced (places.foldl (Contents.expire settings now) contents) ledger := by
  induction places generalizing contents with
  | nil => exact balanced
  | cons place rest step =>
      rw [List.foldl_cons]
      apply step
      unfold Contents.expire
      split
      · exact balanced
      · rename_i expiry message delivered
        split
        · exact balanced
        · have same : settings.returned message = message := by
            rw [Settings.returned, preserves]
          rw [same]
          exact balanced.giveBack delivered

/-! ## Places -/

/-- A message waits in a queue, as the only one of its id, and is not
delivered. -/
def Contents.Waits
    (contents : Contents)
    (queue : String)
    (message : Message) :
    Prop :=
  contents.delivered queue message.id = none ∧
    ∃ front back, contents.waiting queue = front ++ message :: back ∧
      ∀ other ∈ front ++ back, other.id ≠ message.id

/-- A message is delivered from a queue, where none of its id waits. -/
def Contents.Delivers
    (contents : Contents)
    (queue : String)
    (message : Message) :
    Prop :=
  (∃ expiry, contents.delivered queue message.id = some (expiry, message)) ∧
    ∀ other ∈ contents.waiting queue, other.id ≠ message.id

/-- No message of an id waits in a queue or is delivered from it. -/
def Contents.Lacks
    (contents : Contents)
    (queue : String)
    (id : MessageId) :
    Prop :=
  contents.delivered queue id = none ∧
  ∀ other ∈ contents.waiting queue, other.id ≠ id

theorem Balanced.waits_of_mem
    (balanced : Balanced contents ledger)
    {queue : String}
    {message : Message}
    (waits : message ∈ contents.waiting queue) :
    contents.Waits queue message := by
  refine ⟨balanced.apart queue message waits, ?_⟩
  obtain ⟨front, back, split⟩ := List.append_of_mem waits
  refine ⟨front, back, split, fun other inside => ?_⟩
  have once := balanced.once queue
  rw [split, List.pairwise_append, List.pairwise_cons] at once
  obtain ⟨_, ⟨after, _⟩, before⟩ := once
  rcases List.mem_append.1 inside with early | late
  · exact before other early message List.mem_cons_self
  · exact (after other late).symm

theorem Balanced.delivers_of_eq_some
    (balanced : Balanced contents ledger)
    {queue : String}
    {message : Message}
    {expiry : UInt64}
    (delivered : contents.delivered queue message.id = some (expiry, message)) :
    contents.Delivers queue message := by
  refine ⟨⟨expiry, delivered⟩, fun other waits same => ?_⟩
  have vacant := balanced.apart queue other waits
  rw [same, delivered] at vacant
  cases vacant

end Queue

end MessageBroker
