import MessageBroker.Proofs.LogGrowth
import MessageBroker.Proofs.WriteOrder

/-!
# Deliveries of replicated messages

A replica is handed messages one at a time or in batches.  As long as no batch
is too large, a sequence of deliveries does what placing its messages one after
the other does, so only the order of all messages could matter; and that does
not matter either.  However a set of messages is delivered, in whatever order,
in whatever batches and how often, the store is the same afterwards, and the
messages that were stored rather than found are as many as the places that were
free.
-/

namespace MessageBroker

/-- Messages as they are handed to a replica. -/
inductive Delivery where
  /-- One message. -/
  | single (message : Message)
  /-- A batch, under the limits of the node that takes it. -/
  | batch (limits : Limits) (messages : List Message)

namespace Delivery

/-- The messages of a delivery. -/
def messages : Delivery → List Message
  | single message => [message]
  | batch _ messages => messages

/-- A batch is not larger than its limit. -/
def Admitted : Delivery → Prop
  | single _ => True
  | batch limits messages => messages.length ≤ limits.batchMessages.toNat

instance (delivery : Delivery) : Decidable delivery.Admitted :=
  match delivery with
  | single _ => inferInstanceAs (Decidable True)
  | batch limits messages =>
      inferInstanceAs (Decidable (messages.length ≤ limits.batchMessages.toNat))

/-- Admitted deliveries hand over a set of messages, each of them at least
once. -/
structure Cover
    (deliveries : List Delivery)
    (messages : Finset Message) :
    Prop where
  admitted : ∀ delivery ∈ deliveries, delivery.Admitted
  same : (deliveries.flatMap Delivery.messages).toFinset = messages

end Delivery

/-- The sum of two tallies. -/
def Tally.plus (tally other : Tally) : Tally :=
  ⟨tally.applied + other.applied, tally.duplicates + other.duplicates⟩

/-- What an acknowledgement tells. -/
def Ack.tally (ack : Ack) : Tally :=
  ⟨ack.applied.toNat, ack.duplicates.toNat⟩

namespace Store

/-- Store what is delivered, and tell how much of it was new. -/
def deliver (store : Store) : Delivery → Except Error Tally × Store
  | .single message =>
      match store.place message with
      | .ok (outcome, after) => (.ok (Tally.add {} outcome), after)
      | .error error => (.error error, store)
  | .batch limits messages =>
      let (result, after) := Replica.replicate limits store messages
      (result.map Ack.tally, after)

/-- Store deliveries in turn, up to the first that fails, and add up what they
tell. -/
def deliverAll
    (tally : Tally)
    (store : Store) :
    List Delivery → Except Error Tally × Store
  | [] => (.ok tally, store)
  | delivery :: rest =>
      match store.deliver delivery with
      | (.ok more, after) => deliverAll (tally.plus more) after rest
      | (.error error, after) => (.error error, after)

variable {before store after : Store} {messages : Finset Message}

/-! ## Deliveries as messages -/

theorem placeAll_append
    (tally : Tally)
    (store : Store)
    (front back : List Message) :
    store.placeAll tally (front ++ back) =
      match store.placeAll tally front with
      | (.ok sum, middle) => middle.placeAll sum back
      | (.error error, middle) => (.error error, middle) := by
  induction front generalizing tally store with
  | nil => rfl
  | cons message rest step =>
      rw [List.cons_append, placeAll, placeAll]
      cases store.place message with
      | error error => rfl
      | ok placed => exact step (tally.add placed.1) placed.2

theorem plus_add
    (tally more : Tally)
    (outcome : Log.Outcome) :
    (tally.plus more).add outcome = tally.plus (more.add outcome) := by
  cases outcome <;> rfl

/-- What was counted before only adds to the result. -/
theorem placeAll_plus
    (tally more : Tally)
    (store : Store)
    (batch : List Message) :
    store.placeAll (tally.plus more) batch =
      ((store.placeAll more batch).1.map tally.plus,
        (store.placeAll more batch).2) := by
  induction batch generalizing more store with
  | nil => rfl
  | cons message rest step =>
      rw [placeAll, placeAll]
      cases store.place message with
      | error error => rfl
      | ok placed =>
          obtain ⟨outcome, next⟩ := placed
          dsimp only
          rw [plus_add]
          exact step (more.add outcome) next

/-- Every message is counted once. -/
theorem sum_placeAll
    {batch : List Message}
    {tally result : Tally}
    (done : store.placeAll tally batch = (.ok result, after)) :
    result.applied + result.duplicates =
      tally.applied + tally.duplicates + batch.length := by
  induction batch generalizing tally store with
  | nil =>
      cases done
      rfl
  | cons message rest step =>
      rw [placeAll] at done
      cases placing : store.place message with
      | error error =>
          rw [placing] at done
          cases done
      | ok placed =>
          obtain ⟨outcome, next⟩ := placed
          rw [placing] at done
          rw [step done, List.length_cons]
          cases outcome <;> simp only [Tally.add] <;> omega

/-- An acknowledgement of a batch within a limit tells its tally. -/
theorem tally_ofTally
    {tally : Tally}
    {limit : UInt32}
    (small : tally.applied + tally.duplicates ≤ limit.toNat) :
    (Ack.ofTally tally).tally = tally := by
  have bound : limit.toNat < UInt32.size := limit.toNat_lt
  have applied : (UInt32.ofNat tally.applied).toNat = tally.applied :=
    UInt32.toNat_ofNat_of_lt' (by omega)
  have duplicates : (UInt32.ofNat tally.duplicates).toNat = tally.duplicates :=
    UInt32.toNat_ofNat_of_lt' (by omega)
  rw [Ack.ofTally, Ack.tally, applied, duplicates]

theorem deliver_eq
    (store : Store)
    {delivery : Delivery}
    (admitted : delivery.Admitted) :
    store.deliver delivery = store.placeAll {} delivery.messages := by
  cases delivery with
  | single message =>
      rw [deliver, Delivery.messages, placeAll]
      cases store.place message <;> rfl
  | batch limits batch =>
      have small : batch.length ≤ limits.batchMessages.toNat := admitted
      rw [deliver, Delivery.messages, Replica.replicate,
        if_neg (Nat.not_lt.2 small)]
      cases done : store.placeAll {} batch with
      | mk result next =>
          cases result with
          | error error => rfl
          | ok tally =>
              have whole : tally.applied + tally.duplicates = batch.length :=
                (sum_placeAll done).trans (Nat.zero_add _)
              have told : (Ack.ofTally tally).tally = tally :=
                tally_ofTally (whole ▸ small)
              show (Except.ok (Ack.ofTally tally).tally, next) = _
              rw [told]

/-- Admitted deliveries do what placing their messages does. -/
theorem deliverAll_eq
    {deliveries : List Delivery}
    (tally : Tally)
    (store : Store)
    (admitted : ∀ delivery ∈ deliveries, delivery.Admitted) :
    store.deliverAll tally deliveries =
      store.placeAll tally (deliveries.flatMap Delivery.messages) := by
  induction deliveries generalizing tally store with
  | nil => rfl
  | cons delivery rest step =>
      have others : ∀ other ∈ rest, other.Admitted :=
        fun other inside => admitted other (List.mem_cons_of_mem _ inside)
      have counted : store.placeAll tally delivery.messages =
          ((store.placeAll {} delivery.messages).1.map tally.plus,
            (store.placeAll {} delivery.messages).2) :=
        placeAll_plus tally {} store _
      rw [deliverAll, deliver_eq store (admitted delivery List.mem_cons_self),
        List.flatMap_cons, placeAll_append, counted]
      cases done : store.placeAll {} delivery.messages with
      | mk result next =>
          cases result with
          | error error => rfl
          | ok more => exact step (tally.plus more) next others

/-! ## Any order, any batches, any repetition -/

/-- However messages are delivered, each of them at least once, the store is the
same afterwards; as many messages are stored as places were free, and all others
are duplicates. -/
theorem deliveries_agree
    {before : Store}
    {messages : Finset Message}
    (read : Log.CountersRead before.keyspace)
    (replicable : Replicable messages) :
    ∃ after, ∀ deliveries, Delivery.Cover deliveries messages →
      ∃ tally, before.deliverAll {} deliveries = (.ok tally, after) ∧
        tally.applied = (Log.freePlaces before.keyspace messages).card ∧
        tally.applied + tally.duplicates =
          (deliveries.flatMap Delivery.messages).length := by
  have run : ∀ batch : List Message, batch.toFinset = messages →
      ∃ tally after, before.placeAll {} batch = (.ok tally, after) ∧
        Settled before messages after ∧
        tally.applied = (Log.freePlaces before.keyspace messages).card := by
    intro batch same
    have inside : ∀ message ∈ batch, message ∈ messages :=
      fun message mem => same ▸ List.mem_toFinset.2 mem
    obtain ⟨tally, after, done, settled, counted⟩ :=
      (Settled.refl read).placeAll replicable (Finset.empty_subset _) inside
        (show Tally.applied {} = _ from rfl)
    rw [Finset.empty_union, same] at settled counted
    exact ⟨tally, after, done, settled, counted⟩
  obtain ⟨_, after, _, settled, _⟩ :=
    run messages.toList (Finset.toList_toFinset messages)
  refine ⟨after, fun deliveries cover => ?_⟩
  obtain ⟨tally, after', done, settled', counted⟩ := run _ cover.same
  cases settled'.unique settled
  rw [deliverAll_eq _ _ cover.admitted]
  exact ⟨tally, done, counted, (sum_placeAll done).trans (Nat.zero_add _)⟩

/-- A message of one topic by its offset, with an id. -/
def numbered (offset : Offset) : Message :=
  { id := (FreshId.numbered 1 offset.toNat).id, topic := "t", offset := offset }

/-- A store that was sent one message. -/
def begun : Store :=
  ((Store.empty (.series 0)).placeAll {} [numbered 1]).2

/-- Three messages in batches, and in another order one by one and twice. -/
theorem deliveries_agree_begun :
    Log.CountersRead begun.keyspace ∧
    Replicable {numbered 0, numbered 1, numbered 3} ∧
    ∃ after first second,
      begun.deliverAll {}
          [.batch {} [numbered 0, numbered 1], .batch {} [numbered 3]] =
        (.ok first, after) ∧
      begun.deliverAll {}
          [.single (numbered 3), .batch {} [numbered 1, numbered 0],
            .single (numbered 3)] =
        (.ok second, after) ∧
      (first.applied = 2 ∧ first.duplicates = 1) ∧
      second.applied = 2 ∧
      second.duplicates = 2 := by
  have sound : begun.Sound :=
    ((Sound.empty (.series 0)).grows_placeAll (by decide) {}).sound
  have read : Log.CountersRead begun.keyspace := Log.Sound.countersRead sound
  have replicable : Replicable {numbered 0, numbered 1, numbered 3} :=
    ⟨by decide +kernel, by decide +kernel, by decide +kernel, by decide +kernel⟩
  have free : (Log.freePlaces begun.keyspace
        {numbered 0, numbered 1, numbered 3}).card =
      2 := by
    decide +kernel
  obtain ⟨after, agree⟩ := deliveries_agree read replicable
  obtain ⟨first, done, applied, total⟩ := agree
    [.batch {} [numbered 0, numbered 1], .batch {} [numbered 3]]
    ⟨by decide +kernel, by decide +kernel⟩
  obtain ⟨second, done', applied', total'⟩ := agree
    [.single (numbered 3), .batch {} [numbered 1, numbered 0],
      .single (numbered 3)]
    ⟨by decide +kernel, by decide +kernel⟩
  rw [free] at applied applied'
  change _ = 3 at total
  change _ = 4 at total'
  exact ⟨read, replicable, after, first, second, done, done',
    ⟨applied, by omega⟩, applied',
    by omega⟩

end Store

end MessageBroker
