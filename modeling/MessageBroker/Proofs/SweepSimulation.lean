import MessageBroker.Proofs.QueueExpiries
import MessageBroker.Proofs.QueueSimulation

/-!
# Sweeps of described keyspaces

A described keyspace has the deliveries of the machine's lines and no others,
and the scan of a queue shows them by id.  So a sweep returns to every queue
what is overdue on its line, in that order, and counts what is overdue on all
lines.

Saturation cannot be noticed here: a clock never shows a time beyond the
greatest one, so a delivery whose expiry was cut to it is overdue neither way.
-/

namespace MessageBroker

namespace Queue

namespace Machine

variable {machine : Machine} {keyspace : Keyspace}

/-! ## Deliveries -/

/-- The deliveries of a line are those of the queue. -/
theorem Describes.delivered?_eq_some_iff
    (describes : machine.Describes keyspace)
    {queue : String}
    {id : MessageId}
    {stored : UInt64 × Message} :
    delivered? keyspace queue id = some stored ↔
      ∃ delivery, (id, delivery) ∈ (machine.line queue).inFlight.entries ∧
        storedDelivery delivery = stored := by
  rw [describes.delivered, Option.map_eq_some_iff]
  simp only [OrderedMap.mem_entries_iff]

/-- A queue's own scan shows the deliveries of its line, by id. -/
theorem Describes.expiries_eq
    (describes : machine.Describes keyspace)
    (queue : String) :
    keyspace.withStem (Key.expiriesOf queue) =
      (machine.line queue).inFlight.entries.map fun delivery =>
        ((Key.expiry queue delivery.1).bytes,
          Record.ofCounter (saturated delivery.2.1)) := by
  apply OrderedMap.eq_of_mem_iff (Keyspace.withStem_ordered _ _)
  · rw [List.pairwise_map]
    exact (machine.line queue).inFlight.ordered.imp fun rises =>
      Key.expiry_bytes_lt_iff.2 rises
  rintro ⟨place, content⟩
  rw [Keyspace.mem_withStem_iff, List.mem_map]
  constructor
  · rintro ⟨stemmed, found⟩
    obtain ⟨key, plain, rfl⟩ := describes.sound.legible place content found
    obtain ⟨id, rfl⟩ := (Key.expiriesOf_front_iff fun _ => plain).1 stemmed
    obtain ⟨time, message, _, rfl, _, _, _, _, delivered⟩ :=
      describes.sound.exists_delivered found
    obtain ⟨delivery, inside, same⟩ :=
      describes.delivered?_eq_some_iff.1 delivered
    have times : saturated delivery.1 = time := congrArg Prod.fst same
    exact ⟨(id, delivery), inside, by rw [← times]⟩
  · rintro ⟨⟨id, delivery⟩, inside, same⟩
    cases same
    have delivered := describes.delivered?_eq_some_iff.2 ⟨delivery, inside, rfl⟩
    obtain ⟨found, _⟩ := describes.sound.delivered?_eq_some_iff.1 delivered
    have plain := describes.sound.legible.isPlain found
    exact ⟨(Key.expiriesOf_front_iff fun _ => plain).2 ⟨id, rfl⟩, found⟩

/-- The listed deliveries of one queue are those of its line, by id. -/
theorem Describes.places_eq
    (describes : machine.Describes keyspace)
    (queue : String) :
    (deliveries keyspace).filter (fun place => decide (place.1 = queue)) =
      (machine.line queue).inFlight.entries.map fun delivery =>
        (queue, delivery.1) := by
  have reads : ∀ delivery ∈ (machine.line queue).inFlight.entries,
      Key.readExpiry? (Key.expiry queue delivery.1).bytes =
        some (queue, delivery.1) := by
    rintro ⟨id, delivery⟩ inside
    have delivered := describes.delivered?_eq_some_iff.2 ⟨delivery, inside, rfl⟩
    obtain ⟨found, _⟩ := describes.sound.delivered?_eq_some_iff.1 delivered
    have plain := describes.sound.legible.isPlain found
    exact Key.readExpiry?_expiry (plain queue (by simp [Key.names])) id
  rw [describes.sound.deliveries_of_queue, describes.expiries_eq,
    List.filterMap_map]
  generalize (machine.line queue).inFlight.entries = entries at reads
  induction entries with
  | nil => rfl
  | cons delivery rest step =>
      have tail :=
        step fun other inside => reads other (List.mem_cons_of_mem _ inside)
      rw [List.filterMap_cons, tail, Function.comp_apply,
        reads delivery List.mem_cons_self, List.map_cons]

/-! ## Sweeps -/

theorem Describes.overdue?_eq
    (describes : machine.Describes keyspace)
    {queue : String}
    {id : MessageId}
    {delivery : Nat × Message}
    (inside : (id, delivery) ∈ (machine.line queue).inFlight.entries)
    (settings : Settings)
    (now : UInt64) :
    (contents keyspace).overdue? settings now (queue, id) =
      if delivery.1 < now.toNat then some (settings.returned delivery.2)
      else none := by
  rw [Queue.overdue?_eq
    (describes.delivered?_eq_some_iff.2 ⟨delivery, inside, rfl⟩)]
  simp only [le_saturated_iff, ite_not]

/-- A sweep gives back to a queue what is overdue on its line, by id. -/
theorem Describes.given_eq
    (describes : machine.Describes keyspace)
    (settings : Settings)
    (now : UInt64)
    (queue : String) :
    (contents keyspace).given settings now queue (deliveries keyspace) =
      ((machine.line queue).expired now.toNat).map fun delivery =>
        settings.returned delivery.2.2 := by
  have overdue : ∀ delivery ∈ (machine.line queue).inFlight.entries,
      (contents keyspace).overdue? settings now (queue, delivery.1) =
        if delivery.2.1 < now.toNat then some (settings.returned delivery.2.2)
        else none :=
    fun delivery inside => describes.overdue?_eq inside settings now
  rw [Contents.given, describes.places_eq, List.filterMap_map, Line.expired]
  generalize (machine.line queue).inFlight.entries = entries at overdue
  induction entries with
  | nil => rfl
  | cons delivery rest step =>
      have tail :=
        step fun other inside => overdue other (List.mem_cons_of_mem _ inside)
      rw [List.filterMap_cons, tail, Function.comp_apply,
        overdue delivery List.mem_cons_self, List.filter_cons]
      by_cases past : delivery.2.1 < now.toNat
      · simp [past]
      · simp [past]

/-- The deliveries that are overdue, queue by queue. -/
def overduePlaces (machine : Machine) (now : Nat) : List (String × MessageId) :=
  machine.entries.flatMap fun entry =>
    (entry.2.expired now).map fun delivery => (entry.1, delivery.1)

theorem mem_overduePlaces_iff
    {now : Nat}
    {queue : String}
    {id : MessageId} :
    (queue, id) ∈ machine.overduePlaces now ↔
      ∃ delivery, (id, delivery) ∈ (machine.line queue).expired now := by
  simp only [overduePlaces, List.mem_flatMap, List.mem_map, Prod.mk.injEq,
    Prod.exists]
  constructor
  · rintro ⟨_, line, known, _, expiry, message, inside, rfl, rfl⟩
    rw [Machine.line, OrderedMap.mem_entries_iff.1 known]
    exact ⟨expiry, message, inside⟩
  · rintro ⟨expiry, message, inside⟩
    cases known : machine.get? queue with
    | none =>
        rw [Machine.line, known] at inside
        exact absurd inside List.not_mem_nil
    | some line =>
        rw [Machine.line, known] at inside
        exact ⟨queue, line, OrderedMap.mem_entries_iff.2 known, id, expiry,
          message, inside, rfl, rfl⟩

theorem nodup_overduePlaces
    (machine : Machine)
    (now : Nat) :
    (machine.overduePlaces now).Nodup := by
  rw [List.Nodup, overduePlaces, List.pairwise_flatMap]
  constructor
  · intro entry _
    rw [List.pairwise_map]
    refine (entry.2.inFlight.ordered.filter _).imp fun rises same => ?_
    rw [Prod.mk.injEq] at same
    exact StrictOrder.irrefl _ (same.2 ▸ rises)
  · refine machine.ordered.imp fun rises place inside place' inside' same => ?_
    obtain ⟨_, _, rfl⟩ := List.mem_map.1 inside
    obtain ⟨_, _, rfl⟩ := List.mem_map.1 inside'
    rw [Prod.mk.injEq] at same
    exact StrictOrder.irrefl _ (same.1 ▸ rises)

/-- A sweep counts what is overdue on all lines.  Both lists name every overdue
delivery once, but the scan goes by key and the lines by name. -/
theorem Describes.count_eq
    (describes : machine.Describes keyspace)
    (settings : Settings)
    (now : UInt64) :
    (contents keyspace).givenCount settings now (deliveries keyspace) =
      (machine.entries.map fun entry =>
        (entry.2.expired now.toNat).length).sum := by
  have total : (machine.overduePlaces now.toNat).length =
      (machine.entries.map fun entry =>
        (entry.2.expired now.toNat).length).sum := by
    simp only [overduePlaces, List.length_flatMap, List.length_map]
  rw [Contents.givenCount, List.countP_eq_length_filter, ← total]
  refine List.Perm.length_eq ((List.perm_ext_iff_of_nodup
    (describes.sound.deliveries_nodup.filter _)
      (machine.nodup_overduePlaces _)).2 ?_)
  rintro ⟨queue, id⟩
  rw [mem_overduePlaces_iff, List.mem_filter,
    describes.sound.mem_deliveries_iff]
  constructor
  · rintro ⟨⟨stored, delivered⟩, overdue⟩
    obtain ⟨delivery, inside, _⟩ := describes.delivered?_eq_some_iff.1 delivered
    rw [describes.overdue?_eq inside] at overdue
    refine ⟨delivery, List.mem_filter.2 ⟨inside, ?_⟩⟩
    split at overdue
    · rename_i past
      exact decide_eq_true past
    · cases overdue
  · rintro ⟨delivery, inside⟩
    obtain ⟨inside, past⟩ := List.mem_filter.1 inside
    refine ⟨⟨_, describes.delivered?_eq_some_iff.2 ⟨delivery, inside, rfl⟩⟩, ?_⟩
    rw [describes.overdue?_eq inside, if_pos (of_decide_eq_true past)]
    rfl

/-- What is not overdue on a line is left in flight. -/
theorem Describes.left_eq
    (describes : machine.Describes keyspace)
    (settings : Settings)
    (now : UInt64)
    (queue : String)
    (id : MessageId) :
    (if (queue, id) ∈ deliveries keyspace ∧
          ((contents keyspace).overdue? settings now (queue, id)).isSome
      then none
      else (contents keyspace).delivered queue id) =
      (((machine.line queue).sweep settings now.toNat).inFlight.get? id).map
        storedDelivery := by
  have before : (contents keyspace).delivered queue id = _ :=
    describes.delivered queue id
  rw [Line.sweep, OrderedMap.get?_filter, before]
  cases known : (machine.line queue).inFlight.get? id with
  | none => exact ite_self none
  | some delivery =>
      have inside := OrderedMap.mem_entries_iff.2 known
      have listed : (queue, id) ∈ deliveries keyspace :=
        describes.sound.mem_deliveries_iff.2
          ⟨_, describes.delivered?_eq_some_iff.2 ⟨delivery, inside, rfl⟩⟩
      rw [describes.overdue?_eq inside]
      by_cases past : delivery.1 < now.toNat
      · simp [listed, past, Option.filter]
      · simp [past, Option.filter]

/-- A sweep of a described keyspace is a sweep of every line. -/
theorem Describes.sweep
    (describes : machine.Describes keyspace)
    (settings : Settings)
    (now : UInt64)
    (room : ∀ queue,
      ((machine.line queue).sweep settings now.toNat).entered < UInt64.size) :
    ∃ sweep, requeueExpired keyspace settings now = .ok sweep ∧
      sweep.returned =
        (machine.entries.map fun entry =>
          (entry.2.expired now.toNat).length).sum ∧
      Describes (machine.mapValues (Line.sweep settings now.toNat))
        sweep.keyspace := by
  have given := describes.given_eq settings now
  have enough : ∀ queue,
      Queue.generation keyspace queue +
          ((contents keyspace).given settings now queue
            (deliveries keyspace)).length <
        UInt64.size := by
    intro queue
    rw [given, List.length_map, describes.generation]
    exact room queue
  obtain ⟨sweep, done, returned, counts⟩ :=
    describes.sound.requeueExpired_succeeds settings now enough
  obtain ⟨sound, changed⟩ := describes.sound.requeueExpired settings now done
  have distinct := describes.sound.deliveries_nodup
  refine ⟨sweep, done, returned.trans (describes.count_eq settings now), sound,
    ?_, ?_, ?_⟩
  · intro queue
    have waits := congrFun (congrArg Contents.waiting changed) queue
    rw [Contents.waiting_foldl_expire distinct, given] at waits
    rw [line_sweep]
    refine waits.trans ?_
    rw [show (contents keyspace).waiting queue = _ from describes.waiting queue]
    rfl
  · intro queue id
    have delivers :=
      congrFun (congrFun (congrArg Contents.delivered changed) queue) id
    rw [Contents.delivered_foldl_expire distinct,
      describes.left_eq settings now] at delivers
    rw [line_sweep]
    exact delivers
  · intro queue
    rw [counts, given, List.length_map, line_sweep, describes.generation]
    rfl

end Machine

end Queue

end MessageBroker
