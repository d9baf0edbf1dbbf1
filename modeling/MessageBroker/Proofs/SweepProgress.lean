import MessageBroker.Proofs.ExactForm
import MessageBroker.Proofs.QueueExpiries
import MessageBroker.Proofs.QueueHistory

/-!
# The progress of a sweep

A sweep reads entries that anything may have damaged.  It drops an entry whose
key or whose expiry does not read, it leaves one that is not due, and it gives
back a delivery that is due: at the next generation of its queue, with the body
that is there, or an empty message where there is none.  It fails where a body
does not read as a message, or where the queue's counter is no counter or has no
next generation.

Nothing is asked of the keyspace here.  `Progress` says what a sweep has done
after some entries: how it has changed the records of the deliveries that were
due, and that all others are as they were.
-/

namespace MessageBroker.Queue

/-! ## Entries -/

/-- The delivery of an entry that reads, once its time is past. -/
def due? (now : UInt64) (entry : Bytes × Bytes) : Option (String × MessageId) :=
  match Key.readExpiry? entry.1, Record.toCounter "requeue" entry.2 with
  | some delivery, .ok expiry => if now ≤ expiry then none else some delivery
  | _, _ => none

/-- The key or the expiry of an entry does not read. -/
def Damaged (entry : Bytes × Bytes) : Prop :=
  Key.readExpiry? entry.1 = none ∨ entry.2.length ≠ 8

/-- The deliveries among entries whose time is past. -/
def dues
    (now : UInt64)
    (entries : List (Bytes × Bytes)) :
    List (String × MessageId) :=
  entries.filterMap (due? now)

theorem free_of_due?
    {now : UInt64}
    {entry : Bytes × Bytes}
    {queue : String}
    {id : MessageId}
    (due : due? now entry = some (queue, id)) :
    ':' ∉ queue.toList := by
  unfold due? at due
  split at due
  · rename_i delivery expiry reads _
    split at due
    · cases due
    · cases due
      exact Key.free_of_readExpiry? reads
  · cases due

theorem toCounter_eq_ok_iff
    {operation : String}
    {value : Bytes}
    {count : UInt64} :
    Record.toCounter operation value = .ok count ↔
      value.length = 8 ∧ count = .ofNat (Bytes.bigEndianValue value) := by
  unfold Record.toCounter
  split
  · rename_i sized
    simp [sized, eq_comm]
  · rename_i sized
    simp [sized]

/-- An entry is due, damaged or neither, and so it is given back, dropped or
left. -/
theorem visit_cases
    (settings : Settings)
    (now : UInt64)
    (sweep : Sweep)
    (entry : Bytes × Bytes) :
    (∃ queue id, due? now entry = some (queue, id) ∧
      sweep.visit settings now entry =
        sweep.giveBack settings entry.1 queue id) ∨
    (due? now entry = none ∧
      Damaged entry ∧
      sweep.visit settings now entry =
        .ok { sweep with keyspace := sweep.keyspace.erase entry.1 }) ∨
    (due? now entry = none ∧
      ¬ Damaged entry ∧
      sweep.visit settings now entry = .ok sweep) := by
  unfold due? Damaged Sweep.visit
  cases reads : Key.readExpiry? entry.1 with
  | none => exact .inr (.inl ⟨rfl, .inl rfl, rfl⟩)
  | some delivery =>
      obtain ⟨queue, id⟩ := delivery
      cases timed : Record.toCounter "requeue" entry.2 with
      | error fault =>
          refine .inr (.inl ⟨rfl, .inr fun sized => ?_, rfl⟩)
          rw [toCounter_eq_ok_iff.2 ⟨sized, rfl⟩] at timed
          cases timed
      | ok expiry =>
          have sized := (toCounter_eq_ok_iff.1 timed).1
          by_cases early : now ≤ expiry
          · exact .inr (.inr ⟨if_pos early, by simp [sized], if_pos early⟩)
          · exact .inl ⟨queue, id, if_neg early, if_neg early⟩

/-! ## What a delivery is given back as -/

/-- How many deliveries of a queue there are among some. -/
def rank (earlier : List (String × MessageId)) (queue : String) : Nat :=
  earlier.countP fun delivery => decide (delivery.1 = queue)

/-- The generation that a queue gives to the next delivery after others that
were given back. -/
def nextAfter
    (keyspace : Keyspace)
    (earlier : List (String × MessageId))
    (queue : String) :
    UInt64 :=
  .ofNat (generation keyspace queue + rank earlier queue)

theorem toNat_nextAfter
    {keyspace : Keyspace}
    {earlier : List (String × MessageId)}
    {queue : String}
    (bounded : generation keyspace queue + rank earlier queue < UInt64.size) :
    (nextAfter keyspace earlier queue).toNat =
      generation keyspace queue + rank earlier queue :=
  UInt64.toNat_ofNat_of_lt' bounded

/-- The message of a delivery after others that were given back; the body goes
to the first of a name. -/
def messageAfter
    (keyspace : Keyspace)
    (earlier : List (String × MessageId))
    (delivery : String × MessageId) :
    Except Error Message :=
  deliveredMessage (if delivery ∈ earlier then .empty else keyspace) delivery.1
    delivery.2

/-- A delivery can be given back after others: its body reads as a message, or
it is missing and the name of the queue has room in an empty message; the
queue's counter reads and has a next generation. -/
structure Returnable
    (keyspace : Keyspace)
    (earlier : List (String × MessageId))
    (delivery : String × MessageId) :
    Prop where
  message : ∃ message, messageAfter keyspace earlier delivery = .ok message ∧
    message.Fits
  counter : ∃ next,
    keyspace.counter "requeue" (.nextGeneration delivery.1) = .ok next
  room : generation keyspace delivery.1 + rank earlier delivery.1 + 1 <
    UInt64.size

variable {keyspace : Keyspace} {settings : Settings} {now : UInt64}

theorem counter_eq_ok_iff
    {operation : String}
    {key : Key}
    {next : UInt64} :
    keyspace.counter operation key = .ok next ↔
      (keyspace.get? key.bytes = none ∧ next = 0) ∨
      ∃ value, keyspace.get? key.bytes = some value ∧
        Record.toCounter operation value = .ok next := by
  rw [Keyspace.counter, Keyspace.counter?]
  cases keyspace.get? key.bytes with
  | none => simp [Except.map, eq_comm]
  | some value => simp [map_eq_ok_iff]

/-- A counter that reads is the next generation. -/
theorem toNat_of_counter
    {operation queue : String}
    {next : UInt64}
    (known : keyspace.counter operation (.nextGeneration queue) = .ok next) :
    next.toNat = generation keyspace queue := by
  rw [generation]
  rcases counter_eq_ok_iff.1 known with ⟨absent, rfl⟩ | ⟨value, found, reads⟩
  · rw [absent]
    rfl
  · obtain ⟨sized, rfl⟩ := toCounter_eq_ok_iff.1 reads
    have small : Bytes.bigEndianValue value < UInt64.size := by
      have bound := Bytes.value_lt value.reverse
      rw [List.length_reverse, sized] at bound
      exact bound
    rw [found, Option.map_some, Option.getD_some,
      UInt64.toNat_ofNat_of_lt' small]

theorem deliveredMessage_congr
    {after : Keyspace}
    {queue : String}
    {id : MessageId}
    (same : after.get? (Key.body queue id).bytes =
      keyspace.get? (Key.body queue id).bytes) :
    deliveredMessage after queue id = deliveredMessage keyspace queue id := by
  rw [deliveredMessage, same, deliveredMessage]

/-- A message that is given back fits as it was: it was read, or its only field
is a name that it keeps. -/
theorem fits_of_deliveredMessage
    {queue : String}
    {id : MessageId}
    {message : Message}
    (reads : deliveredMessage keyspace queue id = .ok message)
    (fits : (settings.returned message).Fits) :
    message.Fits := by
  unfold deliveredMessage at reads
  split at reads
  · exact Message.fits_of_toMessage reads
  · cases reads
    have topic : queue.utf8ByteSize ≤ Message.maxLength 2 := by
      have topic := fits.topic
      unfold Settings.returned at topic
      split at topic <;> exact topic
    have nothing : ∀ width, "".utf8ByteSize ≤ Message.maxLength width :=
      fun _ => Nat.zero_le _
    exact ⟨topic, nothing 4, nothing 2, Nat.zero_le _⟩

/-- The keyspace in which a delivery is given back. -/
def givenBack
    (keyspace : Keyspace)
    (place : Bytes)
    (queue : String)
    (id : MessageId)
    (generation next : UInt64)
    (value : Bytes) :
    Keyspace :=
  let stored : Keyspace :=
    keyspace.insert (Key.pending queue generation).bytes value
  let untimed : Keyspace :=
    (stored.setCounter (.nextGeneration queue) next).erase place
  untimed.erase (Key.body queue id).bytes

theorem givenBack_get?
    (keyspace : Keyspace)
    (place : Bytes)
    (queue : String)
    (id : MessageId)
    (generation next : UInt64)
    (value : Bytes)
    (sought : Bytes) :
    (givenBack keyspace place queue id generation next value).get? sought =
      if sought = (Key.body queue id).bytes then none
      else if sought = place then none
      else if sought = (Key.nextGeneration queue).bytes then
        some (Record.ofCounter next)
      else if sought = (Key.pending queue generation).bytes then some value
      else keyspace.get? sought := by
  rw [givenBack, OrderedMap.get?_erase, OrderedMap.get?_erase,
    Keyspace.setCounter, OrderedMap.get?_insert, OrderedMap.get?_insert]

section GivenBack

variable {place : Bytes} {queue : String}

/-- One message more waits, at the generation that it was given. -/
theorem givenBack_get?_pending
    (keyspace : Keyspace)
    (stemmed : Bytes.ofText Key.expiries <+: place)
    (id : MessageId)
    (generation next : UInt64)
    (value : Bytes)
    (other : String)
    (number : UInt64) :
    (givenBack keyspace place queue id generation next value).get?
        (Key.pending other number).bytes =
      if other = queue ∧ number = generation then some value
      else keyspace.get? (Key.pending other number).bytes := by
  rw [givenBack_get?, if_neg (Key.bytes_ne_of_letter (by simp [Key.letter])),
    if_neg (Key.bytes_ne_of_stemmed stemmed (by simp [Key.letter])),
    if_neg (Key.bytes_ne_of_letter (by simp [Key.letter]))]
  simp only [Key.pending_bytes_inj]

/-- The counter of the queue moves on. -/
theorem givenBack_get?_nextGeneration
    (keyspace : Keyspace)
    (stemmed : Bytes.ofText Key.expiries <+: place)
    (id : MessageId)
    (generation next : UInt64)
    (value : Bytes)
    (other : String) :
    (givenBack keyspace place queue id generation next value).get?
        (Key.nextGeneration other).bytes =
      if other = queue then some (Record.ofCounter next)
      else keyspace.get? (Key.nextGeneration other).bytes := by
  have apart : (Key.nextGeneration other).bytes ≠
      (Key.pending queue generation).bytes :=
    Key.bytes_ne_of_letter (by simp [Key.letter])
  rw [givenBack_get?, if_neg (Key.bytes_ne_of_letter (by simp [Key.letter])),
    if_neg (Key.bytes_ne_of_stemmed stemmed (by simp [Key.letter])),
    if_neg apart]
  simp only [Key.nextGeneration_bytes_inj]

/-- The body of the delivery is gone. -/
theorem givenBack_get?_body
    (keyspace : Keyspace)
    (stemmed : Bytes.ofText Key.expiries <+: place)
    (free : ':' ∉ queue.toList)
    (id : MessageId)
    (generation next : UInt64)
    (value : Bytes)
    (other : String)
    (sought : MessageId) :
    (givenBack keyspace place queue id generation next value).get?
        (Key.body other sought).bytes =
      if (other, sought) = (queue, id) then none
      else keyspace.get? (Key.body other sought).bytes := by
  have counter : (Key.body other sought).bytes ≠
      (Key.nextGeneration queue).bytes :=
    Key.bytes_ne_of_letter (by simp [Key.letter])
  have waiting : (Key.body other sought).bytes ≠
      (Key.pending queue generation).bytes :=
    Key.bytes_ne_of_letter (by simp [Key.letter])
  rw [givenBack_get?,
    if_neg (Key.bytes_ne_of_stemmed stemmed (by simp [Key.letter])),
    if_neg counter, if_neg waiting]
  simp only [Key.body_bytes_inj free]

/-- The expiry of the delivery is gone, and all others are left. -/
theorem givenBack_get?_of_stemmed
    (keyspace : Keyspace)
    (queue : String)
    (id : MessageId)
    (generation next : UInt64)
    (value : Bytes)
    {sought : Bytes}
    (timed : Bytes.ofText Key.expiries <+: sought) :
    (givenBack keyspace place queue id generation next value).get? sought =
      if sought = place then none else keyspace.get? sought := by
  have apart : ∀ key : Key, key.letter ≠ 0x66 → sought ≠ key.bytes :=
    fun key timeless => (Key.bytes_ne_of_stemmed timed timeless).symm
  rw [givenBack_get?, if_neg (apart _ (by simp [Key.letter])),
    if_neg (apart _ (by simp [Key.letter])),
    if_neg (apart _ (by simp [Key.letter]))]

end GivenBack

theorem giveBack_eq_ok_iff
    {sweep after : Sweep}
    {place : Bytes}
    {queue : String}
    {id : MessageId} :
    sweep.giveBack settings place queue id = .ok after ↔
      ∃ message generation value next,
        deliveredMessage sweep.keyspace queue id = .ok message ∧
        sweep.keyspace.counter "requeue" (.nextGeneration queue) =
          .ok generation ∧
        Record.ofMessage (settings.returned message) = .ok value ∧
        next.toNat = generation.toNat + 1 ∧
        after =
          ⟨sweep.returned + 1,
            givenBack sweep.keyspace place queue id generation next value⟩ := by
  constructor
  · intro done
    obtain ⟨message, reads, done⟩ := bind_eq_ok_iff.1 done
    obtain ⟨generation, known, done⟩ := bind_eq_ok_iff.1 done
    obtain ⟨value, stored, done⟩ := bind_eq_ok_iff.1 done
    obtain ⟨queued, put, done⟩ := bind_eq_ok_iff.1 done
    obtain ⟨next, follows, rfl⟩ := putLast_eq_ok_iff.1 put
    cases done
    exact ⟨message, generation, value, next, reads, known, stored, follows, rfl⟩
  · rintro ⟨message, generation, value, next, reads, known, stored,
      follows, rfl⟩
    rw [Sweep.giveBack, reads, ok_bind, known, ok_bind, stored, ok_bind,
      putLast_eq_ok_iff.2 ⟨next, follows, rfl⟩]
    rfl

/-! ## What a sweep has done after some entries -/

/-- What a sweep has done with the entries that it has visited. -/
structure Progress
    (keyspace : Keyspace)
    (settings : Settings)
    (now : UInt64)
    (visited : List (Bytes × Bytes))
    (sweep : Sweep) :
    Prop where
  returned : sweep.returned = (dues now visited).length
  returnable : ∀ earlier delivery later,
    dues now visited = earlier ++ delivery :: later →
    Returnable keyspace earlier delivery
  waits : ∀ earlier delivery later,
    dues now visited = earlier ++ delivery :: later →
    ∃ message value, messageAfter keyspace earlier delivery = .ok message ∧
      Record.ofMessage (settings.returned message) = .ok value ∧
      sweep.keyspace.get?
          (Key.pending delivery.1
            (nextAfter keyspace earlier delivery.1)).bytes =
        some value
  bounded : ∀ delivery ∈ dues now visited,
    generation keyspace delivery.1 + rank (dues now visited) delivery.1 <
      UInt64.size
  counted : ∀ delivery ∈ dues now visited,
    sweep.keyspace.get? (Key.nextGeneration delivery.1).bytes =
      some (Record.ofCounter (nextAfter keyspace (dues now visited) delivery.1))
  taken : ∀ delivery ∈ dues now visited,
    sweep.keyspace.get? (Key.body delivery.1 delivery.2).bytes = none
  ended : ∀ entry ∈ visited, (due? now entry).isSome ∨ Damaged entry →
    sweep.keyspace.get? entry.1 = none
  others : ∀ place,
    (∀ entry ∈ visited, (due? now entry).isSome ∨ Damaged entry →
      place ≠ entry.1) →
    (∀ earlier delivery later, dues now visited = earlier ++ delivery :: later →
      place ≠
        (Key.pending delivery.1 (nextAfter keyspace earlier delivery.1)).bytes ∧
      place ≠ (Key.nextGeneration delivery.1).bytes ∧
      place ≠ (Key.body delivery.1 delivery.2).bytes) →
    sweep.keyspace.get? place = keyspace.get? place

theorem Progress.start
    (keyspace : Keyspace)
    (settings : Settings)
    (now : UInt64) :
    Progress keyspace settings now [] ⟨0, keyspace⟩ where
  returned := rfl
  returnable earlier delivery later split := by simp [dues] at split
  waits earlier delivery later split := by simp [dues] at split
  bounded delivery inside := by simp [dues] at inside
  counted delivery inside := by simp [dues] at inside
  taken delivery inside := by simp [dues] at inside
  ended entry inside := by simp at inside
  others place _ _ := rfl

theorem dues_concat
    (now : UInt64)
    (visited : List (Bytes × Bytes))
    (entry : Bytes × Bytes) :
    dues now (visited ++ [entry]) =
      dues now visited ++ (due? now entry).toList := by
  rw [dues, dues, List.filterMap_append, List.filterMap_cons]
  cases due? now entry <;> rfl

variable {visited : List (Bytes × Bytes)} {sweep after : Sweep}
  {entry : Bytes × Bytes}

/-- An entry that is not due is dropped if it is damaged, and changes nothing if
it is not.  A key that is visited twice is gone already, or goes now. -/
theorem Progress.pass
    (progress : Progress keyspace settings now visited sweep)
    (stemmed : Bytes.ofText Key.expiries <+: entry.1)
    (due : due? now entry = none)
    {after : Keyspace}
    (elsewhere : ∀ place, place ≠ entry.1 →
      after.get? place = sweep.keyspace.get? place)
    (dropped : Damaged entry → after.get? entry.1 = none)
    (left : ¬ Damaged entry →
      after.get? entry.1 = sweep.keyspace.get? entry.1) :
    Progress keyspace settings now (visited ++ [entry])
      { sweep with keyspace := after } := by
  have same : dues now (visited ++ [entry]) = dues now visited := by
    rw [dues_concat, due, Option.toList_none, List.append_nil]
  have kept : ∀ key : Key, key.letter ≠ 0x66 →
      after.get? key.bytes = sweep.keyspace.get? key.bytes :=
    fun key different => elsewhere _ (Key.bytes_ne_of_stemmed stemmed different)
  constructor
  case returned => rw [same]; exact progress.returned
  case returnable => rw [same]; exact progress.returnable
  case waits =>
      intro earlier delivery later split
      rw [kept _ (by simp [Key.letter])]
      exact progress.waits earlier delivery later (same ▸ split)
  case bounded => rw [same]; exact progress.bounded
  case counted =>
      intro delivery inside
      rw [kept _ (by simp [Key.letter]), same]
      exact progress.counted delivery (same ▸ inside)
  case taken =>
      intro delivery inside
      rw [kept _ (by simp [Key.letter])]
      exact progress.taken delivery (same ▸ inside)
  case ended =>
      intro other inside leaves
      by_cases damaged : other.1 = entry.1 ∧ Damaged entry
      · rw [damaged.1]
        exact dropped damaged.2
      · have before : other ∈ visited := by
          rcases List.mem_append.1 inside with before | last
          · exact before
          · rw [List.mem_singleton.1 last, due] at leaves
            rw [List.mem_singleton.1 last] at damaged
            exact absurd ⟨rfl, leaves.resolve_left (by simp)⟩ damaged
        have gone := progress.ended other before leaves
        by_cases here : other.1 = entry.1
        · rw [here, left fun damage => damaged ⟨here, damage⟩, ← here, gone]
        · rw [elsewhere _ here, gone]
  case others =>
      intro place apart away
      have before := progress.others place
        (fun other inside => apart other (List.mem_append_left _ inside))
          (same ▸ away)
      by_cases here : place = entry.1
      · have intact : ¬ Damaged entry := fun damaged =>
          apart entry (List.mem_append_right _ (List.mem_singleton_self _))
            (.inr damaged) here
        rw [here] at before ⊢
        rw [left intact, before]
      · rw [elsewhere _ here, before]

/-! ## Giving back -/

/-- A delivery that was given back goes before all later ones of its queue. -/
theorem rank_lt
    {deliveries earlier later : List (String × MessageId)}
    {delivery : String × MessageId}
    (split : deliveries = earlier ++ delivery :: later) :
    rank earlier delivery.1 < rank deliveries delivery.1 := by
  have ranks : rank (earlier ++ delivery :: later) delivery.1 =
      rank earlier delivery.1 + (rank later delivery.1 + 1) := by
    simp only [rank, List.countP_append, List.countP_cons, decide_true, if_pos]
  rw [split, ranks]
  omega

theorem rank_concat
    (earlier : List (String × MessageId))
    (last : String × MessageId)
    (queue : String) :
    rank (earlier ++ [last]) queue =
      rank earlier queue + if last.1 = queue then 1 else 0 := by
  simp only [rank, List.countP_append, List.countP_singleton, decide_eq_true_eq]

theorem nextAfter_concat
    {earlier : List (String × MessageId)}
    {last : String × MessageId}
    {queue : String}
    (different : last.1 ≠ queue) :
    nextAfter keyspace (earlier ++ [last]) queue =
      nextAfter keyspace earlier queue := by
  rw [nextAfter, rank_concat, if_neg different, Nat.add_zero, nextAfter]

/-- Two deliveries of one queue are given different generations. -/
theorem nextAfter_ne
    {deliveries earlier later : List (String × MessageId)}
    {delivery : String × MessageId}
    (split : deliveries = earlier ++ delivery :: later)
    (bounded : generation keyspace delivery.1 + rank deliveries delivery.1 <
      UInt64.size) :
    nextAfter keyspace earlier delivery.1 ≠
      nextAfter keyspace deliveries delivery.1 := by
  have lower := rank_lt split
  intro same
  rw [← UInt64.toNat_inj, toNat_nextAfter (by omega), toNat_nextAfter bounded]
    at same
  omega

/-- The last of some deliveries is not among the others, or it is the one that
is split off. -/
theorem concat_eq_iff
    {deliveries earlier later : List (String × MessageId)}
    {last delivery : String × MessageId} :
    deliveries ++ [last] = earlier ++ delivery :: later ↔
      (∃ rest, later = rest ++ [last] ∧
        deliveries = earlier ++ delivery :: rest) ∨
      (later = [] ∧ deliveries = earlier ∧ last = delivery) := by
  rcases List.eq_nil_or_concat later with rfl | ⟨rest, final, rfl⟩
  · constructor
    · intro whole
      obtain ⟨rfl, same⟩ := List.append_inj' whole rfl
      exact .inr ⟨rfl, rfl, (List.cons.inj same).1⟩
    · rintro (⟨rest, nothing, _⟩ | ⟨_, rfl, rfl⟩)
      · exact absurd nothing.symm (by simp)
      · rfl
  · have shape : earlier ++ delivery :: (rest ++ [final]) =
        (earlier ++ delivery :: rest) ++ [final] := by simp
    rw [List.concat_eq_append, shape]
    constructor
    · intro whole
      obtain ⟨rfl, same⟩ := List.append_inj' whole rfl
      exact .inl ⟨rest, by rw [(List.cons.inj same).1], rfl⟩
    · rintro (⟨rest', same, rfl⟩ | ⟨nothing, _⟩)
      · obtain ⟨rfl, final⟩ := List.append_inj' same rfl
        rw [(List.cons.inj final).1]
      · exact absurd nothing (by simp)

/-- What holds of every delivery and those before it, with one more at the
end. -/
theorem forall_split_concat
    {deliveries : List (String × MessageId)}
    {last : String × MessageId}
    {holds : List (String × MessageId) → String × MessageId → Prop} :
    (∀ earlier delivery later,
        deliveries ++ [last] = earlier ++ delivery :: later →
        holds earlier delivery) ↔
      (∀ earlier delivery later, deliveries = earlier ++ delivery :: later →
        holds earlier delivery) ∧
      holds deliveries last := by
  constructor
  · intro all
    refine ⟨fun earlier delivery later split => ?_, ?_⟩
    · exact all earlier delivery (later ++ [last])
        (concat_eq_iff.2 (.inl ⟨later, rfl, split⟩))
    · exact all deliveries last [] rfl
  · rintro ⟨old, final⟩ earlier delivery later split
    rcases concat_eq_iff.1 split with ⟨rest, _, before⟩ | ⟨_, rfl, rfl⟩
    · exact old earlier delivery rest before
    · exact final

/-- What holds of the queue of every delivery, with one more at the end. -/
theorem forall_queue_concat
    {deliveries : List (String × MessageId)}
    {queue : String}
    {id : MessageId}
    (holds : String → Prop)
    (old : ∀ delivery ∈ deliveries, delivery.1 ≠ queue → holds delivery.1)
    (last : holds queue) :
    ∀ delivery ∈ deliveries ++ [(queue, id)], holds delivery.1 := by
  intro delivery inside
  by_cases same : delivery.1 = queue
  · rw [same]
    exact last
  · rcases List.mem_append.1 inside with before | final
    · exact old delivery before same
    · exact absurd (congrArg Prod.fst (List.mem_singleton.1 final)) same

/-- The body of a delivery is there until the first of its name is given
back. -/
theorem Progress.messageAfter_eq
    (progress : Progress keyspace settings now visited sweep)
    (stemmed : ∀ other ∈ visited, Bytes.ofText Key.expiries <+: other.1)
    {queue : String}
    (free : ':' ∉ queue.toList)
    (id : MessageId) :
    messageAfter keyspace (dues now visited) (queue, id) =
      deliveredMessage sweep.keyspace queue id := by
  have plain := (Key.body queue id).isPlain_of_name rfl free
  rw [messageAfter]
  apply deliveredMessage_congr
  split
  · rename_i before
    exact (progress.taken (queue, id) before).symm
  · rename_i first
    symm
    refine progress.others _ (fun other inside _ => ?_)
      fun earlier delivery later split => ?_
    · exact Key.bytes_ne_of_stemmed (stemmed other inside)
        (by simp [Key.letter])
    · refine ⟨Key.bytes_ne_of_letter (by simp [Key.letter]),
        Key.bytes_ne_of_letter (by simp [Key.letter]), fun same => first ?_⟩
      obtain ⟨rfl, rfl⟩ := Key.body.inj (Key.eq_of_bytes plain same.symm)
      rw [split]
      exact List.mem_append_right _ List.mem_cons_self

/-- The counter of a queue has counted the deliveries that were given back to
it. -/
theorem Progress.counter_eq_ok_iff
    (progress : Progress keyspace settings now visited sweep)
    (stemmed : ∀ other ∈ visited, Bytes.ofText Key.expiries <+: other.1)
    {queue : String}
    (free : ':' ∉ queue.toList)
    {generation : UInt64} :
    sweep.keyspace.counter "requeue" (.nextGeneration queue) = .ok generation ↔
      (∃ next, keyspace.counter "requeue" (.nextGeneration queue) = .ok next) ∧
      generation.toNat =
        Queue.generation keyspace queue + rank (dues now visited) queue := by
  have plain := (Key.nextGeneration queue).isPlain_of_name rfl free
  by_cases known : ∃ delivery ∈ dues now visited, delivery.1 = queue
  · obtain ⟨delivery, inside, rfl⟩ := known
    have counted := progress.counted delivery inside
    have bounded := progress.bounded delivery inside
    have reads : sweep.keyspace.counter "requeue" (.nextGeneration delivery.1) =
        .ok (nextAfter keyspace (dues now visited) delivery.1) :=
      Queue.counter_eq_ok_iff.2
        (.inr ⟨_, counted, Record.toCounter_ofCounter _ _⟩)
    obtain ⟨earlier, later, split⟩ := List.append_of_mem inside
    have counter := (progress.returnable earlier delivery later split).counter
    rw [reads, Except.ok.injEq, ← UInt64.toNat_inj, toNat_nextAfter bounded]
    exact ⟨fun same => ⟨counter, same.symm⟩, fun found => found.2.symm⟩
  · have none : rank (dues now visited) queue = 0 := by
      rw [rank, List.countP_eq_zero]
      intro delivery inside same
      exact known ⟨delivery, inside, of_decide_eq_true same⟩
    have same : sweep.keyspace.get? (Key.nextGeneration queue).bytes =
        keyspace.get? (Key.nextGeneration queue).bytes := by
      refine progress.others _ (fun other inside _ => ?_)
        fun earlier delivery later split => ?_
      · exact Key.bytes_ne_of_stemmed (stemmed other inside)
          (by simp [Key.letter])
      · refine ⟨Key.bytes_ne_of_letter (by simp [Key.letter]), fun same =>
          known ?_,
          Key.bytes_ne_of_letter (by simp [Key.letter])⟩
        have names := Key.nextGeneration.inj (Key.eq_of_bytes plain same.symm)
        refine ⟨delivery, ?_, names⟩
        rw [split]
        exact List.mem_append_right _ List.mem_cons_self
    have equal : sweep.keyspace.counter "requeue" (.nextGeneration queue) =
        keyspace.counter "requeue" (.nextGeneration queue) := by
      rw [Keyspace.counter, Keyspace.counter?, same, ← Keyspace.counter?,
        ← Keyspace.counter]
    rw [equal, none, Nat.add_zero]
    constructor
    · exact fun found => ⟨⟨_, found⟩, toNat_of_counter found⟩
    · rintro ⟨⟨next, found⟩, number⟩
      rw [found, Except.ok.injEq, ← UInt64.toNat_inj, toNat_of_counter found,
        number]

/-- A delivery that is due is given back when it can be. -/
theorem Progress.giveBack_eq_ok_iff
    (progress : Progress keyspace settings now visited sweep)
    (stemmed : ∀ other ∈ visited, Bytes.ofText Key.expiries <+: other.1)
    {place : Bytes}
    {queue : String}
    (free : ':' ∉ queue.toList)
    {id : MessageId} :
    (∃ after, sweep.giveBack settings place queue id = .ok after) ↔
      Returnable keyspace (dues now visited) (queue, id) := by
  constructor
  · rintro ⟨after, done⟩
    obtain ⟨message, generation, value, next, reads, known, stored,
        follows, _⟩ :=
      Queue.giveBack_eq_ok_iff.1 done
    obtain ⟨counter, number⟩ :=
      (progress.counter_eq_ok_iff stemmed free).1 known
    have small := next.toNat_lt
    refine ⟨⟨message, ?_, ?_⟩, counter, ?_⟩
    · rw [progress.messageAfter_eq stemmed free, reads]
    · exact fits_of_deliveredMessage reads
        (Record.ofMessage_eq_ok_iff.1 stored).1
    · show Queue.generation keyspace queue + rank (dues now visited) queue + 1 <
        2 ^ 64
      omega
  · rintro ⟨⟨message, reads, fits⟩, counter, room⟩
    rw [progress.messageAfter_eq stemmed free] at reads
    have current := toNat_nextAfter (Nat.lt_of_succ_lt room)
    have known := (progress.counter_eq_ok_iff stemmed free).2 ⟨counter, current⟩
    have stored :=
      Record.ofMessage_eq_ok_iff.2 ⟨settings.fits_returned fits, rfl⟩
    have follows : (UInt64.ofNat
          ((nextAfter keyspace (dues now visited) queue).toNat + 1)).toNat =
        (nextAfter keyspace (dues now visited) queue).toNat + 1 :=
      UInt64.toNat_ofNat_of_lt' (current ▸ room)
    exact ⟨_,
      Queue.giveBack_eq_ok_iff.2 ⟨message, _, _, _, reads, known, stored,
        follows, rfl⟩⟩

/-- What a delivery that is due is given back as, and at which generation. -/
theorem Progress.eq_of_giveBack
    (progress : Progress keyspace settings now visited sweep)
    (stemmed : ∀ other ∈ visited, Bytes.ofText Key.expiries <+: other.1)
    {place : Bytes}
    {queue : String}
    (free : ':' ∉ queue.toList)
    {id : MessageId}
    (done : sweep.giveBack settings place queue id = .ok after) :
    ∃ message value,
      messageAfter keyspace (dues now visited) (queue, id) = .ok message ∧
      Record.ofMessage (settings.returned message) = .ok value ∧
      after =
        ⟨sweep.returned + 1,
          givenBack sweep.keyspace place queue id
            (nextAfter keyspace (dues now visited) queue)
            (nextAfter keyspace (dues now visited ++ [(queue, id)]) queue)
            value⟩ := by
  obtain ⟨message, current, value, next, reads, known, stored, follows, rfl⟩ :=
    Queue.giveBack_eq_ok_iff.1 done
  obtain ⟨_, number⟩ := (progress.counter_eq_ok_iff stemmed free).1 known
  have here : current = nextAfter keyspace (dues now visited) queue := by
    rw [nextAfter, ← number, UInt64.ofNat_toNat]
  have beyond : next =
      nextAfter keyspace (dues now visited ++ [(queue, id)]) queue := by
    rw [nextAfter, rank_concat, if_pos rfl, ← Nat.add_assoc, ← number,
      ← follows, UInt64.ofNat_toNat]
  refine ⟨message, value, ?_, stored, ?_⟩
  · rw [progress.messageAfter_eq stemmed free, reads]
  · rw [here, beyond]

/-- A delivery that is due comes last in its queue, and it ends. -/
theorem Progress.give
    (progress : Progress keyspace settings now visited sweep)
    (stemmed : ∀ other ∈ visited ++ [entry],
      Bytes.ofText Key.expiries <+: other.1)
    {queue : String}
    {id : MessageId}
    (due : due? now entry = some (queue, id))
    (done : sweep.giveBack settings entry.1 queue id = .ok after) :
    Progress keyspace settings now (visited ++ [entry]) after := by
  have free := free_of_due? due
  have before : ∀ other ∈ visited, Bytes.ofText Key.expiries <+: other.1 :=
    fun other inside => stemmed other (List.mem_append_left _ inside)
  have here : Bytes.ofText Key.expiries <+: entry.1 :=
    stemmed entry List.mem_concat_self
  have grown : dues now (visited ++ [entry]) =
      dues now visited ++ [(queue, id)] := by
    rw [dues_concat, due]
    rfl
  have possible := (progress.giveBack_eq_ok_iff before free).1 ⟨after, done⟩
  obtain ⟨message, value, reads, stored, rfl⟩ :=
    progress.eq_of_giveBack before free done
  constructor
  case returned =>
      rw [grown, List.length_append, progress.returned]
      rfl
  case returnable =>
      rw [grown, forall_split_concat]
      exact ⟨progress.returnable, possible⟩
  case waits =>
      rw [grown, forall_split_concat]
      refine ⟨fun earlier delivery later split => ?_,
        message, value, reads, stored, ?_⟩
      · obtain ⟨message', value', reads', stored', waits⟩ :=
          progress.waits earlier delivery later split
        refine ⟨message', value', reads', stored', ?_⟩
        rw [givenBack_get?_pending _ here, if_neg, waits]
        rintro ⟨rfl, generations⟩
        exact nextAfter_ne split (Nat.lt_of_succ_lt possible.room) generations
      · rw [givenBack_get?_pending _ here, if_pos ⟨rfl, rfl⟩]
  case bounded =>
      rw [grown]
      refine forall_queue_concat (fun name => generation keyspace name +
        rank (dues now visited ++ [(queue, id)]) name < UInt64.size) ?_ ?_
      · intro delivery inside different
        rw [rank_concat, if_neg different.symm]
        exact progress.bounded delivery inside
      · rw [rank_concat, if_pos rfl]
        exact possible.room
  case counted =>
      rw [grown]
      refine forall_queue_concat (fun name => OrderedMap.get? _
        (Key.nextGeneration name).bytes = some (Record.ofCounter
          (nextAfter keyspace (dues now visited ++ [(queue, id)]) name))) ?_ ?_
      · intro delivery inside different
        rw [givenBack_get?_nextGeneration _ here, if_neg different,
          nextAfter_concat different.symm]
        exact progress.counted delivery inside
      · rw [givenBack_get?_nextGeneration _ here, if_pos rfl]
  case taken =>
      intro delivery inside
      rw [givenBack_get?_body _ here free]
      split
      · rfl
      · rename_i different
        rw [grown] at inside
        rcases List.mem_append.1 inside with old | last
        · exact progress.taken delivery old
        · exact absurd (List.mem_singleton.1 last) different
  case ended =>
      intro other inside leaves
      rw [givenBack_get?_of_stemmed _ _ _ _ _ _ (stemmed other inside)]
      split
      · rfl
      · rename_i different
        rcases List.mem_append.1 inside with old | last
        · exact progress.ended other old leaves
        · exact absurd (congrArg Prod.fst (List.mem_singleton.1 last)) different
  case others =>
      intro sought apart elsewhere
      rw [grown, forall_split_concat] at elsewhere
      obtain ⟨old, waiting, counter, body⟩ := elsewhere
      have leaving := apart entry List.mem_concat_self
        (.inl (by rw [due]; rfl))
      rw [givenBack_get?, if_neg body, if_neg leaving, if_neg counter,
        if_neg waiting]
      exact progress.others sought
        (fun other inside => apart other (List.mem_append_left _ inside)) old

/-- An entry is visited with success unless it is due and cannot be given
back. -/
theorem Progress.visit
    (progress : Progress keyspace settings now visited sweep)
    (stemmed : ∀ other ∈ visited ++ [entry],
      Bytes.ofText Key.expiries <+: other.1) :
    ((∃ after, sweep.visit settings now entry = .ok after) ↔
      ∀ delivery, due? now entry = some delivery →
        Returnable keyspace (dues now visited) delivery) ∧
    ∀ after, sweep.visit settings now entry = .ok after →
      Progress keyspace settings now (visited ++ [entry]) after := by
  have before : ∀ other ∈ visited, Bytes.ofText Key.expiries <+: other.1 :=
    fun other inside => stemmed other (List.mem_append_left _ inside)
  have here : Bytes.ofText Key.expiries <+: entry.1 :=
    stemmed entry (List.mem_append_right _ (List.mem_singleton_self _))
  rcases visit_cases settings now sweep entry with
    ⟨queue, id, due, visits⟩ | ⟨due, damaged, visits⟩ | ⟨due, intact, visits⟩
  · rw [visits, due]
    refine ⟨?_, fun after => progress.give stemmed due⟩
    rw [progress.giveBack_eq_ok_iff before (free_of_due? due)]
    exact ⟨fun possible delivery same => Option.some.inj same ▸ possible,
      fun possible => possible _ rfl⟩
  · rw [visits, due]
    refine ⟨⟨fun _ delivery due => (nomatch due), fun _ => ⟨_, rfl⟩⟩, ?_⟩
    rintro after ⟨⟩
    refine progress.pass here due (fun place other => ?_) (fun _ => ?_)
      fun intact => absurd damaged intact
    · rw [OrderedMap.get?_erase, if_neg other]
    · rw [OrderedMap.get?_erase, if_pos rfl]
  · rw [visits, due]
    refine ⟨⟨fun _ delivery due => (nomatch due), fun _ => ⟨_, rfl⟩⟩, ?_⟩
    rintro after ⟨⟩
    exact progress.pass here due (fun _ _ => rfl)
      (fun damaged => absurd damaged intact)
      fun _ => rfl

theorem forall_split_cons
    {first : String × MessageId}
    {rest : List (String × MessageId)}
    {holds : List (String × MessageId) → String × MessageId → Prop} :
    (∀ earlier delivery later, first :: rest = earlier ++ delivery :: later →
        holds earlier delivery) ↔
      holds [] first ∧
      ∀ earlier delivery later, rest = earlier ++ delivery :: later →
        holds (first :: earlier) delivery := by
  constructor
  · exact fun all => ⟨all [] first rest rfl, fun earlier delivery later split =>
      all (first :: earlier) delivery later (by rw [split, List.cons_append])⟩
  · rintro ⟨head, tail⟩ earlier delivery later split
    cases earlier with
    | nil =>
        cases split
        exact head
    | cons other earlier =>
        cases split
        exact tail earlier delivery later rfl

/-- A run over entries succeeds exactly if all that are due can be given back at
their turn.  What is due from an entry on is due after it, behind the entry
itself. -/
theorem Progress.run
    (progress : Progress keyspace settings now visited sweep)
    {entries : List (Bytes × Bytes)}
    (stemmed : ∀ other ∈ visited ++ entries,
      Bytes.ofText Key.expiries <+: other.1) :
    ((∃ after, entries.foldlM (Sweep.visit settings now) sweep = .ok after) ↔
      ∀ earlier delivery later,
        dues now entries = earlier ++ delivery :: later →
        Returnable keyspace (dues now visited ++ earlier) delivery) ∧
    ∀ after, entries.foldlM (Sweep.visit settings now) sweep = .ok after →
      Progress keyspace settings now (visited ++ entries) after := by
  induction entries generalizing visited sweep with
  | nil =>
      refine ⟨⟨fun _ earlier delivery later split => ?_, fun _ => ⟨sweep, rfl⟩⟩,
        ?_⟩
      · simp [dues] at split
      · rintro after ⟨⟩
        rwa [List.append_nil]
  | cons entry rest step =>
      rw [List.append_cons] at stemmed ⊢
      obtain ⟨succeeds, kept⟩ :=
        progress.visit fun other inside =>
          stemmed other (List.mem_append_left _ inside)
      have turns : (∀ earlier delivery later,
            dues now (entry :: rest) = earlier ++ delivery :: later →
            Returnable keyspace (dues now visited ++ earlier) delivery) ↔
          (∀ delivery, due? now entry = some delivery →
            Returnable keyspace (dues now visited) delivery) ∧
          ∀ earlier delivery later,
            dues now rest = earlier ++ delivery :: later →
            Returnable keyspace (dues now (visited ++ [entry]) ++ earlier)
              delivery := by
        rw [dues_concat, dues, List.filterMap_cons]
        cases due? now entry with
        | none => simp [dues]
        | some first =>
            dsimp only
            rw [forall_split_cons]
            simp [dues]
      constructor
      · rw [turns, ← succeeds, List.foldlM_cons]
        constructor
        · rintro ⟨after, done⟩
          obtain ⟨middle, visits, rested⟩ := bind_eq_ok_iff.1 done
          exact ⟨⟨middle, visits⟩,
            (step (kept middle visits) stemmed).1.1 ⟨after, rested⟩⟩
        · rintro ⟨⟨middle, visits⟩, later⟩
          obtain ⟨after, rested⟩ :=
            (step (kept middle visits) stemmed).1.2 later
          exact ⟨after, bind_eq_ok_iff.2 ⟨middle, visits, rested⟩⟩
      · intro after done
        rw [List.foldlM_cons] at done
        obtain ⟨middle, visits, rested⟩ := bind_eq_ok_iff.1 done
        exact (step (kept middle visits) stemmed).2 after rested

end MessageBroker.Queue
