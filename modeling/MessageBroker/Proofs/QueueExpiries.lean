import MessageBroker.Proofs.QueueGenerations

/-!
# What a sweep returns

A delivery whose time is past is overdue.  An expiry of one delivery changes no
other, so a run of expiries of distinct deliveries returns exactly those that
were overdue before it, each queue's in the order of the run.  A sweep runs over
every delivery once, and while its queues have generations left, it succeeds and
says how many it returned.
-/

namespace MessageBroker

namespace Queue

namespace Contents

variable {settings : Settings} {now : UInt64} {contents : Contents}

/-- The message that an overdue delivery gives back. -/
def overdue?
    (settings : Settings)
    (now : UInt64)
    (contents : Contents)
    (place : String × MessageId) :
    Option Message :=
  match contents.delivered place.1 place.2 with
  | none => none
  | some (expiry, message) =>
      if now ≤ expiry then none else some (settings.returned message)

/-- The messages that a run of expiries gives back to a queue. -/
def given
    (settings : Settings)
    (now : UInt64)
    (contents : Contents)
    (queue : String)
    (places : List (String × MessageId)) :
    List Message :=
  (places.filter fun place => decide (place.1 = queue)).filterMap
    (contents.overdue? settings now)

/-- How many deliveries a run of expiries gives back. -/
def givenCount
    (settings : Settings)
    (now : UInt64)
    (contents : Contents)
    (places : List (String × MessageId)) :
    Nat :=
  places.countP fun place => (contents.overdue? settings now place).isSome

theorem given_cons
    (queue : String)
    (place : String × MessageId)
    (rest : List (String × MessageId)) :
    contents.given settings now queue (place :: rest) =
      (if place.1 = queue then (contents.overdue? settings now place).toList
          else []) ++ contents.given settings now queue rest := by
  unfold given
  rw [List.filter_cons]
  by_cases here : place.1 = queue
  · rw [if_pos (decide_eq_true here), if_pos here, List.filterMap_cons]
    cases contents.overdue? settings now place <;> rfl
  · rw [if_neg (by simpa using here), if_neg here, List.nil_append]

/-! ## One expiry -/

/-- An expiry returns what is overdue. -/
theorem expire_eq (place : String × MessageId) :
    contents.expire settings now place =
      match contents.overdue? settings now place with
      | none => contents
      | some message =>
          (contents.put place.1 message).settle place.1 place.2 := by
  unfold expire overdue?
  cases contents.delivered place.1 place.2 with
  | none => rfl
  | some delivery =>
      obtain ⟨expiry, message⟩ := delivery
      dsimp only
      split <;> rfl

theorem waiting_expire
    (place : String × MessageId)
    (queue : String) :
    (contents.expire settings now place).waiting queue =
      contents.waiting queue ++
        if place.1 = queue then (contents.overdue? settings now place).toList
        else [] := by
  rw [expire_eq]
  cases contents.overdue? settings now place with
  | none => simp
  | some message =>
      by_cases here : place.1 = queue
      · simp [settle, put, here]
      · simp [settle, put, here, Ne.symm here]

theorem delivered_expire
    (place : String × MessageId)
    (queue : String)
    (id : MessageId) :
    (contents.expire settings now place).delivered queue id =
      if place = (queue, id) ∧ (contents.overdue? settings now place).isSome
      then none
      else contents.delivered queue id := by
  rw [expire_eq]
  cases contents.overdue? settings now place with
  | none => simp
  | some message =>
      obtain ⟨queue', id'⟩ := place
      simp [settle, put, Prod.mk.injEq, eq_comm]

/-- An expiry does not change what else is overdue. -/
theorem overdue?_expire
    {place other : String × MessageId}
    (different : place ≠ other) :
    (contents.expire settings now place).overdue? settings now other =
      contents.overdue? settings now other := by
  unfold overdue?
  rw [delivered_expire, if_neg fun same => different same.1]

/-- An expiry does not change what the others give back to a queue. -/
theorem given_expire
    {place : String × MessageId}
    {rest : List (String × MessageId)}
    (outside : place ∉ rest)
    (queue : String) :
    (contents.expire settings now place).given settings now queue rest =
      contents.given settings now queue rest := by
  induction rest with
  | nil => rfl
  | cons other rest step =>
      obtain ⟨different, outside⟩ :=
        not_or.1 fun inside => outside (List.mem_cons.2 inside)
      rw [given_cons, given_cons, overdue?_expire different, step outside]

theorem givenCount_expire
    {place : String × MessageId}
    {rest : List (String × MessageId)}
    (outside : place ∉ rest) :
    (contents.expire settings now place).givenCount settings now rest =
      contents.givenCount settings now rest := by
  refine List.countP_congr fun other inside => ?_
  have different : place ≠ other := fun same => outside (same ▸ inside)
  rw [overdue?_expire different]

/-! ## A run of expiries -/

/-- A run of expiries returns what is overdue to the tails of the queues. -/
theorem waiting_foldl_expire
    {places : List (String × MessageId)}
    (distinct : places.Nodup)
    (queue : String) :
    (places.foldl (expire settings now) contents).waiting queue =
      contents.waiting queue ++ contents.given settings now queue places := by
  induction places generalizing contents with
  | nil => exact (List.append_nil _).symm
  | cons place rest step =>
      obtain ⟨outside, restDistinct⟩ := List.nodup_cons.1 distinct
      rw [List.foldl_cons, step restDistinct, waiting_expire,
        given_expire outside, given_cons, List.append_assoc]

/-- A run of expiries ends the deliveries that are overdue. -/
theorem delivered_foldl_expire
    {places : List (String × MessageId)}
    (distinct : places.Nodup)
    (queue : String)
    (id : MessageId) :
    (places.foldl (expire settings now) contents).delivered queue id =
      if (queue, id) ∈ places ∧
          (contents.overdue? settings now (queue, id)).isSome
      then none
      else contents.delivered queue id := by
  induction places generalizing contents with
  | nil => simp
  | cons place rest step =>
      obtain ⟨outside, restDistinct⟩ := List.nodup_cons.1 distinct
      rw [List.foldl_cons, step restDistinct, delivered_expire]
      by_cases here : place = (queue, id)
      · have gone : (queue, id) ∉ rest := here ▸ outside
        simp [here, gone]
      · simp only [overdue?_expire here, here, false_and, if_false,
          List.mem_cons, Ne.symm here, false_or]

end Contents

/-! ## The run of a sweep -/

variable {keyspace : Keyspace}

theorem overdue?_eq
    {queue : String}
    {id : MessageId}
    {time : UInt64}
    {message : Message}
    (found : delivered? keyspace queue id = some (time, message))
    (settings : Settings)
    (now : UInt64) :
    (contents keyspace).overdue? settings now (queue, id) =
      if now ≤ time then none else some (settings.returned message) := by
  have delivered : (contents keyspace).delivered queue id =
      some (time, message) :=
    found
  simp only [Contents.overdue?, delivered]

theorem Settings.fits_returned
    (settings : Settings)
    {message : Message}
    (fits : message.Fits) :
    (settings.returned message).Fits := by
  unfold returned
  split
  · exact fits
  · have short : expiredPayload.length ≤ Message.maxLength 4 := by decide
    exact ⟨fits.topic, fits.key, fits.producer, short⟩

/-- A visit succeeds where there is a generation left for what it returns. -/
theorem Sound.visit_succeeds
    (sound : Sound keyspace)
    {queue : String}
    (free : ':' ∉ queue.toList)
    {id : MessageId}
    {content : Bytes}
    (held : keyspace.get? (Key.expiry queue id).bytes = some content)
    (settings : Settings)
    (now : UInt64)
    (count : Nat)
    (room : generation keyspace queue +
        ((contents keyspace).overdue? settings now (queue, id)).toList.length <
      UInt64.size) :
    ∃ sweep,
      Sweep.visit settings now ⟨count, keyspace⟩
          ((Key.expiry queue id).bytes, content) =
        .ok sweep ∧
      sweep.returned =
        count +
          (if ((contents keyspace).overdue? settings now (queue, id)).isSome
          then 1 else 0) ∧
      ∀ sought, generation sweep.keyspace sought =
        generation keyspace sought +
          (if queue = sought then
            ((contents keyspace).overdue? settings now (queue, id)).toList
          else []).length := by
  obtain ⟨time, message, found, rfl, _, fits, whole, visits⟩ :=
    sound.visit_eq free held settings now count
  rw [visits, overdue?_eq found]
  rw [overdue?_eq found] at room
  split
  · rename_i later
    exact ⟨_, rfl, rfl, fun sought => by simp⟩
  · rename_i past
    rw [if_neg past] at room
    have stored' :=
      Record.ofMessage_eq_ok_iff.2 ⟨settings.fits_returned fits, rfl⟩
    obtain ⟨next, known, same⟩ := sound.counter_eq_generation "requeue" queue
    obtain ⟨queued, put⟩ := putLast_succeeds keyspace queue (same ▸ room)
      (Record.version :: (settings.returned message).layout)
    unfold Sweep.giveBack
    simp only [whole, ok_bind, known, stored', put]
    refine ⟨_, rfl, rfl, fun sought => ?_⟩
    have acknowledged :
        generation (Queue.acknowledge queued queue message.id) sought =
          generation queued sought :=
      generation_acknowledge free message.id sought
    refine acknowledged.trans
      ((generation_putLast free same put sought).trans ?_)
    by_cases here : sought = queue
    · simp [here]
    · simp [here, Ne.symm here]

/-- Listed entries name distinct deliveries. -/
theorem Listed.nodup
    {entries : List (Bytes × Bytes)}
    (listed : Listed keyspace entries)
    (ordered : entries.Pairwise fun earlier later => earlier.1 < later.1) :
    (entries.filterMap fun entry => Key.readExpiry? entry.1).Nodup := by
  rw [List.Nodup, List.pairwise_filterMap]
  refine ordered.imp_of_mem ?_
  intro earlier later insideEarlier insideLater rises place reads place' reads'
  obtain ⟨queue, id, free, same, _⟩ := listed earlier insideEarlier
  obtain ⟨queue', id', free', same', _⟩ := listed later insideLater
  rw [same, Key.readExpiry?_expiry free, Option.some.injEq] at reads
  rw [same', Key.readExpiry?_expiry free', Option.some.injEq] at reads'
  rintro rfl
  cases reads.trans reads'.symm
  rw [same, same'] at rises
  exact List.lt_irrefl _ rises

/-- A run over listed expiries succeeds where every queue has generations left
for what is returned to it, and counts what is overdue.  What a run gives back
later on was overdue from the start. -/
theorem Sound.foldlM_visit_succeeds
    (settings : Settings)
    (now : UInt64)
    {entries : List (Bytes × Bytes)}
    (ordered : entries.Pairwise fun earlier later => earlier.1 < later.1)
    (start : Sweep)
    (sound : Sound start.keyspace)
    (listed : Listed start.keyspace entries)
    {places : List (String × MessageId)}
    (named : places = entries.filterMap fun entry => Key.readExpiry? entry.1)
    (room : ∀ queue,
      generation start.keyspace queue +
          ((contents start.keyspace).given settings now queue places).length <
        UInt64.size) :
    ∃ finish, entries.foldlM (Sweep.visit settings now) start = .ok finish ∧
      finish.returned =
        start.returned +
          (contents start.keyspace).givenCount settings now places ∧
      ∀ queue, generation finish.keyspace queue =
        generation start.keyspace queue +
          ((contents start.keyspace).given settings now queue
            places).length := by
  induction entries generalizing start places with
  | nil =>
      subst named
      exact ⟨start, rfl, rfl, fun queue => rfl⟩
  | cons entry rest step =>
      have distinct := listed.nodup ordered
      obtain ⟨below, tail⟩ := List.pairwise_cons.1 ordered
      obtain ⟨place, content⟩ := entry
      obtain ⟨queue, id, free, rfl, found⟩ := listed _ List.mem_cons_self
      simp only [List.filterMap_cons, Key.readExpiry?_expiry free]
        at named distinct
      subst named
      obtain ⟨outside, _⟩ := List.nodup_cons.1 distinct
      have first : generation start.keyspace queue +
            ((contents start.keyspace).overdue? settings now
              (queue, id)).toList.length <
          UInt64.size := by
        have whole := room queue
        rw [Contents.given_cons, if_pos rfl, List.length_append,
          ← Nat.add_assoc] at whole
        exact Nat.lt_of_le_of_lt (Nat.le_add_right _ _) whole
      obtain ⟨middle, visited, counted, generations⟩ :=
        sound.visit_succeeds free found settings now start.returned first
      obtain ⟨middleSound, expired, others⟩ :=
        sound.visit free found settings now visited
      have left : ∀ sought,
          generation middle.keyspace sought +
              ((contents middle.keyspace).given settings now sought
                (rest.filterMap fun entry => Key.readExpiry? entry.1)).length <
            UInt64.size := by
        intro sought
        have whole := room sought
        rw [Contents.given_cons, List.length_append, ← Nat.add_assoc] at whole
        rw [generations, expired, Contents.given_expire outside]
        exact whole
      obtain ⟨finish, done, returned, counts⟩ :=
        step tail middle middleSound (listed.tail below others) rfl left
      refine ⟨finish, ?_, ?_, fun sought => ?_⟩
      · rw [List.foldlM_cons]
        exact bind_eq_ok_iff.2 ⟨middle, visited, done⟩
      · rw [returned, counted, expired, Contents.givenCount_expire outside,
          Contents.givenCount, Contents.givenCount, List.countP_cons]
        omega
      · rw [counts, generations, expired, Contents.given_expire outside,
          Contents.given_cons, List.length_append]
        exact Nat.add_assoc _ _ _

/-! ## The deliveries of a keyspace -/

theorem Sound.deliveries_nodup (sound : Sound keyspace) :
    (deliveries keyspace).Nodup :=
  sound.listed.nodup (Keyspace.withStem_ordered keyspace _)

/-- Every delivery is listed. -/
theorem Sound.mem_deliveries_iff
    (sound : Sound keyspace)
    {queue : String}
    {id : MessageId} :
    (queue, id) ∈ deliveries keyspace ↔
      ∃ delivery, delivered? keyspace queue id = some delivery := by
  rw [deliveries, List.mem_filterMap]
  constructor
  · rintro ⟨⟨place, content⟩, inside, reads⟩
    obtain ⟨queue', id', free, rfl, found⟩ := sound.mem_expiries inside
    rw [Key.readExpiry?_expiry free] at reads
    cases reads
    obtain ⟨time, message, _, _, _, _, _, _, delivered⟩ :=
      sound.exists_delivered found
    exact ⟨_, delivered⟩
  · rintro ⟨⟨time, message⟩, delivered⟩
    obtain ⟨found, _⟩ := sound.delivered?_eq_some_iff.1 delivered
    have plain := sound.legible.isPlain found
    have free : ':' ∉ queue.toList := plain queue (by simp [Key.names])
    exact ⟨⟨_, _⟩,
      Keyspace.mem_withStem_iff.2 ⟨Key.expiries_prefix_iff.2 ⟨queue, id, rfl⟩,
        found⟩,
      Key.readExpiry?_expiry free id⟩

theorem Listed.filter_places
    {entries : List (Bytes × Bytes)}
    (listed : Listed keyspace entries)
    (queue : String) :
    (entries.filterMap fun entry => Key.readExpiry? entry.1).filter
        (fun place => decide (place.1 = queue)) =
      (entries.filter fun entry =>
          (Bytes.ofText (Key.expiriesOf queue)).isPrefixOf entry.1).filterMap
        fun entry => Key.readExpiry? entry.1 := by
  induction entries with
  | nil => rfl
  | cons entry rest step =>
      obtain ⟨place, content⟩ := entry
      obtain ⟨sought, id, free, rfl, _⟩ := listed _ List.mem_cons_self
      have tail :=
        step fun other inside => listed other (List.mem_cons_of_mem _ inside)
      have plain := (Key.expiry sought id).isPlain_of_name rfl free
      have here : (Bytes.ofText (Key.expiriesOf queue)).isPrefixOf
            (Key.expiry sought id).bytes =
          decide (sought = queue) := by
        rw [Bool.eq_iff_iff, List.isPrefixOf_iff_prefix, decide_eq_true_iff,
          Key.expiriesOf_front_iff fun _ => plain]
        simp
      simp only [List.filterMap_cons, Key.readExpiry?_expiry free,
        List.filter_cons, here, tail]
      by_cases same : sought = queue
      · simp [same, Key.readExpiry?_expiry (same ▸ free)]
      · simp [same]

/-- The listed deliveries of one queue are those that the queue's own scan
shows. -/
theorem Sound.deliveries_of_queue
    (sound : Sound keyspace)
    (queue : String) :
    (deliveries keyspace).filter (fun place => decide (place.1 = queue)) =
      (keyspace.withStem (Key.expiriesOf queue)).filterMap fun entry =>
        Key.readExpiry? entry.1 := by
  have stem : Key.expiriesOf queue = Key.expiries ++ (queue ++ ":") := by
    rw [Key.expiriesOf, String.append_assoc]
  rw [deliveries, sound.listed.filter_places, stem, Keyspace.filter_withStem]

/-- A sweep succeeds where every queue has generations left for what is returned
to it. -/
theorem Sound.requeueExpired_succeeds
    (sound : Sound keyspace)
    (settings : Settings)
    (now : UInt64)
    (room : ∀ queue,
      generation keyspace queue +
          ((contents keyspace).given settings now queue
            (deliveries keyspace)).length <
        UInt64.size) :
    ∃ sweep, Queue.requeueExpired keyspace settings now = .ok sweep ∧
      sweep.returned =
        (contents keyspace).givenCount settings now (deliveries keyspace) ∧
      ∀ queue, generation sweep.keyspace queue =
        generation keyspace queue +
          ((contents keyspace).given settings now queue
            (deliveries keyspace)).length := by
  obtain ⟨sweep, done, returned, generations⟩ :=
    Sound.foldlM_visit_succeeds settings now
      (Keyspace.withStem_ordered keyspace Key.expiries)
      ⟨0, keyspace⟩ sound sound.listed rfl room
  exact ⟨sweep, done, returned.trans (Nat.zero_add _), generations⟩

end Queue

end MessageBroker
