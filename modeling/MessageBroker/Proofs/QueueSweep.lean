import MessageBroker.Proofs.QueueOperations

/-!
# What a sweep does

A sweep visits the deliveries of all queues in the order of their keys, and
expires each.  A visit leaves the expiries of other deliveries as they are, so
those that the sweep has listed are still there when it comes to them.  On
contents a sweep is the run of the expiries that it lists.
-/

namespace MessageBroker

namespace Queue

variable {keyspace : Keyspace}

theorem Settings.returned_id
    (settings : Settings)
    (message : Message) :
    (settings.returned message).id = message.id := by
  unfold returned
  split <;> rfl

/-- A visit leaves a delivery whose time is not past, and gives any other back
with the message that was handed out. -/
theorem Sound.visit_eq
    (sound : Sound keyspace)
    {queue : String}
    (free : ':' ∉ queue.toList)
    {id : MessageId}
    {content : Bytes}
    (held : keyspace.get? (Key.expiry queue id).bytes = some content)
    (settings : Settings)
    (now : UInt64)
    (count : Nat) :
    ∃ time message, delivered? keyspace queue id = some (time, message) ∧
      message.id = id ∧
      id ≠ .nil ∧
      message.Fits ∧
      deliveredMessage keyspace queue id = .ok message ∧
      Sweep.visit settings now ⟨count, keyspace⟩
          ((Key.expiry queue id).bytes, content) =
        if now ≤ time then .ok ⟨count, keyspace⟩
        else Sweep.giveBack ⟨count, keyspace⟩ settings
          (Key.expiry queue id).bytes queue id := by
  obtain ⟨time, message, body, rfl, foundBody, stored, same, named, found⟩ :=
    sound.exists_delivered held
  have whole : deliveredMessage keyspace queue id = .ok message := by
    rw [deliveredMessage, foundBody]
    exact Record.toMessage_ofMessage stored "requeue"
  refine ⟨time, message, found, same, named,
    (Record.ofMessage_eq_ok_iff.1 stored).1, whole, ?_⟩
  unfold Sweep.visit
  simp only [Key.readExpiry?_expiry free, Record.toCounter_ofCounter]

/-- One visit of a sweep expires one delivery, and no other. -/
theorem Sound.visit
    (sound : Sound keyspace)
    {queue : String}
    (free : ':' ∉ queue.toList)
    {id : MessageId}
    {content : Bytes}
    (held : keyspace.get? (Key.expiry queue id).bytes = some content)
    (settings : Settings)
    (now : UInt64)
    {count : Nat}
    {sweep : Sweep}
    (done : Sweep.visit settings now ⟨count, keyspace⟩
        ((Key.expiry queue id).bytes, content) =
      .ok sweep) :
    Sound sweep.keyspace ∧
    contents sweep.keyspace =
      (contents keyspace).expire settings now (queue, id) ∧
    ∀ sought other, ¬ (sought = queue ∧ other = id) →
      sweep.keyspace.get? (Key.expiry sought other).bytes =
        keyspace.get? (Key.expiry sought other).bytes := by
  obtain ⟨time, message, found, rfl, named, _, whole, visits⟩ :=
    sound.visit_eq free held settings now count
  have delivered : (contents keyspace).delivered queue message.id =
      some (time, message) :=
    found
  rw [visits] at done
  simp only [Contents.expire, delivered]
  split at done
  · rename_i later
    cases done
    rw [if_pos later]
    exact ⟨sound, rfl, fun _ _ _ => rfl⟩
  · rename_i past
    unfold Sweep.giveBack at done
    rw [whole, ok_bind] at done
    obtain ⟨generation, known, done⟩ := bind_eq_ok_iff.1 done
    obtain ⟨value, stored', done⟩ := bind_eq_ok_iff.1 done
    obtain ⟨queued, put, done⟩ := bind_eq_ok_iff.1 done
    cases done
    have named' : (settings.returned message).id ≠ .nil := by
      rw [settings.returned_id]
      exact named
    have queuedSound := sound.putLast free known stored' named' put
    rw [if_neg past]
    refine ⟨queuedSound.acknowledge free message.id, ?_,
      fun sought other different => ?_⟩
    · rw [← sound.contents_putLast free known stored' put]
      exact contents_acknowledge free message.id
    · have found :=
        acknowledge_get? queued free message.id (.expiry sought other)
      rw [if_neg (by simp), if_neg,
        (putLast_deliveries free put sought other).1] at found
      · exact found
      · rintro ⟨⟩
        exact different ⟨rfl, rfl⟩

/-- The deliveries of all queues, in the order of their keys. -/
def deliveries (keyspace : Keyspace) : List (String × MessageId) :=
  (keyspace.withStem Key.expiries).filterMap fun entry =>
    Key.readExpiry? entry.1

/-- The keys that a sweep visits are those of the expiries. -/
theorem Sound.mem_expiries
    (sound : Sound keyspace)
    {place content : Bytes}
    (inside : (place, content) ∈ keyspace.withStem Key.expiries) :
    ∃ queue id, ':' ∉ queue.toList ∧
      place = (Key.expiry queue id).bytes ∧
      keyspace.get? (Key.expiry queue id).bytes = some content := by
  obtain ⟨stemmed, found⟩ := Keyspace.mem_withStem_iff.1 inside
  obtain ⟨key, plain, rfl⟩ := sound.legible place content found
  obtain ⟨queue, id, rfl⟩ := Key.expiries_prefix_iff.1 stemmed
  exact ⟨queue, id, plain queue (by simp [Key.names]), rfl, found⟩

/-- Entries that are expiries of deliveries. -/
def Listed (keyspace : Keyspace) (entries : List (Bytes × Bytes)) : Prop :=
  ∀ entry ∈ entries, ∃ queue id, ':' ∉ queue.toList ∧
    entry.1 = (Key.expiry queue id).bytes ∧
    keyspace.get? (Key.expiry queue id).bytes = some entry.2

theorem Sound.listed (sound : Sound keyspace) :
    Listed keyspace (keyspace.withStem Key.expiries) :=
  fun _ inside => sound.mem_expiries inside

/-- What changes no expiry but the first leaves the others listed. -/
theorem Listed.tail
    {after : Keyspace}
    {queue : String}
    {id : MessageId}
    {content : Bytes}
    {rest : List (Bytes × Bytes)}
    (listed : Listed keyspace (((Key.expiry queue id).bytes, content) :: rest))
    (below : ∀ entry ∈ rest, (Key.expiry queue id).bytes < entry.1)
    (others : ∀ sought other, ¬ (sought = queue ∧ other = id) →
      after.get? (Key.expiry sought other).bytes =
        keyspace.get? (Key.expiry sought other).bytes) :
    Listed after rest := by
  intro entry inside
  obtain ⟨queue', id', free', same, found⟩ :=
    listed entry (List.mem_cons_of_mem _ inside)
  refine ⟨queue', id', free', same, ?_⟩
  rw [others queue' id', found]
  rintro ⟨rfl, rfl⟩
  have rises := below entry inside
  rw [same] at rises
  exact List.lt_irrefl _ rises

/-- A run over expiries that are still there expires them one after the other,
and leaves those that come after them. -/
theorem Sound.foldlM_visit
    (settings : Settings)
    (now : UInt64)
    {front rest : List (Bytes × Bytes)}
    (ordered : (front ++ rest).Pairwise fun earlier later =>
      earlier.1 < later.1)
    {start finish : Sweep}
    (sound : Sound start.keyspace)
    (listed : Listed start.keyspace (front ++ rest))
    (done : front.foldlM (Sweep.visit settings now) start = .ok finish) :
    Sound finish.keyspace ∧
    Listed finish.keyspace rest ∧
    contents finish.keyspace =
      (front.filterMap fun entry => Key.readExpiry? entry.1).foldl
        (Contents.expire settings now) (contents start.keyspace) := by
  induction front generalizing start with
  | nil =>
      cases done
      exact ⟨sound, listed, rfl⟩
  | cons entry front step =>
      obtain ⟨below, tail⟩ := List.pairwise_cons.1 ordered
      rw [List.foldlM_cons] at done
      obtain ⟨middle, visited, rested⟩ := bind_eq_ok_iff.1 done
      obtain ⟨place, content⟩ := entry
      obtain ⟨queue, id, free, rfl, found⟩ := listed _ List.mem_cons_self
      obtain ⟨middleSound, expired, others⟩ :=
        sound.visit free found settings now visited
      obtain ⟨finishSound, left, swept⟩ :=
        step tail middleSound (listed.tail below others) rested
      refine ⟨finishSound, left, ?_⟩
      rw [swept, expired]
      simp only [List.filterMap_cons, Key.readExpiry?_expiry free,
        List.foldl_cons]

/-- A sweep that succeeds expires the deliveries of all queues, one after the
other. -/
theorem Sound.requeueExpired
    (sound : Sound keyspace)
    (settings : Settings)
    (now : UInt64)
    {sweep : Sweep}
    (done : requeueExpired keyspace settings now = .ok sweep) :
    Sound sweep.keyspace ∧
    contents sweep.keyspace =
      (deliveries keyspace).foldl (Contents.expire settings now)
        (contents keyspace) := by
  have ordered := Keyspace.withStem_ordered keyspace Key.expiries
  have listed := sound.listed
  rw [← List.append_nil (keyspace.withStem Key.expiries)] at ordered listed
  obtain ⟨after, _, expired⟩ :=
    Sound.foldlM_visit settings now ordered sound listed done
  exact ⟨after, expired⟩

end Queue

end MessageBroker
