import MessageBroker.Proofs.QueueState

/-!
# What queue operations do

On contents, enqueueing puts a message last, a dequeue hands out the first, an
acknowledgement settles a delivery, and an expiry gives a delivery back to the
end of its queue.  Enqueueing, a dequeue and an acknowledgement of a sound
keyspace leave it sound and do to its contents just that.
-/

namespace MessageBroker

namespace Queue

namespace Contents

/-- A message comes last in a queue. -/
def put
    (contents : Contents)
    (queue : String)
    (message : Message) :
    Contents where
  waiting sought :=
    if sought = queue then contents.waiting sought ++ [message]
    else contents.waiting sought
  delivered := contents.delivered

/-- The first message of a queue is delivered until a time. -/
def handOut
    (contents : Contents)
    (queue : String)
    (expiry : UInt64) :
    Contents :=
  match contents.waiting queue with
  | [] => contents
  | message :: rest =>
      { waiting := fun sought =>
          if sought = queue then rest else contents.waiting sought
        delivered := fun sought id =>
          if sought = queue ∧ id = message.id then some (expiry, message)
          else contents.delivered sought id }

theorem waiting_handOut
    (contents : Contents)
    (queue : String)
    (expiry : UInt64)
    (sought : String) :
    (contents.handOut queue expiry).waiting sought =
      if sought = queue then (contents.waiting queue).tail
      else contents.waiting sought := by
  unfold handOut
  split
  · rename_i nothing
    split
    · rename_i same
      rw [same, nothing, List.tail_nil]
    · rfl
  · rename_i waiting
    rw [waiting, List.tail_cons]

/-- A delivery ends. -/
def settle
    (contents : Contents)
    (queue : String)
    (id : MessageId) :
    Contents where
  waiting := contents.waiting
  delivered sought other :=
    if sought = queue ∧ other = id then none
    else contents.delivered sought other

/-- A delivery ends if its time is past, and its message comes last in its
queue. -/
def expire
    (settings : Settings)
    (now : UInt64)
    (contents : Contents)
    (place : String × MessageId) :
    Contents :=
  match contents.delivered place.1 place.2 with
  | none => contents
  | some (expiry, message) =>
      if now ≤ expiry then contents
      else (contents.put place.1 (settings.returned message)).settle place.1
        place.2

end Contents

variable {keyspace after : Keyspace}

/-! ## Putting last -/

theorem successor_eq_ok_iff
    {queue : String}
    {generation next : UInt64} :
    successor queue generation = .ok next ↔
      next.toNat = generation.toNat + 1 := by
  have one : (1 : UInt64).toNat = 1 := rfl
  have size : UInt64.size = 2 ^ 64 := rfl
  have bound := next.toNat_lt
  unfold successor
  split
  · rename_i room
    have sum : (generation + 1).toNat = generation.toNat + 1 := by
      rw [UInt64.toNat_add, one]
      omega
    rw [Except.ok.injEq, ← UInt64.toNat_inj, sum]
    exact eq_comm
  · rename_i full
    constructor
    · intro done
      cases done
    · intro follows
      omega

theorem putLast_eq_ok_iff
    {queue : String}
    {generation : UInt64}
    {value : Bytes} :
    putLast keyspace queue generation value = .ok after ↔
      ∃ next : UInt64, next.toNat = generation.toNat + 1 ∧
        after =
          Keyspace.setCounter
            (keyspace.insert (Key.pending queue generation).bytes value)
            (.nextGeneration queue) next := by
  constructor
  · intro done
    obtain ⟨next, succeeds, done⟩ := bind_eq_ok_iff.1 done
    cases done
    exact ⟨next, successor_eq_ok_iff.1 succeeds, rfl⟩
  · rintro ⟨next, follows, rfl⟩
    exact bind_eq_ok_iff.2 ⟨next, successor_eq_ok_iff.2 follows, rfl⟩

/-- What putting a message last does to every key. -/
theorem putLast_get?
    {queue : String}
    (free : ':' ∉ queue.toList)
    {generation : UInt64}
    {value : Bytes}
    (done : putLast keyspace queue generation value = .ok after) :
    ∃ next, next.toNat = generation.toNat + 1 ∧
      (keyspace.Legible → after.Legible) ∧
      (∀ key : Key, after.get? key.bytes =
        if key = .nextGeneration queue then some (Record.ofCounter next)
        else if key = .pending queue generation then some value
        else keyspace.get? key.bytes) ∧
      ∀ sought, waiting after sought =
        waiting (keyspace.insert (Key.pending queue generation).bytes value)
          sought := by
  have pendingPlain := (Key.pending queue generation).isPlain_of_name rfl free
  have counterPlain := (Key.nextGeneration queue).isPlain_of_name rfl free
  obtain ⟨next, follows, rfl⟩ := putLast_eq_ok_iff.1 done
  refine ⟨next, follows, fun legible => ?_, fun key => ?_, fun sought => ?_⟩
  · exact (legible.insert pendingPlain value).insert counterPlain _
  · rw [Keyspace.setCounter, Keyspace.get?_insert_key _ counterPlain,
      Keyspace.get?_insert_key _ pendingPlain]
  · rw [Keyspace.setCounter]
    apply waiting_insert_other counterPlain
    intro generation'
    simp

theorem putLast_deliveries
    {queue : String}
    (free : ':' ∉ queue.toList)
    {generation : UInt64}
    {value : Bytes}
    (done : putLast keyspace queue generation value = .ok after)
    (sought : String)
    (id : MessageId) :
    after.get? (Key.expiry sought id).bytes =
      keyspace.get? (Key.expiry sought id).bytes ∧
    after.get? (Key.body sought id).bytes =
      keyspace.get? (Key.body sought id).bytes := by
  obtain ⟨next, _, _, found, _⟩ := putLast_get? free done
  constructor
  · rw [found, if_neg (by simp), if_neg (by simp)]
  · rw [found, if_neg (by simp), if_neg (by simp)]

theorem Sound.putLast
    (sound : Sound keyspace)
    {operation queue : String}
    (free : ':' ∉ queue.toList)
    {generation : UInt64}
    {value : Bytes}
    {message : Message}
    (known : keyspace.counter operation (.nextGeneration queue) =
      .ok generation)
    (stored : Record.ofMessage message = .ok value)
    (named : message.id ≠ .nil)
    (done : Queue.putLast keyspace queue generation value = .ok after) :
    Sound after := by
  obtain ⟨next, follows, legible, found, _⟩ := putLast_get? free done
  have deliveries := putLast_deliveries free done
  obtain ⟨current, known', below⟩ := sound.counter_eq operation queue
  rw [known] at known'
  cases known'
  have rises : generation < next := by
    rw [UInt64.lt_iff_toNat_lt, follows]
    exact Nat.lt_succ_self _
  constructor
  case legible => exact legible sound.legible
  case counter =>
      intro sought content held
      rw [found] at held
      simp only [Key.nextGeneration.injEq, reduceCtorEq, if_false] at held
      split at held
      · exact ⟨next, (Option.some.inj held).symm⟩
      · exact sound.counter sought content held
  case pending =>
      intro sought generation' content held
      rw [found, if_neg (by simp)] at held
      rw [found]
      simp only [Key.pending.injEq, Key.nextGeneration.injEq] at held ⊢
      split at held
      · rename_i same
        obtain ⟨rfl, rfl⟩ := same
        cases held
        exact ⟨⟨message, stored, named⟩, next, if_pos rfl, rises⟩
      · obtain ⟨reads, next', counter, lower⟩ :=
          sound.pending sought generation' content held
        refine ⟨reads, ?_⟩
        by_cases same : sought = queue
        · subst same
          exact ⟨next, if_pos rfl, UInt64.lt_trans (below _ _ held) rises⟩
        · refine ⟨next', ?_, lower⟩
          rw [if_neg same, if_neg (by simp)]
          exact counter
  case paired =>
      intro sought id
      rw [(deliveries sought id).1, (deliveries sought id).2]
      exact sound.paired sought id
  case expiry =>
      intro sought id content held
      exact sound.expiry sought id content ((deliveries sought id).1 ▸ held)
  case body =>
      intro sought id content held
      exact sound.body sought id content ((deliveries sought id).2 ▸ held)

/-- The message comes last, because its generation is above all others. -/
theorem Sound.contents_putLast
    (sound : Sound keyspace)
    {operation queue : String}
    (free : ':' ∉ queue.toList)
    {generation : UInt64}
    {value : Bytes}
    {message : Message}
    (known : keyspace.counter operation (.nextGeneration queue) =
      .ok generation)
    (stored : Record.ofMessage message = .ok value)
    (done : Queue.putLast keyspace queue generation value = .ok after) :
    contents after = (contents keyspace).put queue message := by
  obtain ⟨next, _, _, _, waits⟩ := putLast_get? free done
  have plain := (Key.pending queue generation).isPlain_of_name rfl free
  obtain ⟨current, known', below⟩ := sound.counter_eq operation queue
  rw [known] at known'
  cases known'
  have last : ∀ sought, waiting after sought =
      if sought = queue then waiting keyspace sought ++ [message]
      else waiting keyspace sought := by
    intro sought
    rw [waits]
    split
    · rename_i same
      subst same
      have stemmed :=
        (Key.pendingOf_front_iff fun _ => plain).2 ⟨generation, rfl⟩
      have above : ∀ entry ∈ keyspace.withStem (Key.pendingOf sought),
          entry.1 < (Key.pending sought generation).bytes := by
        rintro ⟨place, content⟩ inside
        obtain ⟨generation', _, rfl, _, held, _⟩ := sound.mem_waiting inside
        exact Key.pending_bytes_lt_iff.2 (below generation' content held)
      rw [waiting, Keyspace.withStem_insert_last stemmed above,
        List.filterMap_append]
      simp only [List.filterMap_cons, read_eq_some "dequeue" stored,
        List.filterMap_nil]
      rfl
    · rename_i other
      apply waiting_insert_other plain
      rintro generation' ⟨⟩
      exact other rfl
  have deliveries : delivered? after = delivered? keyspace := by
    funext sought id
    exact delivered?_congr (putLast_deliveries free done sought id).1
      (putLast_deliveries free done sought id).2
  rw [contents, deliveries, funext last]
  rfl

/-- An enqueue stores the message at the generation that the counter gives. -/
theorem enqueue_eq_ok_iff
    {fresh : FreshId}
    {queue : String}
    {message : Message}
    {enqueued : Enqueued} :
    enqueue keyspace fresh queue message = .ok enqueued ↔
      enqueued.id = (message.identified fresh).id ∧
      ∃ value generation,
        Record.ofMessage (message.identified fresh) = .ok value ∧
        keyspace.counter "enqueue" (.nextGeneration queue) = .ok generation ∧
        putLast keyspace queue generation value = .ok enqueued.keyspace := by
  constructor
  · intro done
    obtain ⟨value, stored, done⟩ := bind_eq_ok_iff.1 done
    obtain ⟨generation, known, done⟩ := bind_eq_ok_iff.1 done
    obtain ⟨after, put, done⟩ := bind_eq_ok_iff.1 done
    cases done
    exact ⟨rfl, value, generation, stored, known, put⟩
  · obtain ⟨id, after⟩ := enqueued
    rintro ⟨rfl, value, generation, stored, known, put⟩
    exact bind_eq_ok_iff.2 ⟨value, stored, bind_eq_ok_iff.2 ⟨generation, known,
      bind_eq_ok_iff.2 ⟨after, put, rfl⟩⟩⟩

/-- A message enters a queue at its end, with the id that it has or is given. -/
theorem Sound.enqueue
    (sound : Sound keyspace)
    {fresh : FreshId}
    {queue : String}
    (free : ':' ∉ queue.toList)
    {message : Message}
    {enqueued : Enqueued}
    (done : enqueue keyspace fresh queue message = .ok enqueued) :
    enqueued.id = (message.identified fresh).id ∧
    Sound enqueued.keyspace ∧
    contents enqueued.keyspace =
      (contents keyspace).put queue (message.identified fresh) := by
  obtain ⟨named, value, generation, stored, known, queued⟩ :=
    enqueue_eq_ok_iff.1 done
  exact ⟨named,
    sound.putLast free known stored (Message.identified_id_ne_nil message fresh)
    queued,
    sound.contents_putLast free known stored queued⟩

/-! ## Acknowledging -/

theorem acknowledge_get?
    (keyspace : Keyspace)
    {queue : String}
    (free : ':' ∉ queue.toList)
    (id : MessageId)
    (key : Key) :
    (acknowledge keyspace queue id).get? key.bytes =
      if key = .body queue id then none
      else if key = .expiry queue id then none
      else keyspace.get? key.bytes := by
  have expiryPlain := (Key.expiry queue id).isPlain_of_name rfl free
  have bodyPlain := (Key.body queue id).isPlain_of_name rfl free
  rw [acknowledge, Keyspace.get?_erase_key _ bodyPlain,
    Keyspace.get?_erase_key _ expiryPlain]

theorem Sound.acknowledge
    (sound : Sound keyspace)
    {queue : String}
    (free : ':' ∉ queue.toList)
    (id : MessageId) :
    Sound (acknowledge keyspace queue id) := by
  have found := acknowledge_get? keyspace free id
  constructor
  case legible => exact (sound.legible.erase _).erase _
  case counter =>
      intro sought content held
      rw [found, if_neg (by simp), if_neg (by simp)] at held
      exact sound.counter sought content held
  case pending =>
      intro sought generation content held
      rw [found, if_neg (by simp), if_neg (by simp)] at held
      rw [found, if_neg (by simp), if_neg (by simp)]
      exact sound.pending sought generation content held
  case paired =>
      intro sought other
      rw [found, found]
      simp only [Key.body.injEq, Key.expiry.injEq, reduceCtorEq, if_false]
      split
      · rfl
      · exact sound.paired sought other
  case expiry =>
      intro sought other content held
      rw [found, if_neg (by simp)] at held
      split at held
      · cases held
      · exact sound.expiry sought other content held
  case body =>
      intro sought other content held
      rw [found] at held
      split at held
      · cases held
      · rw [if_neg (by simp)] at held
        exact sound.body sought other content held

theorem contents_acknowledge
    {queue : String}
    (free : ':' ∉ queue.toList)
    (id : MessageId) :
    contents (acknowledge keyspace queue id) =
      (contents keyspace).settle queue id := by
  have found := acknowledge_get? keyspace free id
  have expiryPlain := (Key.expiry queue id).isPlain_of_name rfl free
  have bodyPlain := (Key.body queue id).isPlain_of_name rfl free
  have waits : waiting (acknowledge keyspace queue id) = waiting keyspace := by
    funext sought
    rw [acknowledge, waiting_erase_other bodyPlain (by simp),
      waiting_erase_other expiryPlain (by simp)]
  have deliveries : ∀ sought other,
      delivered? (acknowledge keyspace queue id) sought other =
        if sought = queue ∧ other = id then none
        else delivered? keyspace sought other := by
    intro sought other
    split
    · rename_i same
      rw [delivered?, found, if_neg (by simp), if_pos (by rw [same.1, same.2])]
      rfl
    · rename_i different
      apply delivered?_congr
      · rw [found, if_neg (by simp), if_neg]
        rintro ⟨⟩
        exact different ⟨rfl, rfl⟩
      · rw [found, if_neg, if_neg (by simp)]
        rintro ⟨⟩
        exact different ⟨rfl, rfl⟩
  rw [contents, waits, funext fun sought => funext (deliveries sought)]
  rfl

/-! ## Handing out -/

/-- The keyspace in which a waiting entry has become a delivery. -/
def delivering
    (keyspace : Keyspace)
    (queue : String)
    (generation : UInt64)
    (id : MessageId)
    (expiry : UInt64)
    (content : Bytes) :
    Keyspace :=
  let taken : Keyspace := keyspace.erase (Key.pending queue generation).bytes
  (taken.setCounter (.expiry queue id) expiry).insert (Key.body queue id).bytes
    content

theorem delivering_get?
    (keyspace : Keyspace)
    {queue : String}
    (free : ':' ∉ queue.toList)
    (generation : UInt64)
    (id : MessageId)
    (expiry : UInt64)
    (content : Bytes)
    (key : Key) :
    (delivering keyspace queue generation id expiry content).get? key.bytes =
      if key = .body queue id then some content
      else if key = .expiry queue id then some (Record.ofCounter expiry)
      else if key = .pending queue generation then none
      else keyspace.get? key.bytes := by
  have pendingPlain := (Key.pending queue generation).isPlain_of_name rfl free
  have expiryPlain := (Key.expiry queue id).isPlain_of_name rfl free
  have bodyPlain := (Key.body queue id).isPlain_of_name rfl free
  rw [delivering, Keyspace.get?_insert_key _ bodyPlain, Keyspace.setCounter,
    Keyspace.get?_insert_key _ expiryPlain,
    Keyspace.get?_erase_key _ pendingPlain]

theorem Sound.delivering
    (sound : Sound keyspace)
    {queue : String}
    (free : ':' ∉ queue.toList)
    (generation : UInt64)
    {message : Message}
    {content : Bytes}
    (expiry : UInt64)
    (stored : Record.ofMessage message = .ok content)
    (named : message.id ≠ .nil) :
    Sound
      (Queue.delivering keyspace queue generation message.id expiry
        content) := by
  have expiryPlain := (Key.expiry queue message.id).isPlain_of_name rfl free
  have bodyPlain := (Key.body queue message.id).isPlain_of_name rfl free
  have found :=
    delivering_get? keyspace free generation message.id expiry content
  constructor
  case legible =>
      exact ((sound.legible.erase _).insert expiryPlain _).insert bodyPlain _
  case counter =>
      intro sought value held
      rw [found, if_neg (by simp), if_neg (by simp), if_neg (by simp)] at held
      exact sound.counter sought value held
  case pending =>
      intro sought generation' value held
      rw [found, if_neg (by simp), if_neg (by simp)] at held
      rw [found, if_neg (by simp), if_neg (by simp), if_neg (by simp)]
      split at held
      · cases held
      · exact sound.pending sought generation' value held
  case paired =>
      intro sought other
      rw [found, found]
      simp only [Key.body.injEq, Key.expiry.injEq, reduceCtorEq, if_false]
      split
      · rfl
      · exact sound.paired sought other
  case expiry =>
      intro sought other value held
      rw [found, if_neg (by simp)] at held
      split at held
      · exact ⟨expiry, (Option.some.inj held).symm⟩
      · rw [if_neg (by simp)] at held
        exact sound.expiry sought other value held
  case body =>
      intro sought other value held
      rw [found] at held
      split at held
      · rename_i same
        cases same
        cases held
        exact ⟨message, stored, rfl, named⟩
      · rw [if_neg (by simp), if_neg (by simp)] at held
        exact sound.body sought other value held

theorem waiting_delivering
    {queue : String}
    (free : ':' ∉ queue.toList)
    {generation : UInt64}
    {content : Bytes}
    {rest : List (Bytes × Bytes)}
    (scan : keyspace.withStem (Key.pendingOf queue) =
      ((Key.pending queue generation).bytes, content) :: rest)
    (id : MessageId)
    (expiry : UInt64) :
    waiting (delivering keyspace queue generation id expiry content) =
      fun sought =>
        if sought = queue then
          rest.filterMap fun entry =>
            (Record.toMessage "dequeue" entry.2).toOption
        else waiting keyspace sought := by
  have pendingPlain := (Key.pending queue generation).isPlain_of_name rfl free
  have expiryPlain := (Key.expiry queue id).isPlain_of_name rfl free
  have bodyPlain := (Key.body queue id).isPlain_of_name rfl free
  funext sought
  rw [delivering, waiting_insert_other bodyPlain (by simp), Keyspace.setCounter,
    waiting_insert_other expiryPlain (by simp)]
  split
  · rename_i same
    subst same
    rw [waiting, Keyspace.withStem_erase_head scan]
  · rename_i other
    apply waiting_erase_other pendingPlain
    rintro generation' ⟨⟩
    exact other rfl

theorem delivered?_delivering
    {queue : String}
    (free : ':' ∉ queue.toList)
    (generation : UInt64)
    {message : Message}
    {content : Bytes}
    (expiry : UInt64)
    (stored : Record.ofMessage message = .ok content) :
    delivered?
        (delivering keyspace queue generation message.id expiry content) =
      fun sought id =>
        if sought = queue ∧ id = message.id then some (expiry, message)
        else delivered? keyspace sought id := by
  have found :=
    delivering_get? keyspace free generation message.id expiry content
  funext sought id
  split
  · rename_i same
    rw [delivered?, found, found, if_neg (by simp),
      if_pos (by rw [same.1, same.2]), if_pos (by rw [same.1, same.2]),
      Option.bind_eq_bind, Option.bind_some, Option.bind_eq_bind,
      Option.bind_some, Record.toCounter_ofCounter,
      read_eq_some "requeue" stored]
    rfl
  · rename_i different
    apply delivered?_congr
    · rw [found, if_neg (by simp), if_neg, if_neg (by simp)]
      rintro ⟨⟩
      exact different ⟨rfl, rfl⟩
    · rw [found, if_neg, if_neg (by simp), if_neg (by simp)]
      rintro ⟨⟩
      exact different ⟨rfl, rfl⟩

/-- A dequeue finds nothing and changes nothing, or hands out what is first in
its scan. -/
theorem dequeue_eq_ok_iff
    {settings : Settings}
    {queue : String}
    {now : UInt64}
    {result : Delivered} :
    dequeue keyspace settings queue now = .ok result ↔
      keyspace.withStem (Key.pendingOf queue) = [] ∧ result = ⟨none, keyspace⟩ ∨
      ∃ place content rest message,
        keyspace.withStem (Key.pendingOf queue) = (place, content) :: rest ∧
        Record.toMessage "dequeue" content = .ok message ∧
        result =
          ⟨some message,
            (Keyspace.setCounter (keyspace.erase place)
                (.expiry queue message.id) (settings.expiry now)).insert
              (Key.body queue message.id).bytes content⟩ := by
  unfold dequeue
  cases scan : keyspace.withStem (Key.pendingOf queue) with
  | nil =>
      constructor
      · rintro ⟨⟩
        exact .inl ⟨rfl, rfl⟩
      · rintro (⟨_, rfl⟩ | ⟨_, _, _, _, ⟨⟩, _⟩)
        rfl
  | cons entry rest =>
      rcases entry with ⟨place, content⟩
      constructor
      · intro done
        rcases bind_eq_ok_iff.1 done with ⟨message, reads, given⟩
        cases given
        exact .inr ⟨place, content, rest, message, rfl, reads, rfl⟩
      · rintro (⟨⟨⟩, _⟩ | ⟨_, _, _, message, ⟨⟩, reads, rfl⟩)
        exact bind_eq_ok_iff.2 ⟨message, reads, rfl⟩

/-- Every dequeue of a sound keyspace succeeds, and hands out the message that
waits first. -/
theorem Sound.dequeue_cases
    (sound : Sound keyspace)
    (settings : Settings)
    (queue : String)
    (now : UInt64) :
    keyspace.withStem (Key.pendingOf queue) = [] ∧
      dequeue keyspace settings queue now = .ok ⟨none, keyspace⟩ ∨
    ∃ generation message content rest, ':' ∉ queue.toList ∧
      keyspace.withStem (Key.pendingOf queue) =
        ((Key.pending queue generation).bytes, content) :: rest ∧
      keyspace.get? (Key.pending queue generation).bytes = some content ∧
      Record.ofMessage message = .ok content ∧
      message.id ≠ .nil ∧
      dequeue keyspace settings queue now =
        .ok
          ⟨some message,
            Queue.delivering keyspace queue generation message.id
              (settings.expiry now) content⟩ := by
  cases scan : keyspace.withStem (Key.pendingOf queue) with
  | nil => exact .inl ⟨rfl, dequeue_eq_ok_iff.2 (.inl ⟨scan, rfl⟩)⟩
  | cons entry rest =>
      obtain ⟨place, content⟩ := entry
      have inside : (place, content) ∈
          keyspace.withStem (Key.pendingOf queue) := by
        rw [scan]
        exact List.mem_cons_self
      obtain ⟨generation, message, rfl, plain, found, stored, named⟩ :=
        sound.mem_waiting inside
      have free : ':' ∉ queue.toList := by
        simpa [Key.IsPlain, Key.names] using plain
      have reads := Record.toMessage_ofMessage stored "dequeue"
      exact .inr ⟨generation, message, content, rest, free, rfl, found, stored,
        named, dequeue_eq_ok_iff.2
          (.inr ⟨_, content, rest, message, scan, reads, rfl⟩)⟩

/-- The first message of a queue, where there is one, becomes a delivery. -/
theorem Sound.dequeue
    (sound : Sound keyspace)
    (settings : Settings)
    (queue : String)
    (now : UInt64) :
    ∃ result, dequeue keyspace settings queue now = .ok result ∧
      result.message = (waiting keyspace queue).head? ∧
      Sound result.keyspace ∧
      contents result.keyspace =
        (contents keyspace).handOut queue (settings.expiry now) := by
  rcases sound.dequeue_cases settings queue now with
    ⟨scan, done⟩ |
      ⟨generation, message, content, rest, free, scan, _, stored, named, done⟩
  · have nothing : waiting keyspace queue = [] := by
      rw [waiting, scan, List.filterMap_nil]
    refine ⟨_, done, by rw [nothing]; rfl, sound, ?_⟩
    rw [Contents.handOut,
      show (contents keyspace).waiting queue = [] from nothing]
  · have waits : waiting keyspace queue = message :: rest.filterMap fun entry =>
        (Record.toMessage "dequeue" entry.2).toOption := by
      rw [waiting, scan]
      simp only [List.filterMap_cons, read_eq_some "dequeue" stored]
    have heads : (contents keyspace).waiting queue =
        message ::
          rest.filterMap fun entry =>
            (Record.toMessage "dequeue" entry.2).toOption :=
      waits
    refine ⟨_, done,
      by rw [waits]; rfl, sound.delivering free generation _ stored named, ?_⟩
    rw [Contents.handOut, heads, contents, waiting_delivering free scan,
      delivered?_delivering free generation _ stored]
    rfl

end Queue

end MessageBroker
