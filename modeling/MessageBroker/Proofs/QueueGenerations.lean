import MessageBroker.Proofs.QueueSweep

/-!
# Generations

The next generation of a queue counts the messages that ever came to wait in it.
While there is a generation left, a message whose fields fit can be put last, so
nothing but an oversized field makes an enqueue fail.  Putting last is the only
change that counts.
-/

namespace MessageBroker

namespace Message

theorem checkLengths_identified
    (message : Message)
    (fresh : FreshId) :
    (message.identified fresh).checkLengths = message.checkLengths := by
  unfold identified
  split <;> rfl

end Message

namespace Queue

/-- The next generation of a queue. -/
def generation (keyspace : Keyspace) (queue : String) : Nat :=
  ((keyspace.get? (Key.nextGeneration queue).bytes).map
      Bytes.bigEndianValue).getD 0

variable {keyspace after : Keyspace}

theorem generation_congr
    {queue : String}
    (same : after.get? (Key.nextGeneration queue).bytes =
      keyspace.get? (Key.nextGeneration queue).bytes) :
    generation after queue = generation keyspace queue := by
  rw [generation, same, generation]

theorem bigEndianValue_ofCounter (count : UInt64) :
    Bytes.bigEndianValue (Record.ofCounter count) = count.toNat := by
  have bound : count.toNat < Bytes.capacity 8 := count.toNat_lt
  rw [Record.ofCounter, Bytes.bigEndianValue_bigEndian, Nat.mod_eq_of_lt bound]

/-- Every operation reads the same counter. -/
theorem Sound.counter_eq_generation
    (sound : Sound keyspace)
    (operation queue : String) :
    ∃ next, keyspace.counter operation (.nextGeneration queue) = .ok next ∧
      next.toNat = generation keyspace queue := by
  rw [Keyspace.counter, Keyspace.counter?, generation]
  cases held : keyspace.get? (Key.nextGeneration queue).bytes with
  | none => exact ⟨0, rfl, rfl⟩
  | some content =>
      obtain ⟨next, rfl⟩ := sound.counter queue content held
      refine ⟨next, ?_, (bigEndianValue_ofCounter next).symm⟩
      simp only [Record.toCounter_ofCounter]
      rfl

/-! ## Putting last -/

theorem putLast_succeeds
    (keyspace : Keyspace)
    (queue : String)
    {next : UInt64}
    (room : next.toNat + 1 < UInt64.size)
    (value : Bytes) :
    ∃ after, putLast keyspace queue next value = .ok after := by
  exact ⟨_,
    putLast_eq_ok_iff.2
      ⟨.ofNat (next.toNat + 1), UInt64.toNat_ofNat_of_lt' room, rfl⟩⟩

/-- One more message came to wait in the queue, and none in the others. -/
theorem generation_putLast
    {queue : String}
    (free : ':' ∉ queue.toList)
    {next : UInt64}
    {value : Bytes}
    (known : next.toNat = generation keyspace queue)
    (done : putLast keyspace queue next value = .ok after)
    (sought : String) :
    generation after sought =
      generation keyspace sought + if sought = queue then 1 else 0 := by
  obtain ⟨next', follows, _, found, _⟩ := putLast_get? free done
  by_cases same : sought = queue
  · subst same
    rw [if_pos rfl, generation, found, if_pos rfl, Option.map_some,
      Option.getD_some, bigEndianValue_ofCounter, follows, known]
  · rw [if_neg same]
    apply generation_congr
    rw [found, if_neg (by simpa using same), if_neg (by simp)]

/-! ## Operations -/

theorem Sound.enqueue_succeeds
    (sound : Sound keyspace)
    (fresh : FreshId)
    {queue : String}
    {message : Message}
    (fits : message.Fits)
    (room : generation keyspace queue + 1 < UInt64.size) :
    ∃ enqueued, Queue.enqueue keyspace fresh queue message = .ok enqueued := by
  have stored := Record.ofMessage_identified fits fresh
  obtain ⟨next, known, same⟩ := sound.counter_eq_generation "enqueue" queue
  obtain ⟨after, put⟩ := putLast_succeeds keyspace queue (same ▸ room)
    (Record.version :: (message.identified fresh).layout)
  exact ⟨⟨_, after⟩, enqueue_eq_ok_iff.2 ⟨rfl, _, next, stored, known, put⟩⟩

theorem Sound.generation_enqueue
    (sound : Sound keyspace)
    {fresh : FreshId}
    {queue : String}
    (free : ':' ∉ queue.toList)
    {message : Message}
    {enqueued : Enqueued}
    (done : Queue.enqueue keyspace fresh queue message = .ok enqueued)
    (sought : String) :
    generation enqueued.keyspace sought =
      generation keyspace sought + if sought = queue then 1 else 0 := by
  obtain ⟨_, value, next, stored, known, put⟩ := enqueue_eq_ok_iff.1 done
  obtain ⟨next', known', same⟩ := sound.counter_eq_generation "enqueue" queue
  rw [known] at known'
  cases known'
  exact generation_putLast free same put sought

/-- A message with a field too long for its length is refused before anything is
read. -/
theorem enqueue_eq_error
    {fresh : FreshId}
    {queue : String}
    {message : Message}
    {oversized : Oversized}
    (unfit : message.checkLengths = .error oversized) :
    enqueue keyspace fresh queue message = .error (.ofOversized oversized) := by
  have refused : Record.ofMessage (message.identified fresh) =
      .error (.ofOversized oversized) := by
    rw [Record.ofMessage, Message.encode_eq, Message.checkLengths_identified,
      unfit]
    rfl
  unfold enqueue
  simp only [refused]
  rfl

theorem generation_acknowledge
    {queue : String}
    (free : ':' ∉ queue.toList)
    (id : MessageId)
    (sought : String) :
    generation (acknowledge keyspace queue id) sought =
      generation keyspace sought := by
  apply generation_congr
  rw [acknowledge_get? keyspace free, if_neg (by simp), if_neg (by simp)]

theorem Sound.generation_dequeue
    (sound : Sound keyspace)
    {settings : Settings}
    {queue : String}
    {now : UInt64}
    {result : Delivered}
    (done : Queue.dequeue keyspace settings queue now = .ok result)
    (sought : String) :
    generation result.keyspace sought = generation keyspace sought := by
  rcases sound.dequeue_cases settings queue now with
    ⟨_, given⟩ | ⟨next, message, content, _, free, _, _, _, _, given⟩
  · rw [given] at done
    cases done
    rfl
  · rw [given] at done
    cases done
    apply generation_congr
    have found :=
      delivering_get? keyspace free next message.id (settings.expiry now)
        content (.nextGeneration sought)
    rw [if_neg (by simp), if_neg (by simp), if_neg (by simp)] at found
    exact found

end Queue

end MessageBroker
