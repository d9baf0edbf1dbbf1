import MessageBroker.Proofs.SweepSimulation

/-!
# Queues answer as the machine does

While every queue has generations left, each operation is answered as the
machine answers it and leaves a keyspace that the machine describes.  So a
keyspace that starts empty cannot be told from the machine, neither by the
answers that it gives nor by its counts of messages.
-/

namespace MessageBroker

namespace Queue

/-- One operation on a keyspace. -/
def serve
    (settings : Settings)
    (keyspace : Keyspace) :
    Operation → Answer × Keyspace
  | .enqueue fresh queue message =>
      match Queue.enqueue keyspace fresh queue message with
      | .ok enqueued => (.enqueued enqueued.id, enqueued.keyspace)
      | .error error => (.refused error, keyspace)
  | .dequeue queue now =>
      match Queue.dequeue keyspace settings queue now with
      | .ok result => (.delivered result.message, result.keyspace)
      | .error error => (.refused error, keyspace)
  | .acknowledge queue id =>
      (.acknowledged, Queue.acknowledge keyspace queue id)
  | .sweep now =>
      match Queue.requeueExpired keyspace settings now with
      | .ok sweep => (.swept sweep.returned, sweep.keyspace)
      | .error error => (.refused error, keyspace)

namespace Machine

variable {machine : Machine} {keyspace : Keyspace}

/-- An operation is answered as the machine answers it. -/
theorem Describes.serve
    (describes : machine.Describes keyspace)
    (settings : Settings)
    {operation : Operation}
    (plain : operation.IsPlain)
    (room : ∀ queue,
      ((machine.perform settings operation).2.line queue).entered <
        UInt64.size) :
    (Queue.serve settings keyspace operation).1 =
      (machine.perform settings operation).1 ∧
    (machine.perform settings operation).2.Describes
      (Queue.serve settings keyspace operation).2 := by
  cases operation with
  | enqueue fresh queue message =>
      have free : ':' ∉ queue.toList := plain queue rfl
      unfold perform at room ⊢
      unfold Queue.serve
      cases checked : message.checkLengths with
      | error oversized =>
          simp only [checked, enqueue_eq_error checked]
          exact ⟨trivial, describes⟩
      | ok =>
          have enough := room queue
          simp only [checked, line_insert, if_pos] at enough
          obtain ⟨enqueued, done, id, described⟩ :=
            describes.enqueue fresh free
              (Message.checkLengths_eq_ok_iff.1 checked) enough
          simp only [checked, done, id]
          exact ⟨trivial, described⟩
  | dequeue queue now =>
      obtain ⟨result, done, head, described⟩ :=
        describes.dequeue settings queue now
      unfold perform Queue.serve
      simp only [done, head]
      exact ⟨trivial, described⟩
  | acknowledge queue id =>
      exact ⟨rfl, describes.acknowledge (plain queue rfl) id⟩
  | sweep now =>
      have enough : ∀ queue,
          ((machine.line queue).sweep settings now.toNat).entered <
            UInt64.size :=
        fun queue => line_sweep settings machine now.toNat queue ▸ room queue
      obtain ⟨sweep, done, returned, described⟩ :=
        describes.sweep settings now enough
      unfold perform Queue.serve
      simp only [done, returned]
      exact ⟨trivial, described⟩

/-- Operations are answered as the machine answers them, one after the other.
Lines only count up, so the room that is left at the end is left at every
step. -/
theorem Describes.trace
    (describes : machine.Describes keyspace)
    (settings : Settings)
    {operations : List Operation}
    (plain : ∀ operation ∈ operations, operation.IsPlain)
    (room : ∀ queue,
      ((Queue.trace (perform settings) machine operations).2.line
          queue).entered <
        UInt64.size) :
    (Queue.trace (Queue.serve settings) keyspace operations).1 =
      (Queue.trace (perform settings) machine operations).1 ∧
    (Queue.trace (perform settings) machine operations).2.Describes
      (Queue.trace (Queue.serve settings) keyspace operations).2 := by
  induction operations generalizing machine keyspace with
  | nil => exact ⟨rfl, describes⟩
  | cons operation rest step =>
      have later : ∀ queue,
          ((Queue.trace (perform settings)
                (machine.perform settings operation).2 rest).2.line
              queue).entered <
            UInt64.size :=
        room
      obtain ⟨answer, described⟩ :=
        describes.serve settings (plain operation List.mem_cons_self)
          fun queue =>
          Nat.lt_of_le_of_lt (entered_trace_le settings _ rest queue)
            (later queue)
      obtain ⟨answers, final⟩ :=
        step described
          (fun other inside => plain other (List.mem_cons_of_mem _ inside))
          later
      refine ⟨?_, final⟩
      simp only [Queue.trace]
      rw [answer, answers]

end Machine

end Queue

end MessageBroker
