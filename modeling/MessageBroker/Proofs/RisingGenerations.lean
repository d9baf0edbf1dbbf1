import MessageBroker.Proofs.SweepProgress

/-!
# Generations rise

A queue whose entries all wait below its counter stays so, whatever is asked of
its node.  New entries come behind all that ever waited, nothing that waits is
overwritten, and whoever leaves leaves from the front; so the queue is first in,
first out for good.

There is an end to this.  At the greatest generation no counter is left for
another entry, and nothing is stored then.  But unlike a partition that is full,
such a queue is not refused with an error that a caller could read: the call
breaks off.

Nothing is asked of the names of queues, and nothing of the rest of the
keyspace.
-/

namespace MessageBroker

/-- The call breaks off, and there is no error that its caller could read. -/
def Error.BreaksOff (error : Error) : Prop :=
  error.kind = "panic"

instance (error : Error) : Decidable error.BreaksOff :=
  inferInstanceAs (Decidable (error.kind = "panic"))

/-! ## Keys of queues -/

namespace Key

/-- A stem that leads to one entry of a queue leads to all of them.  It ends
with a colon, and there is none among the digits. -/
theorem pendingOf_prefix_pending
    {queue sought : String}
    {generation : UInt64}
    (leads : Bytes.ofText (pendingOf queue) <+:
      (pending sought generation).bytes)
    (other : UInt64) :
    Bytes.ofText (pendingOf queue) <+: (pending sought other).bytes := by
  have ends : ∃ front,
      Bytes.ofText (pendingOf queue) = front ++ [Bytes.colon] :=
    ⟨_, ofText_pendingOf queue⟩
  rw [pending_bytes] at leads ⊢
  rcases ends with ⟨front, ends⟩
  rcases leads with ⟨rest, whole⟩
  suffices inside : Bytes.ofText (pendingOf queue) <+:
      Bytes.ofText (pendingOf sought) from
    inside.trans (List.prefix_append _ _)
  rcases List.append_eq_append_iff.1 whole with ⟨more, inner, _⟩ |
    ⟨more, outer, digits⟩
  · exact ⟨more, inner.symm⟩
  · rcases List.eq_nil_or_concat more with rfl | ⟨begun, last, rfl⟩
    · exact outer.trans (List.append_nil _) ▸ List.prefix_refl _
    · rw [ends, List.concat_eq_append, ← List.append_assoc] at outer
      have final : [Bytes.colon] = [last] := (List.append_inj' outer rfl).2
      have free := Bytes.colon_not_mem_padded 20 generation.toNat
      rw [← longDigits, digits, (List.cons.inj final).1] at free
      exact absurd (by simp) free

end Key

namespace Queue

/-! ## Queues that are numbered -/

/-- The counter of a queue reads, and every entry waits below it. -/
structure Numbered (keyspace : Keyspace) (queue : String) : Prop where
  counter : ∃ next,
    keyspace.counter "enqueue" (.nextGeneration queue) = .ok next
  below : ∀ number, (keyspace.get? (Key.pending queue number).bytes).isSome →
    number.toNat < generation keyspace queue

/-- A queue grows at its end: what waits stays as it is, and what is new comes
behind all that ever waited. -/
structure Lengthens (before after : Keyspace) (queue : String) : Prop where
  numbered : Numbered after queue
  rises : generation before queue ≤ generation after queue
  keeps : ∀ number value,
    before.get? (Key.pending queue number).bytes = some value →
    after.get? (Key.pending queue number).bytes = some value
  behind : ∀ number value, number.toNat < generation before queue →
    after.get? (Key.pending queue number).bytes = some value →
      before.get? (Key.pending queue number).bytes = some value

/-- A queue is first in, first out: what still waits is as it was, what is new
comes behind all that ever waited, and as long as an entry waits so do those
that came after it. -/
structure InTurn (before after : Keyspace) (queue : String) : Prop where
  numbered : Numbered after queue
  rises : generation before queue ≤ generation after queue
  behind : ∀ number value, number.toNat < generation before queue →
    after.get? (Key.pending queue number).bytes = some value →
      before.get? (Key.pending queue number).bytes = some value
  turn : ∀ first second, first < second →
    (before.get? (Key.pending queue first).bytes).isSome →
    (before.get? (Key.pending queue second).bytes).isSome →
    (after.get? (Key.pending queue first).bytes).isSome →
      (after.get? (Key.pending queue second).bytes).isSome

variable {before middle after keyspace : Keyspace} {queue : String}

theorem Lengthens.refl (numbered : Numbered keyspace queue) :
    Lengthens keyspace keyspace queue where
  numbered := numbered
  rises := Nat.le_refl _
  keeps _ _ found := found
  behind _ _ _ found := found

theorem Lengthens.trans
    (first : Lengthens before middle queue)
    (second : Lengthens middle after queue) :
    Lengthens before after queue where
  numbered := second.numbered
  rises := Nat.le_trans first.rises second.rises
  keeps number value found :=
    second.keeps number value (first.keeps number value found)
  behind number value below found :=
    first.behind number value below
      (second.behind number value (Nat.lt_of_lt_of_le below first.rises) found)

theorem Lengthens.inTurn (lengthens : Lengthens before after queue) :
    InTurn before after queue where
  numbered := lengthens.numbered
  rises := lengthens.rises
  behind := lengthens.behind
  turn _ second _ _ waits _ := by
    rcases Option.isSome_iff_exists.1 waits with ⟨value, found⟩
    exact Option.isSome_iff_exists.2 ⟨value, lengthens.keeps second value found⟩

theorem InTurn.trans
    (numbered : Numbered before queue)
    (earlier : InTurn before middle queue)
    (later : InTurn middle after queue) :
    InTurn before after queue where
  numbered := later.numbered
  rises := Nat.le_trans earlier.rises later.rises
  behind number value below found :=
    earlier.behind number value below
      (later.behind number value (Nat.lt_of_lt_of_le below earlier.rises) found)
  turn first second order waits waits' left := by
    rcases Option.isSome_iff_exists.1 left with ⟨value, found⟩
    have old := Nat.lt_of_lt_of_le (numbered.below first waits) earlier.rises
    have still :=
      Option.isSome_iff_exists.2 ⟨value, later.behind first value old found⟩
    exact later.turn first second order still
      (earlier.turn first second order waits waits' still)
      left

/-- A queue whose entries and counter are the same is in the same state. -/
theorem Lengthens.of_same
    (numbered : Numbered before queue)
    (entries : ∀ number, after.get? (Key.pending queue number).bytes =
      before.get? (Key.pending queue number).bytes)
    (counter : after.get? (Key.nextGeneration queue).bytes =
      before.get? (Key.nextGeneration queue).bytes) :
    Lengthens before after queue where
  numbered := by
    constructor
    case counter =>
      rw [Keyspace.counter, Keyspace.counter?, counter]
      exact numbered.counter
    case below =>
      intro number waits
      rw [entries] at waits
      rw [generation_congr counter]
      exact numbered.below number waits
  rises := Nat.le_of_eq (generation_congr counter).symm
  keeps number value found := (entries number).trans found
  behind number value _ found := (entries number).symm.trans found

/-- An entry that is put last lengthens its queue, and leaves the others
alone. -/
theorem Lengthens.of_put
    (numbered : Numbered before queue)
    {grown : String}
    {current next : UInt64}
    (value : Bytes)
    (number : current.toNat = generation before grown)
    (follows : next.toNat = current.toNat + 1)
    (entries : ∀ number, after.get? (Key.pending queue number).bytes =
      if queue = grown ∧ number = current then some value
      else before.get? (Key.pending queue number).bytes)
    (counter : after.get? (Key.nextGeneration queue).bytes =
      if queue = grown then some (Record.ofCounter next)
      else before.get? (Key.nextGeneration queue).bytes) :
    Lengthens before after queue := by
  by_cases same : queue = grown
  · subst same
    rw [if_pos rfl] at counter
    have counted : generation after queue = generation before queue + 1 := by
      rw [generation, counter, Option.map_some, Option.getD_some,
        bigEndianValue_ofCounter, follows, number]
    have last : ∀ {other : UInt64}, other.toNat < generation before queue →
        other ≠ current := by
      rintro other below rfl
      omega
    constructor
    case numbered =>
      constructor
      case counter =>
        exact ⟨next,
          counter_eq_ok_iff.2
            (.inr ⟨_, counter, Record.toCounter_ofCounter _ _⟩)⟩
      case below =>
        intro other waits
        rw [entries] at waits
        by_cases here : other = current
        · rw [here, counted, number]
          exact Nat.lt_succ_self _
        · rw [if_neg (by simp [here])] at waits
          have below := numbered.below other waits
          omega
    case rises => omega
    case keeps =>
      intro other value' found
      have below :=
        numbered.below other (Option.isSome_iff_exists.2 ⟨value', found⟩)
      rw [entries, if_neg (by simp [last below]), found]
    case behind =>
      intro other value' below found
      rw [entries, if_neg (by simp [last below])] at found
      exact found
  · apply Lengthens.of_same numbered
    · intro number
      rw [entries, if_neg (by simp [same])]
    · rw [counter, if_neg same]

/-! ## What operations do to a queue -/

variable {settings : Settings} {now : UInt64}

theorem lengthens_enqueue
    (numbered : Numbered keyspace queue)
    {fresh : FreshId}
    {grown : String}
    {message : Message}
    {enqueued : Enqueued}
    (done : enqueue keyspace fresh grown message = .ok enqueued) :
    Lengthens keyspace enqueued.keyspace queue := by
  rcases enqueue_eq_ok_iff.1 done with ⟨_, value, current, _, known, put⟩
  rcases putLast_eq_ok_iff.1 put with ⟨next, follows, written⟩
  rw [written]
  apply Lengthens.of_put numbered value (toNat_of_counter known) follows
  case entries =>
    intro number
    rw [Keyspace.setCounter, OrderedMap.get?_insert, OrderedMap.get?_insert,
      if_neg (Key.bytes_ne_of_letter (by simp [Key.letter]))]
    simp only [Key.pending_bytes_inj]
  case counter =>
    rw [Keyspace.setCounter, OrderedMap.get?_insert, OrderedMap.get?_insert,
      if_neg (Key.bytes_ne_of_letter (by simp [Key.letter]) :
        (Key.nextGeneration queue).bytes ≠ (Key.pending grown current).bytes)]
    simp only [Key.nextGeneration_bytes_inj]

theorem lengthens_giveBack
    {sweep result : Sweep}
    (numbered : Numbered sweep.keyspace queue)
    {place : Bytes}
    (stemmed : Bytes.ofText Key.expiries <+: place)
    {grown : String}
    {id : MessageId}
    (done : sweep.giveBack settings place grown id = .ok result) :
    Lengthens sweep.keyspace result.keyspace queue := by
  rcases giveBack_eq_ok_iff.1 done with
    ⟨message, current, value, next, _, known, _, follows, rfl⟩
  apply Lengthens.of_put numbered value (toNat_of_counter known) follows
  case entries =>
    exact givenBack_get?_pending _ stemmed _ _ _ _ queue
  case counter =>
    exact givenBack_get?_nextGeneration _ stemmed _ _ _ _ queue

theorem lengthens_visit
    {sweep result : Sweep}
    (numbered : Numbered sweep.keyspace queue)
    {entry : Bytes × Bytes}
    (stemmed : Bytes.ofText Key.expiries <+: entry.1)
    (done : sweep.visit settings now entry = .ok result) :
    Lengthens sweep.keyspace result.keyspace queue := by
  rcases visit_cases settings now sweep entry with
    ⟨grown, id, _, visits⟩ | ⟨_, _, visits⟩ | ⟨_, _, visits⟩
  · rw [visits] at done
    exact lengthens_giveBack numbered stemmed done
  · rw [visits] at done
    cases done
    apply Lengthens.of_same numbered
    · intro number
      rw [OrderedMap.get?_erase,
        if_neg (Key.bytes_ne_of_stemmed stemmed (by simp [Key.letter]))]
    · rw [OrderedMap.get?_erase,
        if_neg (Key.bytes_ne_of_stemmed stemmed (by simp [Key.letter]))]
  · rw [visits] at done
    cases done
    exact .refl numbered

theorem lengthens_foldlM_visit
    {entries : List (Bytes × Bytes)}
    (stemmed : ∀ entry ∈ entries, Bytes.ofText Key.expiries <+: entry.1)
    {sweep result : Sweep}
    (numbered : Numbered sweep.keyspace queue)
    (done : entries.foldlM (Sweep.visit settings now) sweep = .ok result) :
    Lengthens sweep.keyspace result.keyspace queue := by
  induction entries generalizing sweep with
  | nil =>
      cases done
      exact .refl numbered
  | cons entry rest step =>
      rw [List.foldlM_cons] at done
      rcases bind_eq_ok_iff.1 done with ⟨middle, visits, rested⟩
      rcases List.forall_mem_cons.1 stemmed with ⟨here, others⟩
      have first := lengthens_visit numbered here visits
      exact first.trans (step others first.numbered rested)

theorem lengthens_requeueExpired
    (numbered : Numbered keyspace queue)
    {sweep : Sweep}
    (done : requeueExpired keyspace settings now = .ok sweep) :
    Lengthens keyspace sweep.keyspace queue := by
  have start : Numbered (Sweep.mk 0 keyspace).keyspace queue := numbered
  exact lengthens_foldlM_visit
    (fun _ inside => (Keyspace.mem_withStem_iff.1 inside).1) start done

theorem lengthens_acknowledge
    (numbered : Numbered keyspace queue)
    (named : String)
    (id : MessageId) :
    Lengthens keyspace (acknowledge keyspace named id) queue := by
  apply Lengthens.of_same numbered
  · intro number
    rw [acknowledge, OrderedMap.get?_erase, OrderedMap.get?_erase,
      if_neg (Key.bytes_ne_of_letter (by simp [Key.letter])),
      if_neg (Key.bytes_ne_of_letter (by simp [Key.letter]))]
  · rw [acknowledge, OrderedMap.get?_erase, OrderedMap.get?_erase,
      if_neg (Key.bytes_ne_of_letter (by simp [Key.letter])),
      if_neg (Key.bytes_ne_of_letter (by simp [Key.letter]))]

/-- A dequeue takes one key away, and changes nothing else but deliveries. -/
theorem get?_handedOut
    (keyspace : Keyspace)
    (place : Bytes)
    (named : String)
    (id : MessageId)
    (expiry : UInt64)
    (value : Bytes)
    {key : Key}
    (timeless : key.letter ≠ 0x66)
    (bodiless : key.letter ≠ 0x62) :
    ((Keyspace.setCounter (keyspace.erase place) (.expiry named id)
            expiry).insert (Key.body named id).bytes value).get? key.bytes =
      if key.bytes = place then none else keyspace.get? key.bytes := by
  rw [OrderedMap.get?_insert, if_neg (Key.bytes_ne_of_letter bodiless),
    Keyspace.setCounter, OrderedMap.get?_insert,
    if_neg (Key.bytes_ne_of_letter timeless), OrderedMap.get?_erase]

/-- What a dequeue does to a queue, whichever queue it names: the counter stays,
and an entry stays as it is unless it is the first and is delivered. -/
theorem dequeue_takes_first
    {named : String}
    {delivered : Delivered}
    (done : dequeue keyspace settings named now = .ok delivered)
    (queue : String) :
    delivered.keyspace.get? (Key.nextGeneration queue).bytes =
      keyspace.get? (Key.nextGeneration queue).bytes ∧
    ∀ number,
      delivered.keyspace.get? (Key.pending queue number).bytes =
        keyspace.get? (Key.pending queue number).bytes ∨
      delivered.keyspace.get? (Key.pending queue number).bytes = none ∧
        (∀ other, (keyspace.get? (Key.pending queue other).bytes).isSome →
          number ≤ other) ∧
        ∃ value message,
          keyspace.get? (Key.pending queue number).bytes = some value ∧
          Record.toMessage "dequeue" value = .ok message ∧
          delivered.message = some message := by
  rcases dequeue_eq_ok_iff.1 done with
    ⟨_, rfl⟩ | ⟨place, value, rest, message, scan, reads, rfl⟩
  · exact ⟨rfl, fun number => .inl rfl⟩
  · rcases Keyspace.mem_withStem_iff.1 (scan ▸ List.mem_cons_self) with
      ⟨stemmed, found⟩
    constructor
    case left =>
      rw [get?_handedOut _ _ _ _ _ _ (by simp [Key.letter])
        (by simp [Key.letter]), if_neg]
      rintro rfl
      rw [Key.ofText_pendingOf] at stemmed
      exact absurd (Key.letter_of_stem stemmed) (by simp [Key.letter])
    case right =>
      intro number
      rw [get?_handedOut _ _ _ _ _ _ (by simp [Key.letter])
        (by simp [Key.letter])]
      by_cases here : (Key.pending queue number).bytes = place
      · refine .inr ⟨if_pos here, ?_, value, message, here ▸ found, reads, rfl⟩
        intro other waits
        have stem := Key.pendingOf_prefix_pending (here ▸ stemmed) other
        have after := Keyspace.not_lt_of_withStem scan stem waits
        rw [← here, Key.pending_bytes_lt_iff] at after
        exact UInt64.not_lt.1 after
      · exact .inl (if_neg here)

theorem inTurn_dequeue
    (numbered : Numbered keyspace queue)
    {named : String}
    {delivered : Delivered}
    (done : dequeue keyspace settings named now = .ok delivered) :
    InTurn keyspace delivered.keyspace queue := by
  rcases dequeue_takes_first done queue with ⟨counter, entries⟩
  have old : ∀ number value,
      delivered.keyspace.get? (Key.pending queue number).bytes = some value →
        keyspace.get? (Key.pending queue number).bytes = some value := by
    intro number value found
    rcases entries number with same | ⟨gone, _⟩
    · rw [← same, found]
    · rw [gone] at found
      cases found
  constructor
  case numbered =>
    constructor
    case counter =>
      rw [Keyspace.counter, Keyspace.counter?, counter]
      exact numbered.counter
    case below =>
      intro number waits
      rcases Option.isSome_iff_exists.1 waits with ⟨value, found⟩
      rw [generation_congr counter]
      exact numbered.below number
        (Option.isSome_iff_exists.2 ⟨value, old number value found⟩)
  case rises => exact Nat.le_of_eq (generation_congr counter).symm
  case behind => exact fun number value _ found => old number value found
  case turn =>
    intro first second order waits waits' _
    rcases entries second with same | ⟨_, least, _⟩
    · rw [same]
      exact waits'
    · exact absurd order (UInt64.not_lt.2 (least first waits))

/-! ## Whole runs -/

/-- Every operation leaves a queue in turn, whichever queue it names. -/
theorem inTurn_perform
    (settings : Settings)
    {history : History}
    (numbered : Numbered history.keyspace queue)
    (operation : Operation) :
    InTurn history.keyspace (history.perform settings operation).keyspace
      queue := by
  have same := (Lengthens.refl numbered).inTurn
  cases operation with
  | enqueue fresh named message =>
      unfold History.perform
      dsimp only
      split
      · rename_i enqueued done
        exact (lengthens_enqueue numbered done).inTurn
      · exact same
  | dequeue named now =>
      unfold History.perform
      dsimp only
      split
      · rename_i delivered done
        exact inTurn_dequeue numbered done
      · exact same
  | acknowledge named id =>
      exact (lengthens_acknowledge numbered named id).inTurn
  | sweep now =>
      unfold History.perform swept
      dsimp only
      split
      · rename_i sweep done
        exact (lengthens_requeueExpired numbered done).inTurn
      · exact same

theorem inTurn_run
    (settings : Settings)
    {history : History}
    (numbered : Numbered history.keyspace queue)
    (operations : List Operation) :
    InTurn history.keyspace (history.run settings operations).keyspace
      queue := by
  induction operations generalizing history with
  | nil => exact (Lengthens.refl numbered).inTurn
  | cons operation rest step =>
      have first := inTurn_perform settings numbered operation
      exact first.trans numbered (step first.numbered)

/-! ## When generations run out -/

theorem successor_of_full
    {generation : UInt64}
    (full : UInt64.size ≤ generation.toNat + 1) :
    successor queue generation = .error (.exhausted queue) :=
  if_neg (Nat.not_lt.2 full)

/-- A message that fits is put last while a counter is left for the next one,
and only then. -/
theorem Numbered.enqueue_cases
    (numbered : Numbered keyspace queue)
    (fresh : FreshId)
    {message : Message}
    (fits : message.Fits) :
    (generation keyspace queue + 1 < UInt64.size ∧
      ∃ enqueued, enqueue keyspace fresh queue message = .ok enqueued) ∨
    (UInt64.size ≤ generation keyspace queue + 1 ∧
      enqueue keyspace fresh queue message = .error (.exhausted queue)) := by
  rcases numbered.counter with ⟨next, known⟩
  have stored := Record.ofMessage_identified fits fresh
  rw [← toNat_of_counter known]
  rcases Nat.lt_or_ge (next.toNat + 1) UInt64.size with room | full
  · rcases putLast_succeeds keyspace queue room _ with ⟨after, put⟩
    exact .inl
      ⟨room, ⟨_, after⟩, enqueue_eq_ok_iff.2 ⟨rfl, _, next, stored, known, put⟩⟩
  · refine .inr ⟨full, ?_⟩
    unfold enqueue
    simp only [stored, ok_bind, known]
    rw [putLast, successor_of_full full]
    rfl

/-- A delivery reads after others that were given back: its body does, or it is
missing and the name of the queue has room in an empty message; and so does the
queue's counter. -/
structure Readable
    (keyspace : Keyspace)
    (earlier : List (String × MessageId))
    (delivery : String × MessageId) :
    Prop where
  message : ∃ message, messageAfter keyspace earlier delivery = .ok message ∧
    message.Fits
  counter : ∃ next,
    keyspace.counter "requeue" (.nextGeneration delivery.1) = .ok next

/-- Every delivery that is due reads at its turn. -/
def AllReadable (keyspace : Keyspace) (now : UInt64) : Prop :=
  ∀ earlier delivery later,
    dues now (keyspace.withStem Key.expiries) = earlier ++ delivery :: later →
      Readable keyspace earlier delivery

variable {visited : List (Bytes × Bytes)} {sweep : Sweep}

/-- A delivery that reads cannot be given back where no counter is left. -/
theorem Progress.giveBack_of_full
    (progress : Progress keyspace settings now visited sweep)
    (stemmed : ∀ other ∈ visited, Bytes.ofText Key.expiries <+: other.1)
    {place : Bytes}
    (free : ':' ∉ queue.toList)
    {id : MessageId}
    (readable : Readable keyspace (dues now visited) (queue, id))
    (full : UInt64.size ≤
      generation keyspace queue + rank (dues now visited) queue + 1) :
    sweep.giveBack settings place queue id = .error (.exhausted queue) := by
  rcases readable with ⟨⟨message, reads, fits⟩, next, known⟩
  have small : generation keyspace queue + rank (dues now visited) queue <
      UInt64.size := by
    by_cases given : ∃ delivery ∈ dues now visited, delivery.1 = queue
    · rcases given with ⟨delivery, inside, rfl⟩
      exact progress.bounded delivery inside
    · have none : rank (dues now visited) queue = 0 := by
        rw [rank, List.countP_eq_zero]
        intro delivery inside same
        exact given ⟨delivery, inside, of_decide_eq_true same⟩
      rw [none, ← toNat_of_counter known]
      exact next.toNat_lt
  have number := toNat_nextAfter small
  have counted :=
    (progress.counter_eq_ok_iff stemmed free).2 ⟨⟨next, known⟩, number⟩
  have stored := Record.ofMessage_eq_ok_iff.2 ⟨settings.fits_returned fits, rfl⟩
  rw [progress.messageAfter_eq stemmed free] at reads
  unfold Sweep.giveBack
  rw [reads, ok_bind, counted, ok_bind, stored, ok_bind, putLast,
    successor_of_full (number ▸ full)]
  rfl

/-- A sweep in which all that is due reads gives it all back if counters are
left for it, and breaks off at the first queue that has none left. -/
theorem sweep_cases
    (settings : Settings)
    (readable : AllReadable keyspace now) :
    ((∃ sweep, requeueExpired keyspace settings now = .ok sweep) ∧
      ∀ delivery ∈ dues now (keyspace.withStem Key.expiries),
        generation keyspace delivery.1 +
            rank (dues now (keyspace.withStem Key.expiries)) delivery.1 <
          UInt64.size) ∨
    ∃ delivery ∈ dues now (keyspace.withStem Key.expiries),
      requeueExpired keyspace settings now = .error (.exhausted delivery.1) ∧
      UInt64.size ≤
        generation keyspace delivery.1 +
          rank (dues now (keyspace.withStem Key.expiries)) delivery.1 := by
  have stemmed : ∀ other ∈ keyspace.withStem Key.expiries,
      Bytes.ofText Key.expiries <+: other.1 :=
    fun other inside => (Keyspace.mem_withStem_iff.1 inside).1
  have start := Progress.start keyspace settings now
  cases attempt : requeueExpired keyspace settings now with
  | ok sweep =>
      have progress := (start.run stemmed).2 sweep attempt
      exact .inl ⟨⟨sweep, rfl⟩, progress.bounded⟩
  | error fault =>
      rcases exists_of_foldlM_eq_error attempt with
        ⟨front, entry, rest, reached, whole, done, fails⟩
      have before : ∀ other ∈ front, Bytes.ofText Key.expiries <+: other.1 := by
        intro other inside
        apply stemmed
        rw [whole]
        exact List.mem_append_left _ inside
      have progress := (start.run before).2 reached done
      rcases visit_cases settings now reached entry with
        ⟨grown, id, due, visits⟩ | ⟨_, _, visits⟩ | ⟨_, _, visits⟩
      · have split : dues now (keyspace.withStem Key.expiries) =
            dues now front ++ (grown, id) :: dues now rest := by
          rw [whole, dues, List.filterMap_append, List.filterMap_cons, due,
            dues, dues]
        have reads := readable _ _ _ split
        have free := free_of_due? due
        have lower := rank_lt split
        rw [visits] at fails
        refine .inr ⟨(grown, id), by rw [split]; simp, ?_⟩
        rcases Nat.lt_or_ge
          (generation keyspace grown + rank (dues now front) grown + 1)
          UInt64.size with room | full
        · have returnable : Returnable keyspace (dues now front) (grown, id) :=
            ⟨reads.message, reads.counter, room⟩
          rcases (progress.giveBack_eq_ok_iff before free).2 returnable with
            ⟨after, given⟩
          rw [given] at fails
          cases fails
        · have exhausted : reached.giveBack settings entry.1 grown id =
              .error (.exhausted grown) :=
            progress.giveBack_of_full before free reads full
          rw [exhausted] at fails
          cases fails
          exact ⟨rfl, by dsimp only at lower ⊢; omega⟩
      · rw [visits] at fails
        cases fails
      · rw [visits] at fails
        cases fails

/-- A queue whose entries all wait below its counter stays in turn.  Every
enqueue that succeeds, of whichever queue, and every sweep that does, keep what
waits as it is and put what is new behind all that ever waited, below the
counter.  A dequeue, of whichever queue, takes no entry but the first, and that
it delivers.  So the queue is first in, first out through all operations from
then on.

An enqueue of a message that fits fails only if no counter is left for the next
one, and a sweep in which all that is due reads fails only if some queue has
none left for what is due; then nothing is changed, and the call breaks off. -/
theorem stays_in_turn
    (settings : Settings)
    {keyspace : Keyspace}
    {queue : String}
    (numbered : Numbered keyspace queue) :
    (∀ fresh named message enqueued,
      enqueue keyspace fresh named message = .ok enqueued →
      Lengthens keyspace enqueued.keyspace queue) ∧
    (∀ now sweep, requeueExpired keyspace settings now = .ok sweep →
      Lengthens keyspace sweep.keyspace queue) ∧
    (∀ named now delivered,
      dequeue keyspace settings named now = .ok delivered →
      ∀ number,
        delivered.keyspace.get? (Key.pending queue number).bytes =
          keyspace.get? (Key.pending queue number).bytes ∨
        delivered.keyspace.get? (Key.pending queue number).bytes = none ∧
          (∀ other, (keyspace.get? (Key.pending queue other).bytes).isSome →
            number ≤ other) ∧
          ∃ value message,
            keyspace.get? (Key.pending queue number).bytes = some value ∧
            Record.toMessage "dequeue" value = .ok message ∧
            delivered.message = some message) ∧
    (∀ ledger operations,
      InTurn keyspace
        (History.run settings ⟨keyspace, ledger⟩ operations).keyspace queue) ∧
    (∀ fresh message, message.Fits →
      (generation keyspace queue + 1 < UInt64.size ∧
        ∃ enqueued, enqueue keyspace fresh queue message = .ok enqueued) ∨
      (UInt64.size ≤ generation keyspace queue + 1 ∧
        enqueue keyspace fresh queue message = .error (.exhausted queue) ∧
        ∀ ledger,
          History.perform settings ⟨keyspace, ledger⟩
              (.enqueue fresh queue message) =
            ⟨keyspace, ledger⟩)) ∧
    (∀ now, AllReadable keyspace now →
      ((∃ sweep, requeueExpired keyspace settings now = .ok sweep) ∧
        ∀ delivery ∈ dues now (keyspace.withStem Key.expiries),
          generation keyspace delivery.1 +
              rank (dues now (keyspace.withStem Key.expiries)) delivery.1 <
            UInt64.size) ∨
      ∃ delivery ∈ dues now (keyspace.withStem Key.expiries),
        requeueExpired keyspace settings now = .error (.exhausted delivery.1) ∧
        UInt64.size ≤
          generation keyspace delivery.1 +
            rank (dues now (keyspace.withStem Key.expiries)) delivery.1 ∧
        swept keyspace settings now = keyspace) ∧
    ∀ named, (Error.exhausted named).BreaksOff := by
  refine ⟨?enqueues, ?sweeps, ?dequeues, ?runs, ?full, ?fullSweeps,
    fun _ => rfl⟩
  case enqueues => exact fun _ _ _ _ done => lengthens_enqueue numbered done
  case sweeps => exact fun _ _ done => lengthens_requeueExpired numbered done
  case dequeues => exact fun _ _ _ done => (dequeue_takes_first done queue).2
  case runs =>
    intro ledger operations
    have start : Numbered (History.mk keyspace ledger).keyspace queue :=
      numbered
    exact inTurn_run settings start operations
  case full =>
    intro fresh message fits
    rcases numbered.enqueue_cases fresh fits with succeeds | ⟨full, fails⟩
    · exact .inl succeeds
    · refine .inr ⟨full, fails, fun ledger => ?_⟩
      rw [History.perform, fails]
  case fullSweeps =>
    intro now readable
    rcases sweep_cases settings readable with succeeds |
      ⟨delivery, due, fails, full⟩
    · exact .inl succeeds
    · refine .inr ⟨delivery, due, fails, full, ?_⟩
      rw [swept, fails]

/-- A queue at its greatest generation. -/
def filled : Keyspace :=
  Keyspace.setCounter .empty (.nextGeneration "q") (.ofNat (UInt64.size - 1))

theorem numbered_filled : Numbered filled "q" where
  counter := ⟨.ofNat (UInt64.size - 1), rfl⟩
  below number waits := by
    rw [filled, Keyspace.setCounter, OrderedMap.get?_insert,
      if_neg (Key.bytes_ne_of_letter (by simp [Key.letter]))] at waits
    cases waits

theorem stays_in_turn_filled :
    let operations :=
      [.enqueue (.numbered 0 0) "q" { topic := "q" }, .sweep 0, .dequeue "q" 0]
    Numbered filled "q" ∧
      enqueue filled (.numbered 0 0) "q" { topic := "q" } =
        .error (.exhausted "q") ∧
      Numbered (History.run {} ⟨filled, {}⟩ operations).keyspace "q" := by
  rcases stays_in_turn {} numbered_filled with ⟨_, _, _, runs, full, _⟩
  refine ⟨numbered_filled, ?_, (runs {} _).numbered⟩
  rcases full (.numbered 0 0) { topic := "q" } (by decide) with ⟨room, _⟩ |
    ⟨_, fails, _⟩
  · exact absurd room (by decide)
  · exact fails

/-- A queue at its greatest generation breaks off where a partition at its
greatest offset answers with an error. -/
theorem filled_breaks_off :
    (∃ fault,
      enqueue filled (.numbered 0 0) "q" { topic := "q" } = .error fault ∧
      fault.BreaksOff) ∧
    ∃ fault,
      Log.append
          (Keyspace.setCounter .empty (.nextOffset ⟨"q", 0⟩)
            (.ofNat (UInt64.size - 1))) (.numbered 0 0) { topic := "q" } =
        .error fault ∧
      ¬ fault.BreaksOff :=
  ⟨⟨_, rfl, rfl⟩, ⟨_, rfl, by decide⟩⟩

end Queue

end MessageBroker
