import MessageBroker.Proofs.AdmittedFrames
import MessageBroker.Proofs.AnswerFrames
import MessageBroker.Proofs.ChronicleReading

/-!
# Pages of windows

Who asks a node for a window of a partition gets a page of it.  The page is a
front of what is stored in the window, and there is one message in it at least
if the window has any.  Two messages or more have a frame within the limits,
because each of them takes a byte more in the store than in the frame, and the
budget counts what is in the store.  One message is served whatever its size, so
it has a frame only where the longest body has room for it.

A page ends before the window does only at the limit of messages or of bytes.
The difference of the bounds of a window limits the page too, but no window has
more messages than offsets.
-/

namespace MessageBroker.Log

/-! ## What the budget leaves for frames -/

theorem sum_storedSize (messages : List Message) :
    (messages.map storedSize).sum =
      messages.length + (messages.map Message.encodedSize).sum := by
  induction messages with
  | nil => rfl
  | cons message rest step =>
      rw [List.map_cons, List.sum_cons, step, storedSize, List.map_cons,
        List.sum_cons, List.length_cons]
      omega

/-! ## How many messages a window has -/

/-- Messages at rising offsets between two bounds are no more than the bounds
are apart. -/
theorem length_le_of_rising
    {messages : List Message}
    {start stop : Nat}
    (rising : messages.Pairwise fun earlier later =>
      earlier.offset < later.offset)
    (between : ∀ message ∈ messages, start ≤ message.offset.toNat ∧
      message.offset.toNat < stop) :
    messages.length ≤ stop - start := by
  induction messages generalizing start with
  | nil => exact Nat.zero_le _
  | cons message rest step =>
      obtain ⟨below, rising⟩ := List.pairwise_cons.1 rising
      obtain ⟨here, others⟩ := List.forall_mem_cons.1 between
      have fewer : rest.length ≤ stop - (message.offset.toNat + 1) :=
        step rising fun other inside =>
          ⟨UInt64.lt_iff_toNat_lt.1 (below other inside),
            (others other inside).2⟩
      rw [List.length_cons]
      omega

variable {window : Window} {limits : Limits} {messages : List Message}

/-- A window that has a message leaves room for one in a page. -/
theorem pageMessages_pos
    (positive : 0 < limits.rangeMessages.toNat)
    {offset : Offset}
    (spans : window.Spans offset) :
    0 < Replica.pageMessages limits window := by
  obtain ⟨above, below⟩ := spans
  unfold Replica.pageMessages
  split
  · rename_i stop bounded
    have under := UInt64.lt_iff_toNat_lt.1 (below stop bounded)
    have least := UInt64.le_iff_toNat_le.1 above
    exact Nat.lt_min.2 ⟨by omega, positive⟩
  · exact positive

/-- A page that has as many messages as its window may give and is not the whole
window has as many as the limits allow. -/
theorem length_eq_rangeMessages
    (rising : messages.Pairwise fun earlier later =>
      earlier.offset < later.offset)
    (inside : ∀ message ∈ messages, window.Spans message.offset)
    {page : List Message}
    (more : page.length < messages.length)
    (full : Replica.pageMessages limits window ≤ page.length)
    (most : page.length ≤ Replica.pageMessages limits window) :
    page.length = limits.rangeMessages.toNat := by
  have exact : page.length = Replica.pageMessages limits window :=
    Nat.le_antisymm most full
  unfold Replica.pageMessages at exact
  split at exact
  · rename_i stop bounded
    have count : messages.length ≤ stop.toNat - window.start.toNat :=
      length_le_of_rising rising fun message mem =>
        ⟨UInt64.le_iff_toNat_le.1 (inside message mem).1,
          UInt64.lt_iff_toNat_lt.1 ((inside message mem).2 stop bounded)⟩
    omega
  · exact exact

/-! ## Frames of pages -/

/-- The messages of a page of two or more have a frame within the limits. -/
theorem frame_of_several
    {home : PartitionKey}
    {most : Nat}
    {keyspace : Keyspace}
    (done : read keyspace home window most (Replica.pageBytes limits) =
      .ok messages)
    (enough : (messages.map storedSize).sum ≤ Replica.pageBytes limits)
    (several : 1 < messages.length) :
    ∃ frame, Response.encode (.batch messages) = .ok frame ∧
      frame.length ≤
        Frame.headerSize + min limits.frameBytes.toNat Frame.maxBody := by
  have fits : (Response.batch messages).Fits := (fits_of_read done).1
  have size := Response.length_body_batch messages
  have small : (Response.batch messages).body.length ≤
      min limits.frameBytes.toNat Frame.maxBody := by
    rw [sum_storedSize, Replica.pageBytes] at enough
    omega
  have room : (Response.batch messages).body.length ≤ Frame.maxBody :=
    Nat.le_trans small (Nat.min_le_right _ _)
  refine ⟨_, (Response.faithful.encodes _ _).2 ⟨fits, room, rfl⟩, ?_⟩
  rw [List.length_append, Bytes.length_littleEndian]
  exact Nat.add_le_add_left small _

theorem frame_of_one_iff
    {home : PartitionKey}
    {most : Nat}
    {budget : Option Nat}
    {keyspace : Keyspace}
    {message : Message}
    (done : read keyspace home window most budget = .ok [message]) :
    (∃ frame, Response.encode (.batch [message]) = .ok frame) ↔
      5 + message.encodedSize ≤ Frame.maxBody := by
  have fits : (Response.batch [message]).Fits := (fits_of_read done).1
  rw [Response.faithful.exists_frame_iff fits, Response.length_body_batch,
    List.map_singleton, List.sum_singleton, Limits.batchOverhead]

/-! ## Pages of histories -/

/-- After any operations, and with limits that let a page have a message, a page
of a window is a front of the messages that are stored in it, by offset.  It is
empty only if the window is, and it has no more messages than the limits allow.
Two messages or more have a frame whose body is within the limits and the
longest body; one message has a frame just where the longest body has room for
it.  What comes next in the window is left out only where the page has as many
messages as the limits allow, or the budget has no room for it. -/
theorem pages_fit_and_proceed
    (ids : IdSource)
    (operations : List Operation)
    (plain : ∀ operation ∈ operations, operation.IsPlain)
    (limits : Limits)
    (positive : 0 < limits.rangeMessages.toNat)
    (home : PartitionKey)
    (window : Window) :
    let keyspace := ((History.start ids).run operations).store.keyspace
    ∃ page rest, Replica.range limits keyspace home window = .ok page ∧
      (page ++ rest).Pairwise
        (fun earlier later => earlier.offset < later.offset) ∧
      (∀ message, message ∈ page ++ rest ↔
        window.Spans message.offset ∧
        record? keyspace home message.offset = some message) ∧
      (page ≠ [] ↔ ∃ offset, window.Spans offset ∧ Holds keyspace home offset) ∧
      page.length ≤ limits.rangeMessages.toNat ∧
      (1 < page.length →
        ∃ frame, Response.encode (.batch page) = .ok frame ∧
          frame.length ≤
            Frame.headerSize + min limits.frameBytes.toNat Frame.maxBody) ∧
      (∀ message, page = [message] →
        ((∃ frame, Response.encode (.batch page) = .ok frame) ↔
          5 + message.encodedSize ≤ Frame.maxBody)) ∧
      ∀ next later, rest = next :: later →
        page.length = limits.rangeMessages.toNat ∨
        Replica.pageBytes limits <
          (page.map storedSize).sum + storedSize next := by
  intro keyspace
  have describes : ((Chronicle.start ids).run operations).Describes
      ((History.start ids).run operations).store :=
    (Chronicle.Describes.start ids).run plain
  generalize (Chronicle.start ids).run operations = chronicle at describes
  obtain ⟨page, done, longest⟩ :=
    describes.read_eq home window (Replica.pageMessages limits window)
      (Replica.pageBytes limits)
  obtain ⟨rest, whole⟩ := longest.within
  have rising := describes.within_ordered home window
  have members : ∀ message, message ∈ page ++ rest ↔
      window.Spans message.offset ∧
      record? keyspace home message.offset = some message := by
    intro message
    rw [whole, describes.mem_within_iff, describes.record, and_comm]
  have few : page.length ≤ limits.rangeMessages.toNat := by
    refine Nat.le_trans longest.allowed.1 ?_
    unfold Replica.pageMessages
    split
    · exact Nat.min_le_right _ _
    · exact Nat.le_refl _
  refine ⟨page, rest, done, whole ▸ rising, members, ?_, few, ?_, ?_, ?_⟩
  · constructor
    · intro more
      obtain ⟨message, inside⟩ := List.exists_mem_of_ne_nil page more
      obtain ⟨spans, found⟩ :=
        (members message).1 (List.mem_append_left _ inside)
      exact ⟨message.offset, spans,
        (Sound.holds_iff describes.sound).2 ⟨message, found⟩⟩
    · rintro ⟨offset, spans, held⟩ rfl
      obtain ⟨message, found⟩ := describes.holds_iff.1 held
      obtain ⟨_, rfl⟩ := describes.home_offset found
      have inside :=
        (members message).2 ⟨spans, (describes.record _ _).trans found⟩
      exact longest.ne_nil (pageMessages_pos positive spans)
        (whole ▸ List.ne_nil_of_mem inside) rfl
  · exact fun several => frame_of_several done (longest.allowed.2 _ rfl several)
      several
  · rintro message rfl
    exact frame_of_one_iff done
  · rintro next later rfl
    refine (longest.ends whole).imp_left fun full => ?_
    refine length_eq_rangeMessages rising
      (fun message inside => (describes.mem_within_iff.1 inside).2) ?_ full
        longest.allowed.1
    rw [← whole, List.length_append, List.length_cons]
    omega

/-- A page of two messages out of three. -/
theorem pages_fit_and_proceed_thrice :
    let operations : List Operation :=
      [.append { topic := "t" }, .append { topic := "t" },
        .append { topic := "t" }]
    let limits : Limits := { rangeMessages := 2 }
    (∀ operation ∈ operations, operation.IsPlain) ∧
    0 < limits.rangeMessages.toNat ∧
    ∃ page, Replica.range limits
        ((History.start (.series 0)).run operations).store.keyspace ⟨"t", 0⟩
          ⟨0, none⟩ = .ok page ∧
      page.map Message.offset = [0, 1] ∧
      ∃ frame, Response.encode (.batch page) = .ok frame := by
  intro operations limits
  have plain : ∀ operation ∈ operations, operation.IsPlain := by decide
  have positive : 0 < limits.rangeMessages.toNat := by decide
  obtain ⟨page, rest, done, _, _, _, _, several, _⟩ :=
    pages_fit_and_proceed (.series 0) operations plain limits positive ⟨"t", 0⟩
      ⟨0, none⟩
  have shown : (Replica.range limits
          ((History.start (.series 0)).run operations).store.keyspace ⟨"t", 0⟩
          ⟨0, none⟩).toOption.map (List.map Message.offset) =
      some [0, 1] := by
    decide +kernel
  rw [done] at shown
  have offsets : page.map Message.offset = [0, 1] := Option.some.inj shown
  have two : page.length = 2 := by
    rw [← List.length_map Message.offset, offsets]; rfl
  obtain ⟨frame, encoded, _⟩ := several (by omega)
  exact ⟨plain, positive, page, done, offsets, frame, encoded⟩

end MessageBroker.Log
