import Mathlib.Algebra.Order.BigOperators.Group.List
import Mathlib.Algebra.Order.Ring.Nat
import MessageBroker.Connection
import MessageBroker.Proofs.Digits
import MessageBroker.Proofs.FrameForm
import MessageBroker.Proofs.LogPlacement
import MessageBroker.Proofs.LogReading

/-!
# Every answer has a frame

A node answers a request with a response, and with the words of a failure where
that response has no frame.  A response fits its lengths, because whatever it
repeats was itself read from a frame or from the store; so it has no frame only
where it is too large, and then the failure tells one size.

Sizes are told in digits.  They are few as long as the values in the store are
no longer than eight bytes can say, and a request that has a frame leaves no
longer ones behind.  So every such request has an answer, and so has every later
one.
-/

namespace MessageBroker

/-! ## Sizes of texts -/

theorem utf8ByteSize_le (text : String) :
    text.utf8ByteSize ≤ 4 * text.length := by
  have bytes : ∀ characters : List Char,
      (characters.flatMap String.utf8EncodeChar).length ≤
        4 * characters.length := by
    intro characters
    induction characters with
    | nil => simp
    | cons character rest step =>
        have most := character.utf8Size_le_four
        rw [List.flatMap_cons, List.length_append, String.length_utf8EncodeChar,
          List.length_cons]
        omega
  rw [← Bytes.length_ofText, Bytes.ofText_eq_flatMap, ← String.length_toList]
  exact bytes text.toList

theorem utf8ByteSize_digits_le
    {number : Nat}
    (small : number < 10 ^ 25) :
    (toString number).utf8ByteSize ≤ 100 := by
  have few : number.repr.length ≤ 25 :=
    (Nat.length_repr_le_iff (by decide)).2 small
  have size := utf8ByteSize_le number.repr
  exact Nat.le_trans size (by omega)

theorem utf8ByteSize_append_le
    {first second : String}
    {most more : Nat}
    (front : first.utf8ByteSize ≤ most)
    (rest : second.utf8ByteSize ≤ more) :
    (first ++ second).utf8ByteSize ≤ most + more := by
  rw [String.utf8ByteSize_append]
  exact Nat.add_le_add front rest

theorem utf8ByteSize_word_le (word : UInt32) :
    (toString word).utf8ByteSize ≤ 100 :=
  utf8ByteSize_digits_le (Nat.lt_trans word.toNat_lt (by decide))

theorem utf8ByteSize_longWord_le (word : UInt64) :
    (toString word).utf8ByteSize ≤ 100 :=
  utf8ByteSize_digits_le (Nat.lt_trans word.toNat_lt (by decide))

/-! ## Sizes of failures -/

theorem FrameError.tooLarge_brief
    {size : Nat}
    (small : size < 10 ^ 25) :
    (FrameError.tooLarge size).message.utf8ByteSize ≤ 500 := by
  have number := utf8ByteSize_digits_le small
  have most : (toString Frame.maxBody).utf8ByteSize ≤ 100 :=
    utf8ByteSize_digits_le (by decide)
  exact utf8ByteSize_append_le
    (utf8ByteSize_append_le
      (utf8ByteSize_append_le
        (utf8ByteSize_append_le (by decide : _ ≤ 100) number)
          (by decide : _ ≤ 100)) most)
    (by decide : _ ≤ 100)

namespace Error

/-- The wording of an error has at most the bytes of a few names. -/
def Brief (error : Error) : Prop :=
  error.message.utf8ByteSize ≤ 70000

theorem brief_invalidArgument
    {argument : String}
    {fault : ArgumentFault}
    (short : argument.utf8ByteSize ≤ 100)
    (words : fault.message.utf8ByteSize ≤ 66000) :
    (invalidArgument argument fault).Brief := by
  refine Nat.le_trans (utf8ByteSize_append_le
    (utf8ByteSize_append_le
      (utf8ByteSize_append_le (by decide : _ ≤ 100) short)
        (by decide : _ ≤ 100)) words) (by decide)

theorem brief_storage
    {operation : String}
    {fault : StorageFault}
    (short : operation.utf8ByteSize ≤ 100)
    (words : fault.message.utf8ByteSize ≤ 300) :
    (storage operation fault).Brief := by
  refine Nat.le_trans (utf8ByteSize_append_le
    (utf8ByteSize_append_le
      (utf8ByteSize_append_le (by decide : _ ≤ 100) short)
        (by decide : _ ≤ 100)) words) (by decide)

theorem brief_overBatch
    {count : Nat}
    (few : count < 10 ^ 25)
    (limit : UInt32) :
    (invalidArgument "batch" (.overBatch count limit)).Brief := by
  have words : (ArgumentFault.overBatch count limit).message.utf8ByteSize ≤
      100 + 100 + 100 :=
    utf8ByteSize_append_le
      (utf8ByteSize_append_le (utf8ByteSize_digits_le few)
        (by decide : _ ≤ 100))
      (utf8ByteSize_word_le limit)
  exact brief_invalidArgument (by decide) (Nat.le_trans words (by decide))

theorem brief_full
    {home : PartitionKey}
    (fits : home.topic.utf8ByteSize ≤ 65535)
    (offset : Offset) :
    (invalidArgument "offset" (.full home offset)).Brief := by
  have place : home.text.utf8ByteSize ≤ 65535 + 1 + 100 :=
    utf8ByteSize_append_le (utf8ByteSize_append_le fits (by decide : _ ≤ 1))
      (utf8ByteSize_word_le home.partition)
  have words : (ArgumentFault.full home offset).message.utf8ByteSize ≤
      65535 + 1 + 100 + 100 + 100 :=
    utf8ByteSize_append_le (utf8ByteSize_append_le place (by decide : _ ≤ 100))
      (utf8ByteSize_longWord_le offset)
  exact brief_invalidArgument (by decide) (Nat.le_trans words (by decide))

theorem brief_counterSize
    {found : Nat}
    (small : found < Bytes.capacity 8)
    {operation : String}
    (short : operation.utf8ByteSize ≤ 100) :
    (storage operation (.counterSize found)).Brief := by
  have digits := utf8ByteSize_digits_le (Nat.lt_trans small (by decide))
  exact brief_storage short
    (utf8ByteSize_append_le
      (utf8ByteSize_append_le (by decide : _ ≤ 100) digits)
        (by decide : _ ≤ 100))

end Error

/-- A stored value that does not read as a message is refused in few words. -/
theorem Record.brief_of_toMessage
    {value : Bytes}
    {error : Error}
    (refused : toMessage "read" value = .error error) :
    error.Brief := by
  unfold toMessage at refused
  split at refused
  · cases refused
    exact Error.brief_storage (by decide) (by decide)
  · rename_i first rest
    split at refused
    · split at refused
      · cases refused
      · rename_i fault _
        cases refused
        refine Error.brief_storage (by decide) ?_
        rcases fault with field | field <;> cases field <;> decide
    · cases refused
      have version : (toString first).utf8ByteSize ≤ 100 :=
        utf8ByteSize_digits_le (Nat.lt_trans first.toNat_lt (by decide))
      have words : (StorageFault.unknownVersion first).message.utf8ByteSize ≤
          100 + 100 :=
        utf8ByteSize_append_le (by decide : _ ≤ 100) version
      exact Error.brief_storage (by decide) (Nat.le_trans words (by decide))

/-! ## Sizes of values -/

namespace Keyspace

/-- The length of every value can be said in eight bytes. -/
def Measurable (keyspace : Keyspace) : Prop :=
  ∀ place content, keyspace.get? place = some content →
    content.length < Bytes.capacity 8

variable {keyspace : Keyspace}

theorem Measurable.empty : Measurable .empty := by
  rintro place content ⟨⟩

theorem Measurable.insert
    (measurable : keyspace.Measurable)
    {content : Bytes}
    (short : content.length < Bytes.capacity 8)
    (place : Bytes) :
    Measurable (keyspace.insert place content) := by
  intro sought found held
  rw [OrderedMap.get?_insert] at held
  split at held
  · cases held
    exact short
  · exact measurable sought found held

theorem Measurable.setCounter
    (measurable : keyspace.Measurable)
    (key : Key)
    (count : UInt64) :
    (keyspace.setCounter key count).Measurable := by
  have eight : (Record.ofCounter count).length = 8 :=
    Bytes.length_bigEndian 8 count.toNat
  refine measurable.insert ?_ key.bytes
  rw [eight]
  decide

theorem Measurable.brief_of_counter
    (measurable : keyspace.Measurable)
    {operation : String}
    {key : Key}
    {error : Error}
    (short : operation.utf8ByteSize ≤ 100)
    (failed : keyspace.counter operation key = .error error) :
    error.Brief := by
  unfold counter counter? at failed
  cases held : keyspace.get? key.bytes with
  | none =>
      rw [held] at failed
      cases failed
  | some value =>
      simp only [held, Record.toCounter] at failed
      split at failed
      · cases failed
      · cases failed
        exact Error.brief_counterSize (measurable _ _ held) short

end Keyspace

/-- The bytes of a message that fits are far fewer than eight bytes can say. -/
theorem Message.Fits.encodedSize_le
    {message : Message}
    (fits : message.Fits) :
    message.encodedSize ≤ 2 ^ 34 := by
  obtain ⟨topic, producer, key, payload⟩ := fits_iff.1 fits
  unfold encodedSize overhead
  omega

namespace Log

variable {keyspace : Keyspace} {fresh : FreshId} {message : Message}

theorem brief_of_place
    (fits : message.Fits)
    (measurable : keyspace.Measurable)
    {error : Error}
    (failed : place keyspace fresh message = .error error) :
    error.Brief := by
  simp only [place, successor, Record.ofMessage_identified fits,
    Message.identified_home, Message.identified_offset] at failed
  cases after : message.offset.next? with
  | none =>
      rw [after] at failed
      cases failed
      exact Error.brief_full (Message.fits_iff.1 fits).1 _
  | some next =>
      rw [after] at failed
      cases read : nextOffset keyspace "append_at_offset" message.home with
      | error unread =>
          rw [read] at failed
          cases failed
          exact measurable.brief_of_counter (by decide) read
      | ok current =>
          rw [read] at failed
          cases failed

theorem measurable_of_place
    (measurable : keyspace.Measurable)
    {placed : Placed}
    (done : place keyspace fresh message = .ok placed) :
    placed.keyspace.Measurable := by
  obtain ⟨value, current, recorded, _, _, _, same⟩ := place_eq_ok_iff.1 done
  obtain ⟨fits, rfl⟩ := Record.ofMessage_eq_ok_iff.1 recorded
  have short : (Record.version :: (message.identified fresh).layout).length <
      Bytes.capacity 8 := by
    have small := fits.encodedSize_le
    have words : 2 ^ 34 + 1 < Bytes.capacity 8 := by decide
    rw [List.length_cons, Message.length_layout]
    omega
  have filled : Keyspace.Measurable
      (keyspace.fill (Key.message message.home message.offset).bytes
        (Record.version :: (message.identified fresh).layout)) := by
    unfold OrderedMap.fill
    split
    · exact measurable
    · exact measurable.insert short _
  rw [same]
  unfold written
  dsimp only
  split
  · exact filled.setCounter _ _
  · exact filled

/-- Whatever is read fits, and there is no more of it than was asked for. -/
theorem fits_of_read
    {home : PartitionKey}
    {window : Window}
    {most : Nat}
    {budget : Option Nat}
    {messages : List Message}
    (done : read keyspace home window most budget = .ok messages) :
    (∀ message ∈ messages, message.Fits) ∧ messages.length ≤ most := by
  rw [read_eq_page] at done
  split at done
  · cases done
    exact ⟨List.forall_mem_nil _, Nat.zero_le _⟩
  · obtain ⟨counted, origins⟩ := origins_of_mapM_eq_ok done
    refine ⟨fun message inside => ?_, ?_⟩
    · obtain ⟨entry, _, reads⟩ := origins message inside
      exact Message.fits_of_toMessage reads
    · rw [counted]
      exact Keyspace.length_page_le most budget (entries keyspace home window)

theorem brief_of_read
    {home : PartitionKey}
    {window : Window}
    {most : Nat}
    {budget : Option Nat}
    {error : Error}
    (failed : read keyspace home window most budget = .error error) :
    error.Brief := by
  rw [read_eq_page] at failed
  split at failed
  · cases failed
  · obtain ⟨entry, _, refused⟩ := exists_of_mapM_eq_error failed
    exact Record.brief_of_toMessage refused

end Log

namespace Store

variable {store after : Store} {message : Message}

/-- The length of every stored value can be said in eight bytes. -/
def Measurable (store : Store) : Prop :=
  store.keyspace.Measurable

theorem measurable_of_place
    (measurable : store.Measurable)
    {outcome : Log.Outcome}
    (done : store.place message = .ok (outcome, after)) :
    after.Measurable := by
  obtain ⟨placed, inner, _, same, _⟩ := place_eq_ok_iff.1 done
  rw [Measurable, same]
  exact Log.measurable_of_place measurable inner

theorem brief_of_place
    (fits : message.Fits)
    (measurable : store.Measurable)
    {error : Error}
    (failed : store.place message = .error error) :
    error.Brief := by
  unfold place at failed
  cases inner : Log.place store.keyspace store.ids.upcoming message with
  | error unplaced =>
      rw [inner] at failed
      cases failed
      exact Log.brief_of_place fits measurable inner
  | ok placed =>
      rw [inner] at failed
      cases failed

theorem measurable_placeAll
    {batch : List Message}
    (measurable : store.Measurable)
    (tally : Tally) :
    (store.placeAll tally batch).2.Measurable := by
  induction batch generalizing store tally with
  | nil => exact measurable
  | cons message rest step =>
      rw [placeAll]
      split
      · rename_i outcome after done
        exact step (measurable_of_place measurable done) _
      · exact measurable

theorem brief_of_placeAll
    {batch : List Message}
    (fits : ∀ message ∈ batch, message.Fits)
    (measurable : store.Measurable)
    {tally : Tally}
    {error : Error}
    (failed : (store.placeAll tally batch).1 = .error error) :
    error.Brief := by
  induction batch generalizing store tally with
  | nil => cases failed
  | cons message rest step =>
      obtain ⟨first, others⟩ := List.forall_mem_cons.1 fits
      rw [placeAll] at failed
      split at failed
      · rename_i outcome after done
        exact step others (measurable_of_place measurable done) failed
      · rename_i reason stopped
        cases failed
        exact brief_of_place first measurable stopped

end Store

/-! ## Answers -/

/-- A response fits its lengths, and its size can be told in few digits. -/
structure Response.Modest (response : Response) : Prop where
  fits : response.Fits
  small : response.size + 1 < 10 ^ 25

theorem Response.modest_failure
    {error : Error}
    (brief : error.Brief) :
    (failure error.message).Modest := by
  have room : 4 + 70000 + 1 < 10 ^ 25 := by decide
  have few : error.message.utf8ByteSize ≤ 70000 := brief
  refine ⟨trivial, ?_⟩
  rw [size]
  omega

theorem Response.modest_batch
    {messages : List Message}
    (fits : ∀ message ∈ messages, message.Fits)
    (few : messages.length < 2 ^ 32) :
    (batch messages).Modest := by
  refine ⟨fits, ?_⟩
  have each : ∀ size ∈ messages.map Message.encodedSize, size ≤ 2 ^ 34 := by
    intro size inside
    obtain ⟨message, among, rfl⟩ := List.mem_map.1 inside
    exact (fits message among).encodedSize_le
  have total := List.sum_le_card_nsmul _ _ each
  rw [List.length_map, Nat.nsmul_eq_mul] at total
  rw [size, Frame.batchSize_eq]
  omega

/-- A response that is modest has a frame, or the words of the failure to make
one have. -/
theorem Connection.responseFrame_succeeds
    {response : Response}
    (modest : response.Modest) :
    ∃ frame, responseFrame response = .ok frame := by
  unfold responseFrame
  split
  · rename_i frame encoded
    exact ⟨frame, rfl⟩
  · rename_i fault refused
    have large : fault = .tooLarge (response.size + 1) := by
      unfold Response.encode at refused
      rw [(Response.check_eq_ok_iff response).2 modest.fits, ok_bind] at refused
      unfold Frame.enclose at refused
      split at refused
      · cases refused
        rfl
      · cases refused
    subst large
    have words := FrameError.tooLarge_brief modest.small
    have fits : (Response.failure
        (FrameError.tooLarge (response.size + 1)).message).Fits :=
      trivial
    apply (Response.faithful.exists_frame_iff fits).2
    rw [Response.body, List.length_cons, Response.length_layout, Response.size]
    have room : 4 + 500 + 1 ≤ Frame.maxBody := by decide
    omega

namespace Replica

variable {limits : Limits} {store : Store} {request : Request} {frame : Bytes}

/-- A request with a frame has no more messages than four bytes can say. -/
theorem length_lt_of_encode
    {batch : List Message}
    (encoded : (Request.replicate batch).encode = .ok frame) :
    batch.length < 2 ^ 32 := by
  have bodies : Frame.maxBody < 2 ^ 32 := by decide
  have few := Frame.length_le_batchSize batch
  have small := ((Request.faithful.encodes _ _).1 encoded).2.1
  rw [Request.body, List.length_cons, Request.length_layout, Request.size]
    at small
  omega

theorem brief_of_replicate
    {batch : List Message}
    (encoded : (Request.replicate batch).encode = .ok frame)
    (measurable : store.Measurable)
    {error : Error}
    (failed : (replicate limits store batch).1 = .error error) :
    error.Brief := by
  have fits := ((Request.faithful.encodes _ _).1 encoded).1
  have few := length_lt_of_encode encoded
  unfold replicate at failed
  split at failed
  · cases failed
    exact Error.brief_overBatch (Nat.lt_trans few (by decide)) _
  · cases stored : (store.placeAll {} batch).1 with
    | error reason =>
        simp only [stored, Except.map] at failed
        cases failed
        exact Store.brief_of_placeAll fits measurable stored
    | ok tally =>
        simp only [stored, Except.map] at failed
        cases failed

theorem brief_of_range
    {keyspace : Keyspace}
    {home : PartitionKey}
    {window : Log.Window}
    {error : Error}
    (failed : range limits keyspace home window = .error error) :
    error.Brief :=
  Log.brief_of_read failed

theorem pageMessages_lt
    (limits : Limits)
    (window : Log.Window) :
    pageMessages limits window < 2 ^ 32 := by
  have limit := limits.rangeMessages.toNat_lt
  unfold pageMessages
  split <;> omega

theorem modest_handle
    (encoded : request.encode = .ok frame)
    (measurable : store.Measurable) :
    (handle limits store request).1.Modest := by
  have ack : 8 + 1 < 10 ^ 25 := by decide
  have pong : 0 + 1 < 10 ^ 25 := by decide
  cases request with
  | replicate batch =>
      simp only [handle]
      cases done : (replicate limits store batch).1 with
      | error reason =>
          exact Response.modest_failure
            (brief_of_replicate encoded measurable done)
      | ok counts => exact ⟨trivial, ack⟩
  | range home window =>
      simp only [handle]
      cases found : range limits store.keyspace home window with
      | error reason => exact Response.modest_failure (brief_of_range found)
      | ok messages =>
          obtain ⟨fitting, few⟩ := Log.fits_of_read found
          have bounded := Nat.lt_of_le_of_lt few (pageMessages_lt limits window)
          exact Response.modest_batch fitting bounded
  | ping => exact ⟨trivial, pong⟩

theorem measurable_handle (measurable : store.Measurable) :
    (handle limits store request).2.Measurable := by
  cases request with
  | replicate batch =>
      simp only [handle, replicate]
      split
      · exact measurable
      · exact Store.measurable_placeAll measurable {}
  | range home window => exact measurable
  | ping => exact measurable

/-- What a node answers to a request with a frame has a frame itself, or the
failure to make one has. -/
theorem exists_answer_frame
    (encoded : request.encode = .ok frame)
    (measurable : store.Measurable) :
    ∃ answer,
      Connection.responseFrame (handle limits store request).1 = .ok answer :=
  Connection.responseFrame_succeeds (modest_handle encoded measurable)

end Replica

end MessageBroker
