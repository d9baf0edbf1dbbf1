import MessageBroker.Cursor
import MessageBroker.Proofs.CatalogAgreement
import MessageBroker.Proofs.MachineAgreement

/-!
# Changes that are confined to an area

The nine kinds of record belong to four areas: logs, queues, the catalog and
reading positions.  The letter in front of a key says which area it belongs to,
whatever its names are, so keys of different areas are different.  Every
operation of an area changes records of that area alone; this holds of any
keyspace, and also of a sweep, which goes through the deliveries of all queues.
-/

namespace MessageBroker

/-- What keeps its records in the keyspace. -/
inductive Area where
  /-- Messages of partitions and their next offsets. -/
  | logs
  /-- Messages that wait, deliveries, and next generations. -/
  | queues
  /-- Records of topics and queues. -/
  | catalog
  /-- Positions of groups. -/
  | cursors
  deriving DecidableEq

namespace Key

/-- The area of a record. -/
def area : Key → Area
  | .message .. | .nextOffset _ => .logs
  | .pending .. | .nextGeneration _ | .expiry .. | .body .. => .queues
  | .topicRecord _ | .queueRecord _ => .catalog
  | .cursor .. => .cursors

/-- The letter of a key tells its area. -/
theorem area_of_letter
    {first second : Key}
    (letters : first.letter = second.letter) :
    first.area = second.area := by
  cases first <;> cases second <;> simp_all [letter, area]

theorem area_of_bytes
    {first second : Key}
    (same : first.bytes = second.bytes) :
    first.area = second.area :=
  area_of_letter (letter_eq_of_bytes same)

/-- Whatever has the stem of a queue's waiting messages is of a queue. -/
theorem area_of_pendingOf
    {key : Key}
    {queue : String}
    (stemmed : Bytes.ofText (pendingOf queue) <+: key.bytes) :
    key.area = .queues := by
  rw [ofText_pendingOf] at stemmed
  have alike : key.area = (pending queue 0).area :=
    area_of_letter (letter_of_stem stemmed)
  exact alike

end Key

namespace Keyspace

variable {before middle after keyspace : Keyspace} {area : Area}

/-- Nothing changes outside of an area. -/
def Confined (area : Area) (before after : Keyspace) : Prop :=
  ∀ key : Key, key.area ≠ area → after.get? key.bytes = before.get? key.bytes

theorem Confined.refl
    (area : Area)
    (keyspace : Keyspace) :
    Confined area keyspace keyspace :=
  fun _ _ => rfl

theorem Confined.trans
    (first : Confined area before middle)
    (second : Confined area middle after) :
    Confined area before after :=
  fun key elsewhere => (second key elsewhere).trans (first key elsewhere)

theorem confined_insert
    (keyspace : Keyspace)
    (key : Key)
    (content : Bytes) :
    Confined key.area keyspace (keyspace.insert key.bytes content) := by
  intro other elsewhere
  rw [OrderedMap.get?_insert, if_neg]
  exact fun same => elsewhere (Key.area_of_bytes same)

theorem confined_erase
    (keyspace : Keyspace)
    {gone : Bytes}
    (own : ∀ key : Key, key.bytes = gone → key.area = area) :
    Confined area keyspace (keyspace.erase gone) := by
  intro other elsewhere
  rw [OrderedMap.get?_erase, if_neg]
  exact fun same => elsewhere (own other same)

theorem confined_erase_key
    (keyspace : Keyspace)
    (key : Key) :
    Confined key.area keyspace (keyspace.erase key.bytes) :=
  keyspace.confined_erase fun _ => Key.area_of_bytes

end Keyspace

open Keyspace (Confined)

/-! ## Logs -/

theorem Log.confined_written
    (keyspace : Keyspace)
    (message : Message)
    (value : Bytes)
    (current next : Offset) :
    Confined .logs keyspace
      (Log.written keyspace message value current next) := by
  have filled : Confined .logs keyspace
      (keyspace.fill (Key.message message.home message.offset).bytes
        value) := by
    unfold OrderedMap.fill
    split
    · exact .refl _ _
    · exact keyspace.confined_insert (.message message.home message.offset)
        value
  unfold Log.written
  dsimp only
  split
  · exact filled.trans (Keyspace.confined_insert _ (.nextOffset message.home) _)
  · exact filled

theorem Store.confined_place
    {store after : Store}
    {message : Message}
    {outcome : Log.Outcome}
    (done : store.place message = .ok (outcome, after)) :
    Confined .logs store.keyspace after.keyspace := by
  rcases place_eq_ok_iff.1 done with ⟨placed, inner, _, keyspace, _⟩
  rcases Log.place_eq_ok_iff.1 inner with ⟨value, current, _, _, _, _, written⟩
  rw [keyspace, written]
  exact Log.confined_written _ _ _ _ _

/-! ## Queues -/

namespace Queue

variable {keyspace after : Keyspace} {settings : Settings} {queue : String}

theorem confined_putLast
    {generation : UInt64}
    {value : Bytes}
    (done : putLast keyspace queue generation value = .ok after) :
    Confined .queues keyspace after := by
  rcases putLast_eq_ok_iff.1 done with ⟨next, _, rfl⟩
  exact (keyspace.confined_insert (.pending queue generation) value).trans
    (Keyspace.confined_insert _ (.nextGeneration queue) _)

theorem confined_enqueue
    {fresh : FreshId}
    {message : Message}
    {enqueued : Enqueued}
    (done : enqueue keyspace fresh queue message = .ok enqueued) :
    Confined .queues keyspace enqueued.keyspace := by
  rcases enqueue_eq_ok_iff.1 done with ⟨_, _, _, _, _, put⟩
  exact confined_putLast put

theorem confined_erase_pending
    (keyspace : Keyspace)
    {place : Bytes}
    (stemmed : Bytes.ofText (Key.pendingOf queue) <+: place) :
    Confined .queues keyspace (keyspace.erase place) := by
  refine keyspace.confined_erase fun key same => ?_
  exact Key.area_of_pendingOf (same ▸ stemmed)

theorem confined_erase_expiry
    (keyspace : Keyspace)
    {place : Bytes}
    (stemmed : Bytes.ofText Key.expiries <+: place) :
    Confined .queues keyspace (keyspace.erase place) := by
  refine keyspace.confined_erase fun key same => ?_
  rcases Key.expiries_prefix_iff.1 (same ▸ stemmed) with ⟨_, _, rfl⟩
  rfl

theorem confined_dequeue
    {now : UInt64}
    {result : Delivered}
    (done : dequeue keyspace settings queue now = .ok result) :
    Confined .queues keyspace result.keyspace := by
  rcases dequeue_eq_ok_iff.1 done with ⟨_, rfl⟩ |
    ⟨key, value, rest, message, scan, _, rfl⟩
  · exact .refl _ _
  · have stemmed := (Keyspace.mem_withStem_iff.1 (scan ▸ List.mem_cons_self)).1
    exact ((confined_erase_pending keyspace stemmed).trans
      (Keyspace.confined_insert _ (.expiry queue message.id) _)).trans
      (Keyspace.confined_insert _ (.body queue message.id) value)

theorem confined_acknowledge
    (keyspace : Keyspace)
    (queue : String)
    (id : MessageId) :
    Confined .queues keyspace (acknowledge keyspace queue id) :=
  (keyspace.confined_erase_key (.expiry queue id)).trans
    (Keyspace.confined_erase_key _ (.body queue id))

theorem confined_giveBack
    {sweep next : Sweep}
    {key : Bytes}
    {id : MessageId}
    (stemmed : Bytes.ofText Key.expiries <+: key)
    (done : sweep.giveBack settings key queue id = .ok next) :
    Confined .queues sweep.keyspace next.keyspace := by
  rcases bind_eq_ok_iff.1 done with ⟨message, _, done⟩
  rcases bind_eq_ok_iff.1 done with ⟨generation, _, done⟩
  rcases bind_eq_ok_iff.1 done with ⟨value, _, done⟩
  rcases bind_eq_ok_iff.1 done with ⟨queued, put, done⟩
  cases done
  exact ((confined_putLast put).trans
    (confined_erase_expiry queued stemmed)).trans
    (Keyspace.confined_erase_key _ (.body queue id))

theorem confined_visit
    {now : UInt64}
    {sweep next : Sweep}
    {entry : Bytes × Bytes}
    (stemmed : Bytes.ofText Key.expiries <+: entry.1)
    (done : Sweep.visit settings now sweep entry = .ok next) :
    Confined .queues sweep.keyspace next.keyspace := by
  unfold Sweep.visit at done
  split at done
  · split at done
    · cases done
      exact .refl _ _
    · exact confined_giveBack stemmed done
  · cases done
    exact confined_erase_expiry _ stemmed

theorem confined_requeueExpired
    {now : UInt64}
    {sweep : Sweep}
    (done : requeueExpired keyspace settings now = .ok sweep) :
    Confined .queues keyspace sweep.keyspace := by
  have visits : ∀ (entries : List (Bytes × Bytes)) (start : Sweep),
      (∀ entry ∈ entries, Bytes.ofText Key.expiries <+: entry.1) →
      entries.foldlM (Sweep.visit settings now) start = .ok sweep →
      Confined .queues start.keyspace sweep.keyspace := by
    intro entries
    induction entries with
    | nil =>
        intro start _ done
        cases done
        exact .refl _ _
    | cons entry rest step =>
        intro start stemmed done
        rcases bind_eq_ok_iff.1 done with ⟨next, visited, done⟩
        exact (confined_visit (stemmed entry List.mem_cons_self) visited).trans
          (step next
            (fun other inside => stemmed other (List.mem_cons_of_mem _ inside))
            done)
  exact visits _ _ (fun _ inside => (Keyspace.mem_withStem_iff.1 inside).1) done

/-- Queues keep to themselves. -/
theorem confined_serve
    (settings : Settings)
    (keyspace : Keyspace)
    (operation : Operation) :
    Confined .queues keyspace (serve settings keyspace operation).2 := by
  unfold serve
  cases operation with
  | enqueue fresh queue message =>
      dsimp only
      split
      · rename_i done
        exact confined_enqueue done
      · exact .refl _ _
  | dequeue queue now =>
      dsimp only
      split
      · rename_i done
        exact confined_dequeue done
      · exact .refl _ _
  | acknowledge queue id => exact confined_acknowledge keyspace queue id
  | sweep now =>
      dsimp only
      split
      · rename_i done
        exact confined_requeueExpired done
      · exact .refl _ _

end Queue

/-! ## The catalog -/

namespace Catalog

variable {keyspace after : Keyspace} {resource name user : String} {key : Key}

theorem confined_claim
    {record : Bytes}
    (done : claim keyspace resource name key record = .ok after) :
    Confined key.area keyspace after := by
  rw [claim_eq_ok done]
  exact keyspace.confined_insert key record

theorem confined_release
    {creator : Bytes → Except Error String}
    (done : release keyspace resource name user key creator = .ok after) :
    Confined key.area keyspace after := by
  rcases release_eq_ok done with ⟨_, _, rfl⟩
  exact keyspace.confined_erase_key key

theorem confined_settle
    {area : Area}
    {result : Except Error Keyspace}
    (confined : ∀ after, result = .ok after → Confined area keyspace after) :
    Confined area keyspace (settle keyspace result).2 := by
  cases result with
  | error => exact .refl _ _
  | ok after => exact confined after rfl

/-- The catalog keeps to itself. -/
theorem confined_serve
    (limits : Limits)
    (keyspace : Keyspace)
    (operation : Operation) :
    Confined .catalog keyspace (serve limits keyspace operation).2 := by
  cases operation with
  | createTopic topic =>
      refine confined_settle fun after done => ?_
      rcases bind_eq_ok_iff.1 done with ⟨⟨⟩, _, done⟩
      rcases bind_eq_ok_iff.1 done with ⟨⟨⟩, _, done⟩
      exact confined_claim done
  | createQueue queue =>
      refine confined_settle fun after done => ?_
      rcases bind_eq_ok_iff.1 done with ⟨⟨⟩, _, done⟩
      exact confined_claim done
  | deleteTopic name user =>
      exact confined_settle fun after done => confined_release done
  | deleteQueue name user =>
      exact confined_settle fun after done => confined_release done
  | topic => exact .refl _ _
  | topics => exact .refl _ _
  | queue => exact .refl _ _
  | queues => exact .refl _ _

end Catalog

/-! ## Reading positions -/

/-- A commit succeeds for an acceptable group, and sets one counter. -/
theorem Cursor.commit_eq_ok_iff
    {keyspace after : Keyspace}
    {limits : Limits}
    {group : String}
    {home : PartitionKey}
    {offset : Offset} :
    Cursor.commit keyspace limits group home offset = .ok after ↔
      limits.checkName "group" group = .ok () ∧
      after = keyspace.setCounter (.cursor group home) offset := by
  unfold Cursor.commit
  cases limits.checkName "group" group with
  | error fault => exact ⟨nofun, nofun⟩
  | ok _ =>
      exact ⟨fun done => ⟨rfl, (Except.ok.inj done).symm⟩,
        fun done => by rw [done.2]; rfl⟩

/-- A stored position is the group's position. -/
theorem Cursor.position?_eq
    {keyspace : Keyspace}
    {group : String}
    {home : PartitionKey}
    {position : Option Offset}
    (stored : keyspace.get? (Key.cursor group home).bytes =
      position.map Record.ofCounter) :
    position? keyspace group home = .ok position := by
  unfold position? Keyspace.counter?
  rw [stored]
  cases position with
  | none => rfl
  | some offset =>
      show (Record.toCounter "get_offset" (Record.ofCounter offset)).map
        some = _
      rw [Record.toCounter_ofCounter]
      rfl

/-- The position of an acceptable group is a plain record. -/
theorem Cursor.isPlain
    {limits : Limits}
    {group : String}
    {home : PartitionKey}
    (named : limits.checkName "group" group = .ok ())
    (free : ':' ∉ home.topic.toList) :
    (Key.cursor group home).IsPlain := by
  intro name inside
  rcases List.mem_cons.1 inside with rfl | inside
  · exact Limits.colon_not_mem_of_checkName named
  · rw [List.mem_singleton.1 inside]
    exact free

theorem Cursor.confined_commit
    {keyspace after : Keyspace}
    {limits : Limits}
    {group : String}
    {home : PartitionKey}
    {offset : Offset}
    (done : Cursor.commit keyspace limits group home offset = .ok after) :
    Confined .cursors keyspace after := by
  rw [(Cursor.commit_eq_ok_iff.1 done).2]
  exact keyspace.confined_insert (.cursor group home) _

end MessageBroker
