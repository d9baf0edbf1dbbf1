import MessageBroker.Proofs.CatalogRecords
import MessageBroker.Proofs.KeyRanges

/-!
# Keys read back

Two kinds of keys are read back: those of messages and those of deliveries.  A
key reads as a message's only if it begins as one, and then, if its names are
plain, it reads as the very message that it is the key of; the same holds for
deliveries.  So reading takes the key of no other record for one of these.

The names that any limits admit are plain.  Hence a key whose names are admitted
says which record it belongs to, and no other record has it.
-/

namespace MessageBroker

/-- A byte string that reads as a text begins with the bytes of what the text
begins with. -/
theorem Bytes.ofText_prefix_of_toText?
    {place : Bytes}
    {text front : String}
    (reads : toText? place = some text)
    (leads : front.toList <+: text.toList) :
    ofText front <+: place := by
  rcases leads with ⟨rest, whole⟩
  rw [toText?_eq_some_iff.1 reads, ofText_eq_flatMap text, ← whole,
    List.flatMap_append, ← ofText_eq_flatMap]
  exact List.prefix_append _ _

namespace Key

/-! ## What reads begins as a key -/

theorem messages_prefix_of_readMessage?
    {place : Bytes}
    {found : PartitionKey × Offset}
    (reads : readMessage? place = some found) :
    Bytes.ofText messages <+: place := by
  obtain ⟨text, spelled, reads⟩ := Option.bind_eq_some_iff.1 reads
  apply Bytes.ofText_prefix_of_toText? spelled
  split at reads
  · rename_i rest characters
    rw [characters]
    exact ⟨rest, rfl⟩
  · cases reads

theorem expiries_prefix_of_readExpiry?
    {place : Bytes}
    {found : String × MessageId}
    (reads : readExpiry? place = some found) :
    Bytes.ofText expiries <+: place := by
  obtain ⟨text, spelled, reads⟩ := Option.bind_eq_some_iff.1 reads
  apply Bytes.ofText_prefix_of_toText? spelled
  split at reads
  · rename_i rest characters
    rw [characters]
    exact ⟨rest, rfl⟩
  · cases reads

/-! ## Plain keys -/

variable {key : Key}

/-- A plain key reads as a message's if it is that message's. -/
theorem readMessage?_eq_some_iff
    (plain : key.IsPlain)
    {home : PartitionKey}
    {offset : Offset} :
    readMessage? key.bytes = some (home, offset) ↔
      key = message home offset := by
  constructor
  · intro reads
    obtain ⟨home', offset', rfl⟩ :=
      messages_prefix_iff.1 (messages_prefix_of_readMessage? reads)
    rw [readMessage?_message (plain home'.topic List.mem_cons_self)] at reads
    cases reads
    rfl
  · rintro rfl
    exact readMessage?_message (plain home.topic List.mem_cons_self) offset

/-- A plain key reads as a delivery's if it is that delivery's. -/
theorem readExpiry?_eq_some_iff
    (plain : key.IsPlain)
    {queue : String}
    {id : MessageId} :
    readExpiry? key.bytes = some (queue, id) ↔ key = expiry queue id := by
  constructor
  · intro reads
    obtain ⟨queue', id', rfl⟩ :=
      expiries_prefix_iff.1 (expiries_prefix_of_readExpiry? reads)
    rw [readExpiry?_expiry (plain queue' List.mem_cons_self)] at reads
    cases reads
    rfl
  · rintro rfl
    exact readExpiry?_expiry (plain queue List.mem_cons_self) id

/-! ## Admitted names -/

/-- Each name in a key is one that some limits admit. -/
def IsAdmitted (key : Key) : Prop :=
  ∀ name ∈ key.names, ∃ (limits : Limits) (kind : String),
    limits.checkName kind name = .ok ()

theorem IsAdmitted.isPlain (admitted : key.IsAdmitted) : key.IsPlain := by
  intro name inside
  obtain ⟨limits, kind, named⟩ := admitted name inside
  exact Limits.colon_not_mem_of_checkName named

/-- A key with admitted names determines its record: it reads as a message's, or
as a delivery's, exactly if it is the key of that message or that delivery, and
of all records of any kind, whatever their names, only its own has it. -/
theorem keys_determine_records
    (key : Key)
    (admitted : key.IsAdmitted) :
    (∀ home offset, readMessage? key.bytes = some (home, offset) ↔
      key = message home offset) ∧
    (∀ queue id, readExpiry? key.bytes = some (queue, id) ↔
      key = expiry queue id) ∧
    ∀ other : Key, other.bytes = key.bytes ↔ other = key := by
  have plain := admitted.isPlain
  constructor
  case left => exact fun home offset => readMessage?_eq_some_iff plain
  case right =>
    constructor
    case left => exact fun queue id => readExpiry?_eq_some_iff plain
    case right => exact fun other => ⟨eq_of_bytes plain, congrArg bytes⟩

/-- A message of the greatest numbers there are, and a delivery beside its
body. -/
theorem keys_determine_records_greatest :
    let home : PartitionKey := ⟨"orders.v2_eu-west", .ofNat (UInt32.size - 1)⟩
    let offset : Offset := .ofNat (UInt64.size - 1)
    let id : MessageId := ⟨List.replicate 16 0xff, rfl⟩
    let record := message home offset
    let timed := expiry "b" id
    record.IsAdmitted ∧
    timed.IsAdmitted ∧
    readMessage? record.bytes = some (home, offset) ∧
    readExpiry? timed.bytes = some ("b", id) ∧
    readExpiry? record.bytes ≠ some ("b", id) ∧
    (body "b" id).bytes ≠ timed.bytes := by
  intro home offset id record timed
  have admitted : record.IsAdmitted := by
    intro name inside
    rw [List.mem_singleton.1 inside]
    exact ⟨{}, "topic", by decide⟩
  have admitted' : timed.IsAdmitted := by
    intro name inside
    rw [List.mem_singleton.1 inside]
    exact ⟨{}, "queue", by decide⟩
  obtain ⟨reads, deliveries, _⟩ := keys_determine_records record admitted
  obtain ⟨_, expiries, only⟩ := keys_determine_records timed admitted'
  refine ⟨admitted, admitted', (reads home offset).2 rfl,
    (expiries "b" id).2 rfl, ?_, ?_⟩
  · exact fun same => Key.noConfusion ((deliveries "b" id).1 same)
  · exact fun same => Key.noConfusion ((only _).1 same)

end Key

end MessageBroker
