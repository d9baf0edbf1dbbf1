/-!
# Partitions and offsets

A topic is split into numbered partitions, and each partition is a sequence of
messages numbered by their offsets.  Both numbers are machine words, and neither
wraps: the number after the greatest one does not exist.
-/

namespace MessageBroker

/-- The index of a partition within its topic. -/
abbrev Partition := UInt32

/-- The position of a message within its partition. -/
abbrev Offset := UInt64

namespace Partition

/-- The partition after this one, if there is one. -/
def next? (partition : Partition) : Option Partition :=
  if partition.toNat + 1 < UInt32.size then some (partition + 1) else none

/-- The display text of a partition number. -/
def text (partition : Partition) : String :=
  s!"partition-{partition}"

/-- The diagnostic text of a partition number. -/
def debug (partition : Partition) : String :=
  s!"partition({partition})"

end Partition

namespace Offset

/-- The offset after this one, if there is one. -/
def next? (offset : Offset) : Option Offset :=
  if offset.toNat + 1 < UInt64.size then some (offset + 1) else none

/-- The offset so many places further, or the greatest one where that does not
exist. -/
def advance (offset : Offset) (count : UInt64) : Offset :=
  if offset.toNat + count.toNat < UInt64.size then offset + count
  else .ofNat (UInt64.size - 1)

/-- The display text of an offset. -/
def text (offset : Offset) : String :=
  s!"offset-{offset}"

/-- The diagnostic text of an offset. -/
def debug (offset : Offset) : String :=
  s!"offset({offset})"

theorem next?_eq_some_iff {offset next : Offset} :
    offset.next? = some next ↔ next.toNat = offset.toNat + 1 := by
  have one : (1 : UInt64).toNat = 1 := rfl
  have size : UInt64.size = 2 ^ 64 := rfl
  have bound := next.toNat_lt
  unfold next?
  constructor
  · intro found
    split at found
    · cases found
      rw [UInt64.toNat_add, one]
      omega
    · cases found
  · intro after
    rw [if_pos (by omega)]
    congr 1
    apply UInt64.toNat_inj.1
    rw [UInt64.toNat_add, one]
    omega

theorem next?_eq_none_iff {offset : Offset} :
    offset.next? = none ↔ offset.toNat + 1 = UInt64.size := by
  have bound : offset.toNat < UInt64.size := offset.toNat_lt
  simp [next?]
  omega

theorem lt_of_next?
    {offset next : Offset}
    (after : offset.next? = some next) :
    offset < next := by
  rw [UInt64.lt_iff_toNat_lt, next?_eq_some_iff.1 after]
  omega

theorem toNat_advance
    (offset : Offset)
    (count : UInt64) :
    (offset.advance count).toNat =
      min (offset.toNat + count.toNat) (UInt64.size - 1) := by
  unfold advance
  split
  · rename_i room
    rw [UInt64.toNat_add, Nat.mod_eq_of_lt room]
    omega
  · rename_i full
    have top : (UInt64.ofNat (UInt64.size - 1)).toNat = UInt64.size - 1 := rfl
    rw [top]
    omega

end Offset

/-- One partition of one topic. -/
structure PartitionKey where
  /-- The topic's name. -/
  topic : String
  /-- The partition's index within the topic. -/
  partition : Partition
  deriving DecidableEq, Repr

namespace PartitionKey

/-- The display text of a partition of a topic. -/
def text (key : PartitionKey) : String :=
  s!"{key.topic}/{key.partition}"

end PartitionKey

end MessageBroker
