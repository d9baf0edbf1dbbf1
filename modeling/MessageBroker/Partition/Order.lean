import MessageBroker.Bytes.Order
import MessageBroker.OrderedMap
import MessageBroker.Partition

/-!
# The order of partitions

Partitions of different topics are ordered as the UTF-8 forms of the topics'
names, partitions of one topic by their index.
-/

namespace MessageBroker.PartitionKey

instance : LT PartitionKey where
  lt first second :=
    Bytes.ofText first.topic < Bytes.ofText second.topic ∨
      first.topic = second.topic ∧ first.partition < second.partition

theorem lt_iff {first second : PartitionKey} :
    first < second ↔
      Bytes.ofText first.topic < Bytes.ofText second.topic ∨
      first.topic = second.topic ∧ first.partition < second.partition :=
  Iff.rfl

instance : DecidableLT PartitionKey := fun first second =>
  decidable_of_iff
    (Bytes.ofText first.topic < Bytes.ofText second.topic ∨
      first.topic = second.topic ∧ first.partition < second.partition) Iff.rfl

instance : StrictOrder PartitionKey where
  irrefl first lower := by
    rcases lt_iff.1 lower with topic | ⟨_, partition⟩
    · exact List.lt_irrefl _ topic
    · exact UInt32.lt_irrefl _ partition
  trans {first second third} lower upper := by
    rcases lt_iff.1 lower with topic | ⟨topic, partition⟩
    · rcases lt_iff.1 upper with topic' | ⟨topic', _⟩
      · exact .inl (List.lt_trans topic topic')
      · exact .inl (topic' ▸ topic)
    · rcases lt_iff.1 upper with topic' | ⟨topic', partition'⟩
      · exact .inl (topic ▸ topic')
      · exact .inr ⟨topic.trans topic', UInt32.lt_trans partition partition'⟩
  trichotomy first second := by
    rcases Bytes.lt_trichotomy (Bytes.ofText first.topic)
      (Bytes.ofText second.topic)
      with less | same | more
    · exact .inl (.inl less)
    · have topic := Bytes.ofText_injective same
      rcases Nat.lt_trichotomy first.partition.toNat second.partition.toNat with
        less | same | more
      · exact .inl (.inr ⟨topic, UInt32.lt_iff_toNat_lt.2 less⟩)
      · refine .inr (.inl ?_)
        cases first
        cases second
        cases topic
        cases UInt32.toNat_inj.1 same
        rfl
      · exact .inr (.inr (.inr ⟨topic.symm, UInt32.lt_iff_toNat_lt.2 more⟩))
    · exact .inr (.inr (.inl more))

end MessageBroker.PartitionKey
