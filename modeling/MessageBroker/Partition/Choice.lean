import MessageBroker.Hash.Xxh3
import MessageBroker.Partition

/-!
# Which partition a key belongs to

Equal keys go to equal partitions: the hash of the key's UTF-8 form, reduced
modulo the count of partitions.  A topic with at most one partition needs no
hash.
-/

namespace MessageBroker.Partition

/-- The partition of a key in a topic with so many partitions. -/
def ofKey (key : String) (count : UInt32) : Partition :=
  if count ≤ 1 then 0
  else UInt32.ofNat ((Xxh3.hash key.toUTF8).toNat % count.toNat)

/-- The partition of a key exists whenever the topic has any. -/
theorem ofKey_lt
    {count : UInt32}
    (some : 0 < count)
    (key : String) :
    ofKey key count < count := by
  have bound := count.toNat_lt
  have positive := UInt32.lt_iff_toNat_lt.1 some
  have zero : (0 : UInt32).toNat = 0 := rfl
  rw [UInt32.lt_iff_toNat_lt]
  unfold ofKey
  split
  · exact positive
  · have below : (Xxh3.hash key.toUTF8).toNat % count.toNat < count.toNat :=
      Nat.mod_lt _ (by omega)
    rw [UInt32.toNat_ofNat', Nat.mod_eq_of_lt (by omega)]
    exact below

end MessageBroker.Partition
