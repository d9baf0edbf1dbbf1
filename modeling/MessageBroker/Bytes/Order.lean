import MessageBroker.Bytes

/-!
# The order of byte strings

Byte strings are compared byte by byte from the left, and a string comes
before every longer one that it begins.  This is a strict linear order, which
is what the keyspace and all its scans rest on.
-/

namespace MessageBroker.Bytes

theorem lt_trichotomy (first second : Bytes) :
    first < second ∨ first = second ∨ second < first := by
  by_cases less : first < second
  · exact .inl less
  by_cases more : second < first
  · exact .inr (.inr more)
  · exact .inr (.inl (List.le_antisymm more less))

end MessageBroker.Bytes
