import MessageBroker.Bytes.Word
import MessageBroker.Keyspace

/-!
# Snapshots of a keyspace

A keyspace is kept between runs as its entries one after the other, key and
value each after its length in eight bytes.
-/

namespace MessageBroker.Keyspace

/-- Bytes after their length. -/
def measured (content : Bytes) : Bytes :=
  Bytes.littleEndian 8 content.length ++ content

/-- Bytes after their length at the front, and what follows them. -/
def measured? (bytes : Bytes) : Option (Bytes × Bytes) := do
  let (size, rest) ← bytes.word? 8
  Bytes.split? size rest

/-- The snapshot of a keyspace. -/
def toSnapshot (keyspace : Keyspace) : Bytes :=
  keyspace.entries.flatMap fun entry => measured entry.1 ++ measured entry.2

theorem length_of_measured?
    {bytes content rest : Bytes}
    (read : measured? bytes = some (content, rest)) :
    rest.length < bytes.length := by
  obtain ⟨⟨size, following⟩, word, cut⟩ := Option.bind_eq_some_iff.1 read
  obtain ⟨_, rfl⟩ := Bytes.word?_eq_some_iff.1 word
  obtain ⟨_, rfl⟩ := Bytes.split?_eq_some_iff.1 cut
  simp
  omega

/-- Add the entries of a snapshot to a keyspace. -/
def addSnapshot? (keyspace : Keyspace) (snapshot : Bytes) : Option Keyspace :=
  if snapshot.isEmpty then some keyspace
  else match _key : measured? snapshot with
    | none => none
    | some (key, rest) =>
        match _value : measured? rest with
        | none => none
        | some (value, rest) => addSnapshot? (keyspace.insert key value) rest
termination_by snapshot.length
decreasing_by
  have first := length_of_measured? _key
  have second := length_of_measured? _value
  omega

/-- The keyspace of a snapshot. -/
def ofSnapshot? (snapshot : Bytes) : Option Keyspace :=
  addSnapshot? .empty snapshot

end MessageBroker.Keyspace
