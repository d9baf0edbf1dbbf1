import MessageBroker.Error
import MessageBroker.Keyspace.Key

/-!
# Stored values

A stored message is a version byte and then the message's byte form.  A counter
is eight bytes, most significant first.  A value that is neither is damage, and
reading it says so together with the operation that met it.
-/

namespace MessageBroker

namespace Record

/-- The version of the stored form of messages. -/
def version : UInt8 := 1

/-- The stored form of a message. -/
def ofMessage (message : Message) : Except Error Bytes :=
  match message.encode with
  | .ok bytes => .ok (version :: bytes)
  | .error oversized => .error (.ofOversized oversized)

/-- The message of a stored value. -/
def toMessage (operation : String) : Bytes → Except Error Message
  | [] => .error (.storage operation .emptyMessage)
  | first :: rest =>
      if first = version then
        match Message.decode rest with
        | .ok (message, _) => .ok message
        | .error fault => .error (.storage operation (.undecodable fault))
      else .error (.storage operation (.unknownVersion first))

/-- The stored form of a counter. -/
def ofCounter (count : UInt64) : Bytes :=
  Bytes.bigEndian 8 count.toNat

/-- The counter of a stored value. -/
def toCounter (operation : String) (value : Bytes) : Except Error UInt64 :=
  if value.length = 8 then .ok (.ofNat (Bytes.bigEndianValue value))
  else .error (.storage operation (.counterSize value.length))

theorem toCounter_ofCounter
    (operation : String)
    (count : UInt64) :
    toCounter operation (ofCounter count) = .ok count := by
  have bound : count.toNat < Bytes.capacity 8 := count.toNat_lt
  rw [toCounter, ofCounter, if_pos (Bytes.length_bigEndian 8 _),
    Bytes.bigEndianValue_bigEndian, Nat.mod_eq_of_lt bound, UInt64.ofNat_toNat]

end Record

namespace Keyspace

/-- The counter at a key, if there is one. -/
def counter?
    (keyspace : Keyspace)
    (operation : String)
    (key : Key) :
    Except Error (Option UInt64) :=
  match keyspace.get? key.bytes with
  | none => .ok none
  | some value => (Record.toCounter operation value).map some

/-- The counter at a key, zero where there is none. -/
def counter
    (keyspace : Keyspace)
    (operation : String)
    (key : Key) :
    Except Error UInt64 :=
  (keyspace.counter? operation key).map (·.getD 0)

/-- Set the counter at a key. -/
def setCounter (keyspace : Keyspace) (key : Key) (count : UInt64) : Keyspace :=
  keyspace.insert key.bytes (Record.ofCounter count)

end Keyspace

end MessageBroker
