import MessageBroker.Catalog
import MessageBroker.Proofs.LogGrowth

/-!
# The catalog and the logs

An acceptable name holds no colon, so the record of a topic is a plain one.
Creating and deleting topics changes no log: what is stored under a name stays
where it is.
-/

namespace MessageBroker

/-- An acceptable name holds no colon. -/
theorem Limits.colon_not_mem_of_checkName
    {limits : Limits}
    {kind name : String}
    (accepted : limits.checkName kind name = .ok ()) :
    ':' ∉ name.toList := by
  intro inside
  unfold checkName at accepted
  split at accepted
  · cases accepted
  · split at accepted
    · cases accepted
    · split at accepted
      · cases accepted
      · rename_i allowed
        have accepts := List.find?_eq_none.1 allowed ':' inside
        exact absurd accepts (by decide)

namespace Catalog

theorem claim_eq_ok
    {keyspace after : Keyspace}
    {resource name : String}
    {key : Key}
    {record : Bytes}
    (done : claim keyspace resource name key record = .ok after) :
    after = keyspace.insert key.bytes record := by
  unfold claim at done
  split at done
  · cases done
  · cases done
    rfl

theorem release_eq_ok
    {keyspace after : Keyspace}
    {resource name user : String}
    {key : Key}
    {creator : Bytes → Except Error String}
    (done : release keyspace resource name user key creator = .ok after) :
    ∃ record, keyspace.get? key.bytes = some record ∧
      after = keyspace.erase key.bytes := by
  unfold release at done
  split at done
  · cases done
  · rename_i record found
    obtain ⟨owner, _, done⟩ := bind_eq_ok_iff.1 done
    split at done
    · cases done
      exact ⟨record, found, rfl⟩
    · cases done

variable {store : Store} {kind : Message → Prop} {keyspace : Keyspace}

/-- Creating a topic changes no log. -/
theorem grows_createTopic
    (sound : store.Sound)
    {limits : Limits}
    {topic : Topic}
    (done : createTopic store.keyspace limits topic = .ok keyspace) :
    Store.Grows kind store { store with keyspace := keyspace } := by
  obtain ⟨⟨⟩, named, done⟩ := bind_eq_ok_iff.1 done
  obtain ⟨⟨⟩, _, done⟩ := bind_eq_ok_iff.1 done
  have plain := (Key.topicRecord topic.name).isPlain_of_name rfl
    (Limits.colon_not_mem_of_checkName named)
  rw [claim_eq_ok done]
  apply sound.grows_of_agree (sound.legible.insert plain _)
  · intro home offset
    rw [Keyspace.get?_insert_key _ plain, if_neg (by simp)]
  · intro home
    rw [Keyspace.get?_insert_key _ plain, if_neg (by simp)]

/-- Deleting a topic changes no log. -/
theorem grows_deleteTopic
    (sound : store.Sound)
    {name user : String}
    (done : deleteTopic store.keyspace name user = .ok keyspace) :
    Store.Grows kind store { store with keyspace := keyspace } := by
  obtain ⟨record, found, rfl⟩ := release_eq_ok done
  have plain : (Key.topicRecord name).IsPlain := sound.legible.isPlain found
  apply sound.grows_of_agree (sound.legible.erase _)
  · intro home offset
    rw [Keyspace.get?_erase_key _ plain, if_neg (by simp)]
  · intro home
    rw [Keyspace.get?_erase_key _ plain, if_neg (by simp)]

theorem exists_of_partitionCount
    {keyspace : Keyspace}
    {name : String}
    {count : UInt32}
    (known : partitionCount keyspace name = .ok count) :
    ∃ record, keyspace.get? (Key.topicRecord name).bytes = some record := by
  obtain ⟨topic, found, _⟩ := map_eq_ok_iff.1 known
  unfold Catalog.topic at found
  split at found
  · rename_i record held
    exact ⟨record, held⟩
  · cases found

/-- A topic that the catalog has is of a name without colons. -/
theorem colon_not_mem_of_partitionCount
    {keyspace : Keyspace}
    (legible : keyspace.Legible)
    {name : String}
    {count : UInt32}
    (known : partitionCount keyspace name = .ok count) :
    ':' ∉ name.toList := by
  obtain ⟨record, held⟩ := exists_of_partitionCount known
  exact legible.isPlain held name (by simp [Key.names])

end Catalog

end MessageBroker
