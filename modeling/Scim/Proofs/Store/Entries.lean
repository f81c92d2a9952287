import Scim.Proofs.Json.Sameness
import Scim.Store.Memory

/-!
# Entries of a memory store

A memory store is read through `find?`: what a write or a removal under one id does
is said by what is found afterwards under every id.  Ids that are the same as one
another find the same resource.
-/

namespace Scim.MemoryStore

variable {id other : Json}

@[simp] theorem put_stamps (store : MemoryStore) (id : Json) (resource : Members) :
    (store.put id resource).stamps = store.stamps := rfl

@[simp] theorem erase_stamps (store : MemoryStore) (id : Json) :
    (store.erase id).stamps = store.stamps := rfl

/-- The store with one more stamp made. -/
def stamped (store : MemoryStore) : MemoryStore :=
  { store with stamps := store.stamps + 1 }

@[simp] theorem stamped_stamps (store : MemoryStore) :
    store.stamped.stamps = store.stamps + 1 := rfl

@[simp] theorem find?_stamped (store : MemoryStore) (id : Json) :
    store.stamped.find? id = store.find? id := rfl

/-- Ids that are the same find the same resource. -/
theorem find?_congr (store : MemoryStore) (idKey : id.isKey = true) (otherKey : other.isKey = true)
    (same : id.same other = true) : store.find? id = store.find? other := by
  simp only [find?, Json.same_congr_of_isKey idKey otherKey same]

private theorem find?_putEntry (idKey : id.isKey = true) (otherKey : other.isKey = true)
    (resource : Members) (entries : List (Json × Members)) :
    ((putEntry id resource entries).find? (·.1.same other)).map (·.2) =
      if id.same other then some resource
      else (entries.find? (·.1.same other)).map (·.2) := by
  induction entries with
  | nil => cases same : id.same other <;> simp [putEntry, same]
  | cons entry rest ih =>
      obtain ⟨key, stored⟩ := entry
      rw [putEntry]
      cases taken : key.same id with
      | true =>
          -- the entry has the id, so it is found under the ids that are the same
          have agree : key.same other = id.same other := by
            rw [Bool.eq_iff_iff, Json.same_iff_of_isKey idKey, Json.same_iff_of_isKey_right otherKey,
              (Json.same_iff_of_isKey_right idKey key).mp taken]
          cases same : id.same other <;> simp [agree, same]
      | false =>
          cases found : key.same other with
          | false => simpa [found] using ih
          | true =>
              have differ : id.same other = false := by
                cases same : id.same other with
                | false => rfl
                | true => rw [Json.same_congr_of_isKey idKey otherKey same, found] at taken; exact taken
              simp [found, differ]

/-- What is found after a write: the resource under its own id, the old ones elsewhere. -/
theorem find?_put (store : MemoryStore) (idKey : id.isKey = true) (otherKey : other.isKey = true)
    (resource : Members) :
    (store.put id resource).find? other =
      if id.same other then some resource else store.find? other :=
  find?_putEntry idKey otherKey resource store.entries

/-- What is found after a removal: nothing under the id, the old ones elsewhere. -/
theorem find?_erase (store : MemoryStore) (idKey : id.isKey = true)
    (otherKey : other.isKey = true) :
    (store.erase id).find? other = if id.same other then none else store.find? other := by
  simp only [find?, erase, List.find?_filter]
  cases same : id.same other with
  | true =>
      simp [Json.same_congr_of_isKey idKey otherKey same]
  | false =>
      have agree (entry : Json × Members) :
          (!entry.1.same id && entry.1.same other) = entry.1.same other := by
        cases found : entry.1.same other with
        | false => simp
        | true => simp [Json.not_same_of_not_same idKey otherKey same found]
      simp [agree]

/-- A stamped write is seen in the number of stamps. -/
theorem put_stamped_ne (store : MemoryStore) (id : Json) (resource : Members) :
    store.stamped.put id resource ≠ store := by
  intro same
  have stamps := congrArg MemoryStore.stamps same
  rw [put_stamps, stamped_stamps] at stamps
  exact Nat.succ_ne_self _ stamps

/-- A removal is seen in what is found under the id. -/
theorem erase_ne {store : MemoryStore} (key : id.isKey = true) {stored : Members}
    (found : store.find? id = some stored) : store.erase id ≠ store := by
  intro same
  have gone := find?_erase store key key
  rw [if_pos (Json.same_refl_of_isKey key), same, found] at gone
  cases gone

end Scim.MemoryStore
