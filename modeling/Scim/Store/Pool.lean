import Scim.Http.Session
import Scim.Store.Memory

/-!
# Pools of storage

A pool is the state of several adapters side by side, each known by a name: memory stores that share
one supply, and conversations with servers.
-/

namespace Scim

/-- The state of adapters named by `ι`. -/
structure Pool (ι : Type) where
  supply : Supply
  store : ι → MemoryStore
  session : ι → Http.Session

namespace Pool

variable {ι : Type} [DecidableEq ι]

/-- A function with another value at one place. -/
def updated {α : Type} (f : ι → α) (i : ι) (value : α) : ι → α :=
  fun j => if j = i then value else f j

omit [DecidableEq ι] in
/-- Two pools are the same if their parts are. -/
theorem ext {first second : Pool ι} (supply : first.supply = second.supply)
    (store : first.store = second.store) (session : first.session = second.session) :
    first = second := by
  cases first; cases second; simp_all

theorem updated_self {α : Type} (f : ι → α) (i : ι) (value : α) : updated f i value i = value := by
  simp [updated]

theorem updated_get {α : Type} (f : ι → α) (i : ι) : updated f i (f i) = f := by
  funext j; by_cases h : j = i <;> simp [updated, h]

theorem updated_updated {α : Type} (f : ι → α) (i : ι) (first second : α) :
    updated (updated f i first) i second = updated f i second := by
  funext j; by_cases h : j = i <;> simp [updated, h]

theorem updated_of_ne {α : Type} (f : ι → α) {i j : ι} (value : α) (h : j ≠ i) :
    updated f i value j = f j := by
  simp [updated, h]

/-- The memory store of a name, with the shared supply. -/
def memory (i : ι) : Slot (Pool ι) MemoryState where
  get pool := (pool.supply, pool.store i)
  set part pool := { pool with supply := part.1, store := updated pool.store i part.2 }
  get_set part pool := by simp [updated_self]
  set_get pool := ext rfl (updated_get pool.store i) rfl
  set_set first second pool := ext rfl (updated_updated pool.store i first.2 second.2) rfl

/-- The conversation of a name. -/
def conversation (i : ι) : Slot (Pool ι) Http.Session where
  get pool := pool.session i
  set part pool := { pool with session := updated pool.session i part }
  get_set part pool := by simp [updated_self]
  set_get pool := ext rfl rfl (updated_get pool.session i)
  set_set first second pool := ext rfl rfl (updated_updated pool.session i first second)

end Pool

end Scim
