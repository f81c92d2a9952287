import Scim.Proofs.Action
import Scim.Proofs.Resource.Attributes
import Scim.Proofs.Store.Entries

/-!
# Calls of a memory store

Any number of clients may call a memory store.  Its calls are atomic, so what they
do to it is a list of calls in the order in which the store serves them, each with
the time and the fresh ids that the supply gives it then.

Each operation has one equation that says everything it can do.  A call that fails
leaves the store as it was, and one that succeeds reads it, writes one stamped
resource or removes one.
-/

namespace Scim

open Members

namespace MemoryStore

/-! ## Conditional look-ups -/

/-- The refusal of a condition on a version. -/
def mismatch (id version actual : Json) : ScimError :=
  .concurrentModification
    ("Resource " ++ id.plain ++ " was modified (expected version " ++ version.plain ++
      ", found " ++ actual.plain ++ ")") version actual

theorem lookup_of_isKey (store : MemoryStore) {id : Json} (key : id.isKey = true) :
    store.lookup id = .ok (store.find? id) := by
  rw [lookup, if_pos key]

theorem fetch_eq_ok_iff (store : MemoryStore) (id : Json) (stored : Members) :
    store.fetch id = .ok stored ↔ id.isKey = true ∧ store.find? id = some stored := by
  cases key : id.isKey with
  | false => simp [fetch, lookup, key, failWith, bind, Except.bind]
  | true =>
      rw [fetch, lookup_of_isKey store key]
      cases found : store.find? id <;>
        simp [bind, Except.bind, pure, Except.pure, refuse]

/-- A condition on a version holds if it expects none or the one that is there. -/
theorem fetchVersion_eq_ok_iff (store : MemoryStore) (id version : Json) (stored : Members) :
    store.fetchVersion id version = .ok stored ↔
      (id.isKey = true ∧ store.find? id = some stored) ∧
        (version.isNull = true ∨ version.equal (resourceVersion stored) = true) := by
  rw [← fetch_eq_ok_iff]
  unfold fetchVersion
  cases fetched : store.fetch id with
  | error failure => simp [bind, Except.bind]
  | ok current =>
      simp only [bind, Except.bind]
      split
      · next stale =>
          simp only [Bool.and_eq_true, Bool.not_eq_true'] at stale
          simp only [refuse, reduceCtorEq, false_iff, not_and, Except.ok.injEq]
          rintro rfl
          simp [stale]
      · next met =>
          simp only [Bool.and_eq_true, Bool.not_eq_true', not_and, Bool.not_eq_false] at met
          simp only [pure, Except.pure, Except.ok.injEq, iff_self_and]
          rintro rfl
          cases null : version.isNull with
          | true => exact .inl rfl
          | false => exact .inr (met null)

/-- Nothing is found under the id. -/
theorem fetchVersion_of_gone {store : MemoryStore} {id : Json} (key : id.isKey = true)
    (gone : store.find? id = none) (version : Json) :
    store.fetchVersion id version = refuse (.notFound id) := by
  simp [fetchVersion, fetch, lookup_of_isKey store key, gone, bind, Except.bind, refuse]

/-- The version that is expected is not the one that is found. -/
theorem fetchVersion_of_mismatch {store : MemoryStore} {id version : Json} {stored : Members}
    (key : id.isKey = true) (found : store.find? id = some stored)
    (expects : version.isNull = false)
    (differs : version.equal (resourceVersion stored) = false) :
    store.fetchVersion id version = refuse (mismatch id version (resourceVersion stored)) := by
  simp [fetchVersion, (fetch_eq_ok_iff store id stored).mpr ⟨key, found⟩, expects, differs,
    bind, Except.bind, mismatch]

/-! ## Stamps -/

/-- A resource with the id and the `meta` attribute that the next stamp of a store
gives it. -/
def signed (store : MemoryStore) (now : String) (id created : Json) (resource : Members) :
    Members :=
  setAttr (setAttr resource "id" id) "meta"
    (.obj (store.stampInfo id created now (store.stamps + 1)))

@[simp] theorem resourceVersion_signed (store : MemoryStore) (now : String) (id created : Json)
    (resource : Members) :
    resourceVersion (store.signed now id created resource) =
      .str (versionText (store.stamps + 1)) := by
  rw [resourceVersion, signed, attr_setAttr_self]
  simp [stampInfo, attr, attr?, key?]

theorem versionText_inj {m n : Nat} : versionText m = versionText n ↔ m = n := by
  constructor
  · intro equal
    have digits : Nat.toDigits 10 m = Nat.toDigits 10 n := by
      have lists := congrArg String.toList equal
      simpa [versionText] using lists
    have values := congrArg (Nat.ofDigitChars 10 · 0) digits
    simpa using values
  · rintro rfl
    rfl

/-! ## Creating -/

/-- The part of a creation that follows the choice of an id. -/
def insert (keepMeta : Bool) (resource id : Json) : Action MemoryState Json := do
  Action.examine fun (_, store) => store.checkFree id
  let named := setAttr (← Action.ofExcept resource.asResource) "id" id
  if keepMeta && (attr named "meta").isObj then write id named
  else write id (← stamp id .null named)

theorem create_eq (keepMeta : Bool) (resource : Json) :
    create keepMeta resource = (do
      let stated ← Action.ofExcept (resource.attrOf "id")
      let id ← if stated.isVoid then freshId else pure stated
      insert keepMeta resource id) := rfl

theorem checkFree_eq_ok_iff (store : MemoryStore) (id : Json) :
    store.checkFree id = .ok () ↔ id.isKey = true ∧ store.find? id = none := by
  cases key : id.isKey with
  | false => simp [checkFree, lookup, key, failWith, bind, Except.bind]
  | true =>
      rw [checkFree, lookup_of_isKey store key]
      cases found : store.find? id <;>
        simp [bind, Except.bind, pure, Except.pure, refuse]

/-- What a creation comes to: it is refused and leaves the store as it was, or it
puts the resource under an id that nothing had, as it is if it is loaded with a
`meta` attribute of its own and stamped otherwise. -/
inductive Creation (keepMeta : Bool) (now : String) (store : MemoryStore) :
    Json → Except Failure Json × MemoryState → Prop where
  | refused (resource : Json) (failure : Failure) (after : Supply) :
      Creation keepMeta now store resource (.error failure, (after, store))
  | kept (id : Json) (members : Members) (after : Supply) (keeps : keepMeta = true)
      (owns : (attr (setAttr members "id" id) "meta").isObj = true)
      (key : id.isKey = true) (free : store.find? id = none) :
      Creation keepMeta now store (.obj members)
        (.ok (.obj (setAttr members "id" id)), (after, store.put id (setAttr members "id" id)))
  | signed (id : Json) (members : Members) (after : Supply)
      (fresh : (keepMeta && (attr (setAttr members "id" id) "meta").isObj) = false)
      (key : id.isKey = true) (free : store.find? id = none) :
      Creation keepMeta now store (.obj members)
        (.ok (.obj (store.signed now id .null members)),
          (after, store.stamped.put id (store.signed now id .null members)))

theorem insert_creation (keepMeta : Bool) (resource id : Json) (supply : Supply)
    (store : MemoryStore) :
    Creation keepMeta supply.readClock.1 store resource
      ((insert keepMeta resource id).run (supply, store)) := by
  unfold insert
  rw [Action.run_bind, Action.run_examine]
  dsimp only
  cases checked : store.checkFree id with
  | error failure => exact .refused resource failure supply
  | ok _ =>
      obtain ⟨key, free⟩ := (checkFree_eq_ok_iff store id).mp checked
      dsimp only
      rw [Action.run_bind, Action.run_ofExcept]
      cases resource with
      | obj members =>
          simp only [Json.asResource]
          split
          · next keeps =>
              simp only [Bool.and_eq_true] at keeps
              exact .kept id members supply keeps.1 keeps.2 key free
          · next fresh => exact .signed id members _ (Bool.eq_false_of_not_eq_true fresh) key free
      | _ => exact .refused _ _ _

theorem create_creation (keepMeta : Bool) (resource : Json) (supply : Supply)
    (store : MemoryStore) :
    Creation keepMeta supply.readClock.1 store resource
      ((create keepMeta resource).run (supply, store)) := by
  rw [create_eq, Action.run_bind, Action.run_ofExcept]
  cases stated : resource.attrOf "id" with
  | error failure => exact .refused resource failure supply
  | ok id =>
      dsimp only
      split
      · -- a fresh id is taken, which the clock of the supply does not notice
        exact insert_creation keepMeta resource (.str supply.takeId.1) supply.takeId.2 store
      · exact insert_creation keepMeta resource id supply store

/-! ## Calls -/

end MemoryStore

/-- A call of a memory store. -/
inductive StoreCall where
  | create (resource : Json)
  | read (id : Json)
  | replace (id resource version : Json)
  | delete (id version : Json)

namespace StoreCall

/-- What a call does, with the resource that it returns, if it returns one. -/
def action : StoreCall → Action MemoryState Json
  | .create resource => MemoryStore.adapter.create resource
  | .read id => MemoryStore.adapter.read id
  | .replace id resource version => MemoryStore.adapter.replace id resource version
  | .delete id version => do
    MemoryStore.adapter.delete id version
    return .null

/-- The outcome of a call and the store after it, given the supply that the call
draws on. -/
def serve (call : StoreCall) (supply : Supply) (store : MemoryStore) :
    Except Failure Json × MemoryStore :=
  let (outcome, after) := call.action.run (supply, store)
  (outcome, after.2)

end StoreCall

namespace MemoryStore

/-- Whether a version is the expected one; null expects none. -/
def Meets (version : Json) (stored : Members) : Prop :=
  version.isNull = true ∨ version.equal (resourceVersion stored) = true

/-- What a call comes to.  A call that fails leaves the store as it was. -/
inductive Served (now : String) (store : MemoryStore) :
    StoreCall → Except Failure Json → MemoryStore → Prop where
  | failed (call : StoreCall) (failure : Failure) :
      Served now store call (.error failure) store
  | created (id : Json) (members : Members) (key : id.isKey = true)
      (free : store.find? id = none) :
      Served now store (.create (.obj members))
        (.ok (.obj (store.signed now id .null members)))
        (store.stamped.put id (store.signed now id .null members))
  | read (id : Json) (stored : Members) (key : id.isKey = true)
      (found : store.find? id = some stored) :
      Served now store (.read id) (.ok (.obj stored)) store
  | replaced (id version : Json) (members current : Members) (key : id.isKey = true)
      (found : store.find? id = some current) (meets : Meets version current) :
      Served now store (.replace id (.obj members) version)
        (.ok (.obj (store.signed now id (createdAt current) members)))
        (store.stamped.put id (store.signed now id (createdAt current) members))
  | deleted (id version : Json) (current : Members) (key : id.isKey = true)
      (found : store.find? id = some current) (meets : Meets version current) :
      Served now store (.delete id version) (.ok .null) (store.erase id)

theorem run_read (id : Json) (supply : Supply) (store : MemoryStore) :
    (adapter.read id).run (supply, store) = ((store.fetch id).map .obj, (supply, store)) := rfl

theorem asStorable_eq_ok_iff (resource : Json) (members : Members) :
    asStorable resource = .ok members ↔ resource = .obj members := by
  unfold asStorable
  cases stated : resource.attrOf "id" with
  | error failure => cases resource <;> simp_all [Json.attrOf, bind, Except.bind]
  | ok _ => cases resource <;> simp [Json.asResource, bind, Except.bind, failWith]

/-- A write whose condition fails is refused as the look-up is. -/
theorem serve_replace_error {store : MemoryStore} {id version : Json} {failure : Failure}
    (refused : store.fetchVersion id version = .error failure) (resource : Json)
    (supply : Supply) :
    (StoreCall.replace id resource version).serve supply store = (.error failure, store) := by
  simp only [StoreCall.serve, StoreCall.action, adapter, replace, Action.run_bind,
    Action.run_examine, refused]

/-- A removal whose condition fails is refused as the look-up is. -/
theorem serve_delete_error {store : MemoryStore} {id version : Json} {failure : Failure}
    (refused : store.fetchVersion id version = .error failure) (supply : Supply) :
    (StoreCall.delete id version).serve supply store = (.error failure, store) := by
  simp only [StoreCall.serve, StoreCall.action, adapter, delete, Action.run_bind,
    Action.run_examine, refused]

/-- A write whose condition holds puts the stamped resource under the id. -/
theorem serve_replace_ok {store : MemoryStore} {id version : Json} {current : Members}
    (fetched : store.fetchVersion id version = .ok current) (members : Members)
    (supply : Supply) :
    (StoreCall.replace id (.obj members) version).serve supply store =
      (.ok (.obj (store.signed supply.readClock.1 id (createdAt current) members)),
        store.stamped.put id
          (store.signed supply.readClock.1 id (createdAt current) members)) := by
  simp only [StoreCall.serve, StoreCall.action, adapter, replace, Action.run_bind,
    Action.run_examine, Action.run_ofExcept, fetched, (asStorable_eq_ok_iff _ _).mpr rfl]
  rfl

/-- A removal whose condition holds removes the resource. -/
theorem serve_delete_ok {store : MemoryStore} {id version : Json} {current : Members}
    (fetched : store.fetchVersion id version = .ok current) (supply : Supply) :
    (StoreCall.delete id version).serve supply store = (.ok .null, store.erase id) := by
  simp only [StoreCall.serve, StoreCall.action, adapter, delete, Action.run_bind,
    Action.run_examine, fetched]
  rfl

theorem serve_served (call : StoreCall) (supply : Supply) (store : MemoryStore) :
    Served supply.readClock.1 store call (call.serve supply store).1 (call.serve supply store).2 := by
  cases call with
  | create resource =>
      have creation := create_creation false resource supply store
      simp only [StoreCall.serve, StoreCall.action, adapter]
      generalize (create false resource).run (supply, store) = ran at creation
      cases creation with
      | refused => exact .failed _ _
      | kept _ _ _ keeps => cases keeps
      | signed id members _ _ key free => exact .created id members key free
  | read id =>
      simp only [StoreCall.serve, StoreCall.action, run_read]
      cases fetched : store.fetch id with
      | error failure => exact .failed _ failure
      | ok stored =>
          obtain ⟨key, found⟩ := (fetch_eq_ok_iff store id stored).mp fetched
          exact .read id stored key found
  | replace id resource version =>
      cases fetched : store.fetchVersion id version with
      | error failure =>
          rw [serve_replace_error fetched]
          exact .failed _ failure
      | ok current =>
          obtain ⟨⟨key, found⟩, meets⟩ := (fetchVersion_eq_ok_iff ..).mp fetched
          cases storable : asStorable resource with
          | error failure =>
              simp only [StoreCall.serve, StoreCall.action, adapter, replace, Action.run_bind,
                Action.run_examine, Action.run_ofExcept, fetched, storable]
              exact .failed _ failure
          | ok members =>
              rw [asStorable_eq_ok_iff] at storable
              subst storable
              rw [serve_replace_ok fetched]
              exact .replaced id version members current key found meets
  | delete id version =>
      cases fetched : store.fetchVersion id version with
      | error failure =>
          rw [serve_delete_error fetched]
          exact .failed _ failure
      | ok current =>
          obtain ⟨⟨key, found⟩, meets⟩ := (fetchVersion_eq_ok_iff ..).mp fetched
          rw [serve_delete_ok fetched]
          exact .deleted id version current key found meets

/-! ## Runs -/

/-- The store after some calls, each served with the supply beside it. -/
def afterCalls (store : MemoryStore) (calls : List (Supply × StoreCall)) : MemoryStore :=
  calls.foldl (fun store (supply, call) => (call.serve supply store).2) store

@[simp] theorem afterCalls_nil (store : MemoryStore) : store.afterCalls [] = store := rfl

@[simp] theorem afterCalls_cons (store : MemoryStore) (supply : Supply) (call : StoreCall)
    (calls : List (Supply × StoreCall)) :
    store.afterCalls ((supply, call) :: calls) = (call.serve supply store).2.afterCalls calls := rfl

/-- What every call that is served keeps, every run of calls keeps. -/
theorem afterCalls_induction {I : MemoryStore → Prop}
    (step : ∀ {now store call outcome after},
      Served now store call outcome after → I store → I after)
    {store : MemoryStore} (holds : I store) (calls : List (Supply × StoreCall)) :
    I (store.afterCalls calls) := by
  induction calls generalizing store with
  | nil => exact holds
  | cons request calls ih =>
      obtain ⟨supply, call⟩ := request
      exact ih (step (serve_served call supply store) holds)

end MemoryStore

end Scim
