import Scim.Proofs.Store.Calls

/-!
# Versions and lost updates

A client that writes under the version it has read must not overwrite what another
one wrote in between.  The versions of stamps only grow, so a version of a stamp
never comes back.  A loaded resource brings a version of its own, however, and if
that is the text of a stamp still to come, the store will issue it once more.  A
store keeps all updates exactly if none of its resources has such a version.
-/

namespace Scim

namespace MemoryStore

open Members

/-! ## What a stale call gets -/

/-- The refusal of a call whose condition on a version does not hold. -/
def refusal (store : MemoryStore) (id version : Json) : ScimError :=
  match store.find? id with
  | none => .notFound id
  | some stored => mismatch id version (resourceVersion stored)

/-- A store refuses a version under an id if a conditional write or removal fails
and changes nothing. -/
def Refuses (store : MemoryStore) (id version : Json) : Prop :=
  ∀ (supply : Supply),
    (∀ resource, (StoreCall.replace id resource version).serve supply store =
      (.error (.scim (store.refusal id version)), store)) ∧
    (StoreCall.delete id version).serve supply store =
      (.error (.scim (store.refusal id version)), store)

theorem refuses_of_differs {store : MemoryStore} {id version : Json} (key : id.isKey = true)
    (expects : version.isNull = false)
    (differs : ∀ stored, store.find? id = some stored →
      version.equal (resourceVersion stored) = false) :
    store.Refuses id version := by
  intro supply
  have refused : store.fetchVersion id version = .error (.scim (store.refusal id version)) := by
    unfold refusal
    cases found : store.find? id with
    | none => exact fetchVersion_of_gone key found version
    | some stored => exact fetchVersion_of_mismatch key found expects (differs stored found)
  exact ⟨fun resource => serve_replace_error refused resource supply,
    serve_delete_error refused supply⟩

/-! ## Resources that were written after a number of stamps -/

/-- Whatever is found under an id was stamped after the first `since` stamps. -/
structure WrittenSince (since : Nat) (id : Json) (store : MemoryStore) : Prop where
  bound : since ≤ store.stamps
  newer : ∀ stored, store.find? id = some stored →
    ∃ n, since < n ∧ n ≤ store.stamps ∧ resourceVersion stored = .str (versionText n)

variable {since : Nat} {id : Json} {store after : MemoryStore} {now : String} {call : StoreCall}
  {outcome : Except Failure Json}

/-- A stamped resource put into a store is newer than all stamps before. -/
theorem WrittenSince.put_signed (holds : since ≤ store.stamps) (key : id.isKey = true)
    {other : Json} (otherKey : other.isKey = true) (created : Json) (members : Members)
    (rest : other.same id = false → WrittenSince since id store) :
    WrittenSince since id (store.stamped.put other (store.signed now other created members)) where
  bound := by
    rw [put_stamps, stamped_stamps]
    exact Nat.le_succ_of_le holds
  newer stored found := by
    rw [find?_put _ otherKey key] at found
    cases same : other.same id with
    | true =>
        rw [if_pos same, Option.some.injEq] at found
        subst found
        exact ⟨store.stamps + 1, Nat.lt_succ_of_le holds, le_rfl, resourceVersion_signed ..⟩
    | false =>
        rw [same, if_neg Bool.false_ne_true, find?_stamped] at found
        obtain ⟨n, lower, upper, version⟩ := (rest same).newer stored found
        exact ⟨n, lower, Nat.le_succ_of_le upper, version⟩

theorem WrittenSince.erase (bound : since ≤ store.stamps) (key : id.isKey = true) {other : Json}
    (otherKey : other.isKey = true) (rest : other.same id = false → WrittenSince since id store) :
    WrittenSince since id (store.erase other) where
  bound := bound
  newer stored found := by
    rw [find?_erase _ otherKey key] at found
    cases same : other.same id with
    | true => simp [same] at found
    | false =>
        rw [same, if_neg Bool.false_ne_true] at found
        exact (rest same).newer stored found

theorem WrittenSince.served (key : id.isKey = true)
    (served : Served now store call outcome after) (holds : WrittenSince since id store) :
    WrittenSince since id after := by
  cases served with
  | failed => exact holds
  | read => exact holds
  | created other members otherKey =>
      exact .put_signed holds.bound key otherKey .null members fun _ => holds
  | replaced other version members current otherKey =>
      exact .put_signed holds.bound key otherKey _ members fun _ => holds
  | deleted other version current otherKey =>
      exact .erase holds.bound key otherKey fun _ => holds

theorem WrittenSince.afterCalls (key : id.isKey = true) (holds : WrittenSince since id store)
    (calls : List (Supply × StoreCall)) : WrittenSince since id (store.afterCalls calls) :=
  afterCalls_induction (WrittenSince.served key) holds calls

/-- Calls make stamps and never withdraw one. -/
theorem stamps_le_afterCalls (store : MemoryStore) (calls : List (Supply × StoreCall)) :
    store.stamps ≤ (store.afterCalls calls).stamps := by
  refine afterCalls_induction (I := fun after => store.stamps ≤ after.stamps) ?_ le_rfl calls
  intro now before call outcome after served bound
  cases served with
  | failed => exact bound
  | read => exact bound
  | deleted => exact bound
  | created => exact Nat.le_succ_of_le bound
  | replaced => exact Nat.le_succ_of_le bound

/-! ## Overwriting -/

end MemoryStore

/-- Whether a call writes or removes the resource with an id. -/
def StoreCall.overwrites (id : Json) : StoreCall → Bool
  | .replace other _ _ | .delete other _ => other.same id
  | .create _ | .read _ => false

namespace MemoryStore

open Members

variable {since : Nat} {id : Json} {store after : MemoryStore} {now : String} {call : StoreCall}
  {outcome : Except Failure Json}

/-- A resource that was overwritten is gone or was written since. -/
theorem WrittenSince.of_overwrites (key : id.isKey = true) (bound : since ≤ store.stamps)
    {result : Json} (served : Served now store call (.ok result) after)
    (overwrites : call.overwrites id = true) : WrittenSince since id after := by
  cases served with
  | read => cases overwrites
  | created => cases overwrites
  | replaced other version members current otherKey =>
      refine .put_signed bound key otherKey _ members fun differ => ?_
      rw [StoreCall.overwrites, differ] at overwrites
      cases overwrites
  | deleted other version current otherKey =>
      refine .erase bound key otherKey fun differ => ?_
      rw [StoreCall.overwrites, differ] at overwrites
      cases overwrites

/-! ## Versions of stamps still to come -/

/-- Every version in a store that is the text of a stamp is that of a stamp already
made. -/
def VersionsMade (store : MemoryStore) : Prop :=
  ∀ id stored n, id.isKey = true → store.find? id = some stored →
    resourceVersion stored = .str (versionText n) → n ≤ store.stamps

theorem VersionsMade.served (served : Served now store call outcome after)
    (made : store.VersionsMade) : after.VersionsMade := by
  have signed {other : Json} (otherKey : other.isKey = true) (created : Json) (members : Members) :
      (store.stamped.put other (store.signed now other created members)).VersionsMade := by
    intro id stored n key found version
    rw [find?_put _ otherKey key] at found
    split at found
    · cases found
      rw [resourceVersion_signed, Json.str.injEq, versionText_inj] at version
      simp [version]
    · exact Nat.le_succ_of_le (made id stored n key found version)
  cases served with
  | failed => exact made
  | read => exact made
  | created other members otherKey => exact signed otherKey .null members
  | replaced other version members current otherKey => exact signed otherKey _ members
  | deleted other version current otherKey =>
      intro id stored n key found version
      rw [find?_erase _ otherKey key] at found
      split at found
      · cases found
      · exact made id stored n key found version

/-! ## Lost updates -/

/-- A store keeps all updates: a resource that was read and then overwritten cannot
be written or removed under the version that was read, whatever calls come before,
between and after. -/
def KeepsUpdates (store : MemoryStore) : Prop :=
  ∀ (earlier between later : List (Supply × StoreCall)) (reader writer : Supply) (id : Json)
    (current : Members) (overwrite : StoreCall) (result : Json),
    let seen := store.afterCalls earlier
    let overwritten := overwrite.serve writer (seen.afterCalls between)
    ((StoreCall.read id).serve reader seen).1 = .ok (.obj current) →
    (resourceVersion current).isNull = false →
    overwrite.overwrites id = true → overwritten.1 = .ok result →
    ∀ other, other.same id = true →
      (overwritten.2.afterCalls later).Refuses other (resourceVersion current)

theorem VersionsMade.keepsUpdates (made : store.VersionsMade) : store.KeepsUpdates := by
  intro earlier between later reader writer id current overwrite result seen overwritten
    readOk expects overwrites overwriteOk other same
  have seenMade : seen.VersionsMade := afterCalls_induction VersionsMade.served made earlier
  obtain ⟨key, found⟩ : id.isKey = true ∧ seen.find? id = some current := by
    have served := serve_served (.read id) reader seen
    rw [readOk] at served
    cases served with
    | read _ _ key found => exact ⟨key, found⟩
  have otherKey := Json.isKey_of_same key same
  have written : WrittenSince seen.stamps id (overwritten.2.afterCalls later) := by
    have served := serve_served overwrite writer (seen.afterCalls between)
    rw [overwriteOk] at served
    have bound := stamps_le_afterCalls seen between
    exact (WrittenSince.of_overwrites key bound served overwrites).afterCalls key later
  apply refuses_of_differs otherKey expects
  intro stored storedFound
  rw [find?_congr _ otherKey key same] at storedFound
  obtain ⟨n, newer, _, version⟩ := written.newer stored storedFound
  rw [version, Bool.eq_false_iff, Ne, Json.equal_str_iff]
  intro equal
  have older := seenMade id current n key found equal
  omega

/-- An unconditional write of a resource that is there succeeds and issues the next
version. -/
theorem serve_rewrite (key : id.isKey = true) {current : Members}
    (found : store.find? id = some current) (supply : Supply) :
    ∃ stored,
      (StoreCall.replace id (.obj []) .null).serve supply store =
        (.ok (.obj stored), store.stamped.put id stored) ∧
      resourceVersion stored = .str (versionText (store.stamps + 1)) := by
  have fetched : store.fetchVersion id .null = .ok current :=
    (fetchVersion_eq_ok_iff ..).mpr ⟨⟨key, found⟩, .inl rfl⟩
  exact ⟨_, serve_replace_ok fetched [] supply, resourceVersion_signed ..⟩

theorem afterCalls_rewrites (key : id.isKey = true) {current : Members}
    (found : store.find? id = some current) (supply : Supply) (count : Nat) :
    let after := store.afterCalls (.replicate count (supply, .replace id (.obj []) .null))
    (∃ stored, after.find? id = some stored) ∧ after.stamps = store.stamps + count := by
  induction count generalizing store current with
  | zero => exact ⟨⟨current, found⟩, rfl⟩
  | succ count ih =>
      obtain ⟨stored, served, _⟩ := serve_rewrite key found supply
      have refound : (store.stamped.put id stored).find? id = some stored := by
        rw [find?_put _ key key, if_pos (Json.same_refl_of_isKey key)]
      have rest := ih refound
      rw [List.replicate_succ, afterCalls_cons, served]
      refine ⟨rest.1, rest.2.trans ?_⟩
      rw [put_stamps, stamped_stamps, Nat.add_assoc, Nat.add_comm 1]

/-- A loaded version that a stamp still to come will bear is accepted again after
that stamp. -/
theorem not_keepsUpdates_of_ahead (key : id.isKey = true) {stored : Members}
    (found : store.find? id = some stored) {n : Nat}
    (version : resourceVersion stored = .str (versionText n)) (ahead : store.stamps < n) :
    ¬ store.KeepsUpdates := by
  intro keeps
  let supply : Supply := ⟨0, 0, 1⟩
  let rewrite : StoreCall := .replace id (.obj []) .null
  obtain ⟨count, rfl⟩ : ∃ count, n = store.stamps + count + 1 := ⟨n - store.stamps - 1, by omega⟩
  -- the writes before the last one use up the stamps below the version
  obtain ⟨⟨before, beforeFound⟩, stamps⟩ := afterCalls_rewrites key found supply count
  obtain ⟨last, served, lastVersion⟩ := serve_rewrite key beforeFound supply
  have readOk : ((StoreCall.read id).serve supply store).1 = .ok (.obj stored) := by
    simp [StoreCall.serve, StoreCall.action, run_read,
      (fetch_eq_ok_iff store id stored).mpr ⟨key, found⟩, Except.map]
  let final := (store.afterCalls (.replicate count (supply, rewrite))).stamped.put id last
  have accepted : final.fetchVersion id (resourceVersion stored) = .ok last := by
    refine (fetchVersion_eq_ok_iff ..).mpr ⟨⟨key, ?_⟩, .inr ?_⟩
    · rw [find?_put _ key key, if_pos (Json.same_refl_of_isKey key)]
    · rw [lastVersion, version, stamps, Json.equal_str_iff]
  have refused : final.Refuses id (resourceVersion stored) := by
    have kept := keeps [] (.replicate count (supply, rewrite)) [] supply supply id stored rewrite
      (.obj last) readOk (by rw [version]; rfl) (Json.same_refl_of_isKey key)
      (congrArg Prod.fst served) id (Json.same_refl_of_isKey key)
    rwa [afterCalls_nil, afterCalls_nil, congrArg Prod.snd served] at kept
  have deleted := (refused supply).2
  rw [serve_delete_ok accepted] at deleted
  cases deleted

/-- A store keeps all updates exactly if none of its resources has the version of a
stamp still to come. -/
theorem keepsUpdates_iff_versionsMade (store : MemoryStore) :
    store.KeepsUpdates ↔ store.VersionsMade := by
  constructor
  · intro keeps id stored n key found version
    by_contra ahead
    exact not_keepsUpdates_of_ahead key found version (by omega) keeps
  · exact VersionsMade.keepsUpdates

/-- A resource that is loaded with the version of the first stamp loses an update:
the first write bears that version again. -/
theorem not_keepsUpdates_load_firstVersion :
    ¬ ((load [.obj [("id", .str "x"), ("meta", .obj [("version", .str "W/\"1\"")])]]).run
        (.startingOn ⟨2024, 1, 1⟩ 1000001, empty "User" none "")).2.2.KeepsUpdates :=
  not_keepsUpdates_of_ahead (rfl : (Json.str "x").isKey = true) rfl (n := 1) rfl (by decide)

end MemoryStore

end Scim
