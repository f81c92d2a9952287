import Scim.Proofs.Store.Keys

/-!
# Stamps of a memory store

A store is read together with a record of the states of resources that it has stamped,
in order.  The record grows by at most one state with every resource that is loaded and
every call that is served, and what holds of a store and its record is kept by each:
the versions of the states are those of the first stamps, and whatever is stored was
stamped or was loaded with a `meta` attribute of its own.

Writing over a resource leaves it where it is in the order of the store.
-/

namespace Scim

open Members

/-! ## Records of stamps -/

/-- The state of a resource that a call stamps, if it creates or overwrites one. -/
def StoreCall.stamped : StoreCall → Except Failure Json → List Members
  | .create _, .ok (.obj stored) | .replace _ _ _, .ok (.obj stored) => [stored]
  | _, _ => []

namespace MemoryStore

/-- The states of resources that calls stamp, in order. -/
def stampedByCalls (store : MemoryStore) : List (Supply × StoreCall) → List Members
  | [] => []
  | (supply, call) :: calls =>
    let (outcome, after) := call.serve supply store
    call.stamped outcome ++ after.stampedByCalls calls

/-- Whether a resource that is loaded keeps its `meta` attribute. -/
def keepsInfo : Json → Bool
  | .obj members => (attr members "meta").isObj
  | _ => false

/-- The states of resources that loading stamps, in order. -/
def stampedByLoad : List Json → MemoryState → List Members
  | [], _ => []
  | resource :: rest, state =>
    match (create true resource).run state with
    | (.ok (.obj stored), after) =>
      if keepsInfo resource then stampedByLoad rest after
      else stored :: stampedByLoad rest after
    | _ => []

/-- What holds of a store into which resources were loaded and that has stamped some
states, in order. -/
structure Recorded (loaded : List Json) (stamped : List Members) (store : MemoryStore) :
    Prop where
  /-- The versions of the states are those of the first stamps. -/
  versions : stamped.map resourceVersion =
    (List.range' 1 store.stamps).map fun n => .str (versionText n)
  /-- The id of a resource is the one that it is stored under. -/
  identified : ∀ entry ∈ store.entries, entry.1.same (attr entry.2 "id") = true
  /-- A stored resource was stamped or kept its `meta` attribute. -/
  origin : ∀ entry ∈ store.entries, entry.2 ∈ stamped ∨
    ∃ members id, .obj members ∈ loaded ∧ keepsInfo (.obj members) = true ∧
      entry.2 = setAttr members "id" id

theorem recorded_empty (resourceType : String) (endpoint : Option String) (baseUrl : String)
    (loaded : List Json) : (empty resourceType endpoint baseUrl).Recorded loaded [] :=
  ⟨rfl, nofun, nofun⟩

namespace Recorded

variable {loaded : List Json} {stamped : List Members} {store after : MemoryStore}
  {now : String} {call : StoreCall} {outcome : Except Failure Json}

/-- Stamps are never alike. -/
theorem nodup (recorded : store.Recorded loaded stamped) :
    (stamped.map resourceVersion).Nodup := by
  rw [recorded.versions]
  apply (List.nodup_range' (s := 1) (n := store.stamps)).map
  intro m n same
  exact versionText_inj.mp (Json.str.inj same)

/-- Two resources that are stored and were stamped have different versions. -/
theorem pairwise_version_ne (recorded : store.Recorded loaded stamped) (keyed : store.Keyed) :
    store.entries.Pairwise fun a b => a.2 ∈ stamped → b.2 ∈ stamped →
      resourceVersion a.2 ≠ resourceVersion b.2 := by
  refine (List.pairwise_map.mp keyed.distinct).imp_of_mem fun {a b} heldA heldB differ => ?_
  intro stampedA stampedB version
  have state : a.2 = b.2 := List.inj_on_of_nodup_map recorded.nodup stampedA stampedB version
  -- one state has one id, and the ids of the store differ
  have keyA := keyed.isKey a.1 (List.mem_map_of_mem heldA)
  have keyB := keyed.isKey b.1 (List.mem_map_of_mem heldB)
  have idA := (Json.same_iff_of_isKey keyA _).mp (recorded.identified a heldA)
  have idB := (Json.same_iff_of_isKey keyB _).mp (recorded.identified b heldB)
  have same := (Json.same_iff_of_isKey keyA b.1).mpr (by rw [idA, idB, state])
  rw [differ] at same
  cases same

/-- A write of a resource whose id is that of its entry. -/
theorem put {id : Json} {resource : Members} (recorded : store.Recorded loaded stamped)
    (key : id.isKey = true) (named : attr resource "id" = id)
    (origin : resource ∈ stamped ∨ ∃ members id, .obj members ∈ loaded ∧
      keepsInfo (.obj members) = true ∧ resource = setAttr members "id" id) :
    (store.put id resource).Recorded loaded stamped where
  versions := recorded.versions
  identified entry held := by
    rcases mem_putEntry held with old | rfl | ⟨same, rfl⟩
    · exact recorded.identified entry old
    · rw [named]
      exact Json.same_refl_of_isKey key
    · rwa [named]
  origin entry held := by
    rcases mem_putEntry held with old | rfl | ⟨_, rfl⟩
    · exact recorded.origin entry old
    · exact origin
    · exact origin

/-- One more stamp, whose state is not stored yet. -/
theorem stamp (recorded : store.Recorded loaded stamped) (now : String) (id created : Json)
    (members : Members) :
    store.stamped.Recorded loaded (stamped ++ [store.signed now id created members]) where
  versions := by
    rw [List.map_append, recorded.versions, List.map_singleton, resourceVersion_signed,
      stamped_stamps, List.range'_concat, List.map_append, List.map_singleton, Nat.one_mul,
      Nat.add_comm 1]
  identified := recorded.identified
  origin entry held := (recorded.origin entry held).imp_left (List.mem_append_left _)

theorem put_signed (recorded : store.Recorded loaded stamped) {id : Json}
    (key : id.isKey = true) (now : String) (created : Json) (members : Members) :
    (store.stamped.put id (store.signed now id created members)).Recorded loaded
      (stamped ++ [store.signed now id created members]) :=
  (recorded.stamp now id created members).put key (attr_id_signed ..)
    (.inl (List.mem_append_right _ (List.mem_singleton_self _)))

theorem erase (recorded : store.Recorded loaded stamped) (id : Json) :
    (store.erase id).Recorded loaded stamped where
  versions := recorded.versions
  identified entry held := recorded.identified entry (List.mem_of_mem_filter held)
  origin entry held := recorded.origin entry (List.mem_of_mem_filter held)

/-! ## Runs -/

/-- A call that is served adds to the record what it stamps. -/
theorem served (recorded : store.Recorded loaded stamped)
    (served : Served now store call outcome after) :
    after.Recorded loaded (stamped ++ call.stamped outcome) := by
  cases served with
  | failed call failure =>
      have nothing : call.stamped (.error failure) = [] := by cases call <;> rfl
      rw [nothing, List.append_nil]
      exact recorded
  | created id members key => exact recorded.put_signed key now .null members
  | read => simpa [StoreCall.stamped] using recorded
  | replaced id version members current key =>
      exact recorded.put_signed key now (createdAt current) members
  | deleted id => simpa [StoreCall.stamped] using recorded.erase id

theorem afterCalls (recorded : store.Recorded loaded stamped)
    (calls : List (Supply × StoreCall)) :
    (store.afterCalls calls).Recorded loaded (stamped ++ store.stampedByCalls calls) := by
  induction calls generalizing store stamped with
  | nil =>
      rw [stampedByCalls, List.append_nil]
      exact recorded
  | cons request calls ih =>
      obtain ⟨supply, call⟩ := request
      have first := recorded.served (serve_served call supply store)
      rw [stampedByCalls, ← List.append_assoc]
      exact ih first

/-- A resource that is loaded adds itself to the record if it is stamped. -/
theorem load (recorded : store.Recorded loaded stamped) (resources : List Json)
    (given : ∀ resource ∈ resources, resource ∈ loaded) (supply : Supply) :
    ((load resources).run (supply, store)).2.2.Recorded loaded
      (stamped ++ stampedByLoad resources (supply, store)) := by
  induction resources generalizing store stamped supply with
  | nil =>
      rw [stampedByLoad, List.append_nil]
      exact recorded
  | cons resource rest ih =>
      obtain ⟨first, later⟩ := List.forall_mem_cons.mp given
      have creation := create_creation true resource supply store
      rw [MemoryStore.load, Action.run_bind, stampedByLoad]
      generalize (create true resource).run (supply, store) = ran at creation
      -- the id is put in before the `meta` attribute is looked at, and does not touch it
      have info (members : Members) (id : Json) :
          (attr (setAttr members "id" id) "meta").isObj = keepsInfo (.obj members) := by
        have differ : sameName "id" "meta" = false := by decide
        rw [attr, attr?_congr (spellings_setAttr_of_differ members differ id), keepsInfo, attr]
      cases creation with
      | refused resource failure after =>
          simpa using recorded
      | kept id members after keeps owns key free =>
          rw [info] at owns
          simp only [owns, if_pos]
          exact ih (recorded.put key (attr_setAttr_self ..)
            (.inr ⟨members, id, first, owns, rfl⟩)) later after
      | signed id members after fresh key free =>
          rw [info, Bool.true_and] at fresh
          simp only [fresh, if_neg Bool.false_ne_true]
          rw [List.append_cons]
          exact ih (recorded.put_signed key _ .null members) later after

end Recorded

/-! ## Writing over a resource -/

theorem createdAt_signed (store : MemoryStore) (now : String) (id created : Json)
    (members : Members) :
    createdAt (store.signed now id created members) = created.orElse (.str now) := by
  rw [createdAt, signed, attr_setAttr_self]
  simp [stampInfo, attr, attr?, key?]

/-- A write under an id that is taken leaves the entries before and behind it. -/
theorem putEntry_of_find? {id : Json} {entries : List (Json × Members)} {current : Members}
    (found : (entries.find? (·.1.same id)).map (·.2) = some current) (stored : Members) :
    ∃ before key rest, entries = before ++ (key, current) :: rest ∧ key.same id = true ∧
      putEntry id stored entries = before ++ (key, stored) :: rest := by
  induction entries with
  | nil => cases found
  | cons entry entries ih =>
      obtain ⟨key, first⟩ := entry
      cases taken : key.same id with
      | true =>
          simp only [List.find?_cons_of_pos, taken, Option.map_some, Option.some.injEq] at found
          subst found
          exact ⟨[], key, entries, rfl, taken, by rw [putEntry, if_pos taken]; rfl⟩
      | false =>
          rw [List.find?_cons_of_neg (by simp [taken])] at found
          obtain ⟨before, other, rest, split, same, written⟩ := ih found
          refine ⟨(key, first) :: before, other, rest, by rw [split]; rfl, same, ?_⟩
          rw [putEntry, taken, if_neg Bool.false_ne_true, written]
          rfl

/-- A store after a resource was written over: the entry stays in its place, and the time
of creation stays what it was unless it is null, false, zero or empty. -/
inductive Rewritten (id : Json) (stored : Members) (store after : MemoryStore) : Prop where
  | inPlace (before rest : List (Json × Members)) (key : Json) (current : Members)
      (same : key.same id = true)
      (held : store.entries = before ++ (key, current) :: rest)
      (written : after.entries = before ++ (key, stored) :: rest)
      (created : (createdAt current).isVoid = false → createdAt stored = createdAt current)

theorem serve_rewritten {id resource version : Json} {supply : Supply} {store : MemoryStore}
    {result : Json}
    (succeeds : ((StoreCall.replace id resource version).serve supply store).1 = .ok result) :
    ∃ stored, result = .obj stored ∧
      Rewritten id stored store ((StoreCall.replace id resource version).serve supply store).2 := by
  have served := serve_served (.replace id resource version) supply store
  rw [succeeds] at served
  generalize ((StoreCall.replace id resource version).serve supply store).2 = after at served ⊢
  cases served with
  | replaced _ _ members current key found =>
      obtain ⟨before, other, rest, held, same, written⟩ :=
        putEntry_of_find? found (store.signed supply.readClock.1 id (createdAt current) members)
      refine ⟨_, rfl, .inPlace before rest other current same held written fun known => ?_⟩
      rw [createdAt_signed, Json.orElse, known, if_neg Bool.false_ne_true]

/-- A time of creation that is zero is taken for none, and is lost when the resource is
written over. -/
theorem createdAt_rewrite_zero :
    let supply : Supply := .startingOn ⟨2024, 1, 1⟩ 1000001
    let store := ((load [.obj [("id", .str "x"), ("meta", .obj [("created", .int 0)])]]).run
      (supply, empty "User" none "")).2.2
    ∃ current stored, store.find? (.str "x") = some current ∧ createdAt current = .int 0 ∧
      ((StoreCall.replace (.str "x") (.obj [("displayName", .str "a")]) .null).serve supply
        store).1 = .ok (.obj stored) ∧ createdAt stored ≠ .int 0 := by
  intro supply store
  let current : Members := [("id", .str "x"), ("meta", .obj [("created", .int 0)])]
  have found : store.find? (.str "x") = some current := rfl
  have fetched : store.fetchVersion (.str "x") .null = .ok current :=
    (fetchVersion_eq_ok_iff ..).mpr ⟨⟨rfl, found⟩, .inl rfl⟩
  have zero : createdAt current = .int 0 := rfl
  refine ⟨current, store.signed supply.readClock.1 (.str "x") (createdAt current)
    [("displayName", .str "a")], found, zero, ?_, ?_⟩
  · rw [serve_replace_ok fetched]
  · rw [createdAt_signed, zero]
    nofun

/-! ## Adapters -/

/-- In every state of an adapter the resources are stored under their own ids, the stamps
made so far bear the versions from the first one on, no two of them alike, and writing
over a resource keeps its place and the time of its creation. -/
theorem recorded_load_afterCalls (resourceType : String) (endpoint : Option String)
    (baseUrl : String) (resources : List Json) (supply : Supply)
    (calls : List (Supply × StoreCall)) :
    let start : MemoryState := (supply, empty resourceType endpoint baseUrl)
    let loaded := ((load resources).run start).2.2
    let store := loaded.afterCalls calls
    let stamped := stampedByLoad resources start ++ loaded.stampedByCalls calls
    store.Recorded resources stamped ∧ (stamped.map resourceVersion).Nodup ∧
      (store.entries.Pairwise fun a b => a.2 ∈ stamped → b.2 ∈ stamped →
        resourceVersion a.2 ≠ resourceVersion b.2) ∧
      ∀ id resource version writer result,
        ((StoreCall.replace id resource version).serve writer store).1 = .ok result →
          ∃ stored, result = .obj stored ∧
            Rewritten id stored store
              ((StoreCall.replace id resource version).serve writer store).2 := by
  intro start loaded store stamped
  have initial : loaded.Recorded resources (stampedByLoad resources start) := by
    simpa using (recorded_empty resourceType endpoint baseUrl resources).load resources
      (fun _ held => held) supply
  have recorded : store.Recorded resources stamped := initial.afterCalls calls
  have reachable : store.Reachable :=
    (Reachable.loaded resourceType endpoint baseUrl resources supply).afterCalls calls
  exact ⟨recorded, recorded.nodup, recorded.pairwise_version_ne reachable.keyed,
    fun _ _ _ _ _ succeeds => serve_rewritten succeeds⟩

end MemoryStore

end Scim
