import Scim.Proofs.Service.Writing

/-!
# The ids of a memory store

However a store came about, its ids differ from one another, and a resource that is kept
under a text has that text as its id, which is not empty.  Adapters are built from
resources that are loaded and then serve calls, so this is shown by induction over both.
-/

namespace Scim

/-- A value is the same as a text only if it is that text. -/
theorem Json.same_str_iff (value : Json) (text : String) :
    value.same (.str text) = true ↔ value = .str text := by
  cases value with
  | str s => simp [Json.same]
  | _ => simp [Json.same, Json.num?]

theorem Json.str_same_iff (text : String) (value : Json) :
    (Json.str text).same value = true ↔ value = .str text := by
  cases value with
  | str s => simp [Json.same, eq_comm (a := text)]
  | _ => simp [Json.same, Json.num?]

namespace MemoryStore

open Members

/-! ## Ids after writes and removals -/

theorem ids_putEntry (id : Json) (resource : Members) (entries : List (Json × Members)) :
    (putEntry id resource entries).map (·.1) =
      if entries.any (·.1.same id) then entries.map (·.1) else entries.map (·.1) ++ [id] := by
  induction entries with
  | nil => rfl
  | cons entry rest ih =>
      obtain ⟨key, stored⟩ := entry
      rw [putEntry]
      cases taken : key.same id with
      | true => simp [taken]
      | false =>
          rw [if_neg Bool.false_ne_true, List.map_cons, ih]
          simp only [List.any_cons, taken, Bool.false_or, List.map_cons, List.cons_append]
          split <;> rfl

/-- An entry after a write is an old one or holds what was written. -/
theorem mem_putEntry {id : Json} {resource : Members} {entries : List (Json × Members)}
    {entry : Json × Members} (held : entry ∈ putEntry id resource entries) :
    entry ∈ entries ∨ entry = (id, resource) ∨ entry.1.same id = true ∧ entry.2 = resource := by
  induction entries with
  | nil => exact .inr (.inl (List.mem_singleton.mp held))
  | cons first rest ih =>
      obtain ⟨key, stored⟩ := first
      rw [putEntry] at held
      split at held
      · next taken =>
        cases List.mem_cons.mp held with
        | inl same => exact .inr (.inr (same ▸ ⟨taken, rfl⟩))
        | inr later => exact .inl (List.mem_cons_of_mem _ later)
      · cases List.mem_cons.mp held with
        | inl same => exact .inl (same ▸ List.mem_cons_self)
        | inr later => exact (ih later).imp_left (List.mem_cons_of_mem _)

theorem ids_put (store : MemoryStore) (id : Json) (resource : Members) :
    (store.put id resource).ids =
      if store.ids.any (·.same id) then store.ids else store.ids ++ [id] := by
  rw [ids, put, ids_putEntry, ids, List.any_map]
  rfl

theorem ids_erase (store : MemoryStore) (id : Json) :
    (store.erase id).ids = store.ids.filter (!·.same id) := by
  rw [ids, erase, ids, List.filter_map]
  rfl

@[simp] theorem ids_stamped (store : MemoryStore) : store.stamped.ids = store.ids := rfl

/-- A text is an id of a store exactly if something is found under it. -/
theorem mem_ids_iff (store : MemoryStore) (text : String) :
    .str text ∈ store.ids ↔ ∃ stored, store.find? (.str text) = some stored := by
  have found : (store.find? (.str text)).isSome = true ↔ .str text ∈ store.ids := by
    simp [find?, ids, Json.same_str_iff]
  rw [← found, Option.isSome_iff_exists]

/-! ## Stores with proper ids -/

/-- A store whose ids differ from one another, and whose texts are the ids of the resources that
are kept under them. -/
structure Keyed (store : MemoryStore) : Prop where
  distinct : store.ids.Pairwise fun a b => a.same b = false
  isKey : ∀ id ∈ store.ids, id.isKey = true
  own : ∀ text stored, (.str text, stored) ∈ store.entries →
    text ≠ "" ∧ attr stored "id" = .str text

theorem keyed_empty (resourceType : String) (endpoint : Option String) (baseUrl : String) :
    (empty resourceType endpoint baseUrl).Keyed := ⟨List.Pairwise.nil, nofun, nofun⟩

namespace Keyed

variable {store : MemoryStore} (keyed : store.Keyed)
include keyed

theorem stamped : store.stamped.Keyed := ⟨keyed.distinct, keyed.isKey, keyed.own⟩

theorem put {id : Json} (key : id.isKey = true) {resource : Members}
    (named : ∀ text, id = .str text → text ≠ "" ∧ attr resource "id" = .str text) :
    (store.put id resource).Keyed where
  distinct := by
    rw [ids_put]
    split
    · exact keyed.distinct
    · next free =>
      rw [List.pairwise_append]
      refine ⟨keyed.distinct, List.pairwise_singleton .., fun a held b last => ?_⟩
      cases List.mem_singleton.mp last
      exact Bool.eq_false_of_not_eq_true fun same => free (List.any_eq_true.mpr ⟨a, held, same⟩)
  isKey := by
    rw [ids_put]
    split
    · exact keyed.isKey
    · rw [List.forall_mem_append]
      exact ⟨keyed.isKey, List.forall_mem_singleton.mpr key⟩
  own text stored held := by
    rcases mem_putEntry held with old | new | ⟨same, rfl⟩
    · exact keyed.own text stored old
    · cases new
      exact named text rfl
    · -- numbers may be the same under another spelling, but a text is the same as itself only
      exact named text ((Json.str_same_iff text id).mp same)

theorem erase (id : Json) : (store.erase id).Keyed where
  distinct := by
    rw [ids_erase]
    exact keyed.distinct.filter _
  isKey other held := by
    rw [ids_erase] at held
    exact keyed.isKey other (List.mem_of_mem_filter held)
  own text stored held := keyed.own text stored (List.mem_of_mem_filter held)

/-- What stands under a text is found under it. -/
theorem find?_of_mem {text : String} {stored : Members}
    (held : (.str text, stored) ∈ store.entries) : store.find? (.str text) = some stored := by
  have distinct := keyed.distinct
  rw [ids] at distinct
  rw [find?]
  generalize store.entries = entries at held distinct
  induction entries with
  | nil => cases held
  | cons entry rest ih =>
      rw [List.map_cons, List.pairwise_cons] at distinct
      cases List.mem_cons.mp held with
      | inl same =>
          subst same
          simp [Json.same_str_iff]
      | inr later =>
          have other : entry.1.same (.str text) = false :=
            distinct.1 _ (List.mem_map_of_mem (f := Prod.fst) later)
          rw [List.find?_cons_of_neg (by simp [other])]
          exact ih later distinct.2

omit keyed in
/-- What is found under a text stands under it. -/
theorem mem_of_find? {text : String} {stored : Members}
    (found : store.find? (.str text) = some stored) : (.str text, stored) ∈ store.entries := by
  obtain ⟨⟨key, _⟩, entry, rfl⟩ := Option.map_eq_some_iff.mp found
  have same := List.find?_some entry
  obtain rfl := (Json.same_str_iff key text).mp same
  exact List.mem_of_find?_eq_some entry

theorem own_of_find? {text : String} {stored : Members}
    (found : store.find? (.str text) = some stored) :
    text ≠ "" ∧ attr stored "id" = .str text := keyed.own text stored (mem_of_find? found)

end Keyed

/-! ## Stores of adapters -/

theorem idText_ne_empty (n : Nat) : Supply.idText n ≠ "" := by
  simp [Supply.idText, String.intercalate_cons_cons]

/-- A creation keeps the ids proper: the id that is stated or fresh is written into the
resource. -/
theorem Keyed.insert {store : MemoryStore} (keyed : store.Keyed) (keepMeta : Bool)
    (resource : Json) {id : Json} (given : id.isVoid = false) (supply : Supply) :
    ((insert keepMeta resource id).run (supply, store)).2.2.Keyed := by
  have nonempty (text : String) (same : id = .str text) : text ≠ "" := by
    rintro rfl
    subst same
    cases given
  rw [MemoryStore.insert, Action.run_bind, Action.run_examine]
  dsimp only
  cases checked : store.checkFree id with
  | error failure => exact keyed
  | ok _ =>
      obtain ⟨key, _⟩ := (checkFree_eq_ok_iff store id).mp checked
      dsimp only
      rw [Action.run_bind, Action.run_ofExcept]
      cases resource with
      | obj members =>
          simp only [Json.asResource]
          split
          · refine keyed.put key fun text same => ⟨nonempty text same, ?_⟩
            rw [attr_setAttr_self, same]
          · refine keyed.stamped.put key fun text same => ⟨nonempty text same, ?_⟩
            rw [← same]
            exact attr_id_signed store supply.readClock.1 id .null members
      | _ => exact keyed

theorem Keyed.create {store : MemoryStore} (keyed : store.Keyed) (keepMeta : Bool)
    (resource : Json) (supply : Supply) :
    ((create keepMeta resource).run (supply, store)).2.2.Keyed := by
  rw [create_eq, Action.run_bind, Action.run_ofExcept]
  cases resource.attrOf "id" with
  | error failure => exact keyed
  | ok stated =>
      dsimp only
      cases void : stated.isVoid with
      | true =>
          have fresh : (Json.str supply.takeId.1).isVoid = false := by
            simpa [Json.isVoid, Supply.takeId] using idText_ne_empty supply.nextId
          exact keyed.insert keepMeta resource fresh supply.takeId.2
      | false => exact keyed.insert keepMeta resource void supply

/-- Loading keeps the ids proper. -/
theorem Keyed.load {store : MemoryStore} (keyed : store.Keyed) (resources : List Json)
    (supply : Supply) : ((load resources).run (supply, store)).2.2.Keyed := by
  induction resources generalizing store supply with
  | nil => exact keyed
  | cons resource rest ih =>
      have created := keyed.create true resource supply
      rw [MemoryStore.load, Action.run_bind]
      generalize (MemoryStore.create true resource).run (supply, store) = ran at created
      obtain ⟨outcome, after⟩ := ran
      cases outcome with
      | error failure => exact created
      | ok _ => exact ih created after.1

/-- Serving a call keeps the ids proper. -/
theorem Keyed.serve {store : MemoryStore} (keyed : store.Keyed) (call : StoreCall)
    (supply : Supply) : (call.serve supply store).2.Keyed := by
  have served := serve_served call supply store
  cases call with
  | create resource => exact keyed.create false resource supply
  | read id =>
      generalize ((StoreCall.read id).serve supply store).1 = outcome,
        ((StoreCall.read id).serve supply store).2 = after at served ⊢
      cases served <;> exact keyed
  | replace id resource version =>
      generalize ((StoreCall.replace id resource version).serve supply store).1 = outcome,
        ((StoreCall.replace id resource version).serve supply store).2 = after at served ⊢
      cases served with
      | failed => exact keyed
      | replaced _ _ members current key found =>
          refine keyed.stamped.put key fun text same => ?_
          subst same
          exact ⟨(keyed.own_of_find? found).1, attr_id_signed ..⟩
  | delete id version =>
      generalize ((StoreCall.delete id version).serve supply store).1 = outcome,
        ((StoreCall.delete id version).serve supply store).2 = after at served ⊢
      cases served with
      | failed => exact keyed
      | deleted => exact keyed.erase id

/-- The stores that adapters have: resources are loaded into an empty one, and calls are served
in any order and at any times. -/
inductive Reachable : MemoryStore → Prop where
  | loaded (resourceType : String) (endpoint : Option String) (baseUrl : String)
      (resources : List Json) (supply : Supply) :
      Reachable ((load resources).run (supply, empty resourceType endpoint baseUrl)).2.2
  | served {store : MemoryStore} (reachable : Reachable store) (call : StoreCall)
      (supply : Supply) : Reachable (call.serve supply store).2

theorem Reachable.keyed {store : MemoryStore} (reachable : store.Reachable) : store.Keyed := by
  induction reachable with
  | loaded resourceType endpoint baseUrl resources supply =>
      exact (keyed_empty resourceType endpoint baseUrl).load resources supply
  | served _ call supply ih => exact ih.serve call supply

theorem Reachable.afterCalls {store : MemoryStore} (reachable : store.Reachable)
    (calls : List (Supply × StoreCall)) : (store.afterCalls calls).Reachable := by
  induction calls generalizing store with
  | nil => exact reachable
  | cons request calls ih => exact ih (reachable.served request.2 request.1)

/-! ## Stores whose ids are texts -/

/-- A store with proper ids holds exactly some resources, each under a text. -/
structure Holds (store : MemoryStore) (items : List (String × Members)) : Prop where
  keyed : store.Keyed
  entries : store.entries = items.map fun item => (.str item.1, item.2)

/-- A store with proper ids that are all texts holds resources under texts. -/
theorem Keyed.exists_holds {store : MemoryStore} (keyed : store.Keyed)
    (texts : ∀ id ∈ store.ids, id.isStr = true) : ∃ items, store.Holds items := by
  have isText : ∀ entry ∈ store.entries, entry.1.isStr = true :=
    fun entry held => texts entry.1 (List.mem_map_of_mem held)
  suffices found : ∃ items : List (String × Members),
      store.entries = items.map fun item => (.str item.1, item.2) from
    found.imp fun items entries => ⟨keyed, entries⟩
  clear texts keyed
  generalize store.entries = entries at isText
  induction entries with
  | nil => exact ⟨[], rfl⟩
  | cons entry rest ih =>
      obtain ⟨isStr, later⟩ := List.forall_mem_cons.mp isText
      obtain ⟨items, rfl⟩ := ih later
      obtain ⟨key, stored⟩ := entry
      cases key with
      | str text => exact ⟨(text, stored) :: items, rfl⟩
      | _ => cases isStr

namespace Holds

variable {store : MemoryStore} {items : List (String × Members)} (holds : store.Holds items)
include holds

theorem mem_entries {item : String × Members} (held : item ∈ items) :
    (.str item.1, item.2) ∈ store.entries := by
  rw [holds.entries]
  exact List.mem_map_of_mem (f := fun item : String × Members => (Json.str item.1, item.2)) held

theorem find?_of_mem {item : String × Members} (held : item ∈ items) :
    store.find? (.str item.1) = some item.2 := holds.keyed.find?_of_mem (holds.mem_entries held)

theorem nodup : (items.map (·.1)).Nodup := by
  have distinct := holds.keyed.distinct
  rw [ids, holds.entries, List.map_map, List.pairwise_map] at distinct
  rw [List.Nodup, List.pairwise_map]
  refine distinct.imp fun differ same => ?_
  simp [Json.same, same] at differ

theorem nonempty : ∀ item ∈ items, item.1 ≠ "" :=
  fun _ held => (holds.keyed.own _ _ (holds.mem_entries held)).1

theorem named : ∀ item ∈ items, attr? item.2 "id" = some (.str item.1) := by
  intro item held
  have own := (holds.keyed.own _ _ (holds.mem_entries held)).2
  rw [attr] at own
  cases found : attr? item.2 "id" with
  | none =>
      rw [found] at own
      cases own
  | some value =>
      rw [found, Option.getD_some] at own
      rw [own]

theorem ids_eq : store.ids = (items.map (·.1)).map .str := by
  rw [ids, holds.entries, List.map_map, List.map_map]
  rfl

theorem length_ids : store.ids.length = items.length := by
  rw [holds.ids_eq, List.length_map, List.length_map]

theorem resources_eq : store.resources = items.map fun item => .obj item.2 := by
  rw [resources, holds.entries, List.map_map]
  rfl

theorem mem_ids_iff (text : String) : .str text ∈ store.ids ↔ text ∈ items.map (·.1) := by
  rw [holds.ids_eq]
  simp

end Holds

end MemoryStore

end Scim
