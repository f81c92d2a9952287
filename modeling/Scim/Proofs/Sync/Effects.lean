import Scim.Proofs.Store.Keys
import Scim.Sync.Reconciliation

/-!
# Copies and removals

A reconciliation writes each resource of the source under its own id into the target.  The
store of the target then has a copy under each of these ids, which differs from the
resource in its `meta` attribute only, and what it had under other ids is untouched.
Removing ids one after the other leaves all others alone as well.
-/

namespace Scim

open Members MemoryStore

/-! ## Writes of a service that succeed -/

namespace MemoryStore

variable {store : MemoryStore} {id : Json} {payload : Members}

/-- An action stamps a resource and puts it under an id, and results in a resource. -/
def Puts (supply : Supply) (store : MemoryStore) (id : Json) (payload : Members)
    (action : Action MemoryState Json) : Prop :=
  ∃ result after now created, action.run (supply, store) =
    (.ok (.obj result), (after, store.stamped.put id (store.signed now id created payload)))

theorem puts_create (stated : attr payload "id" = id) (key : id.isKey = true)
    (given : id.isVoid = false) (free : store.find? id = none) (supply : Supply) :
    Puts supply store id payload (adapter.create (.obj payload)) := by
  refine ⟨store.signed supply.readClock.1 id .null payload, supply.readClock.2,
    supply.readClock.1, .null, ?_⟩
  have checked : store.checkFree id = .ok () := (checkFree_eq_ok_iff store id).mpr ⟨key, free⟩
  change (create false (.obj payload)).run (supply, store) = _
  rw [create_eq, Json.attrOf, stated, Action.run_bind, Action.run_ofExcept]
  dsimp only
  rw [given, if_neg Bool.false_ne_true, Action.run_bind, Action.run_pure]
  dsimp only
  rw [MemoryStore.insert, Action.run_bind, Action.run_examine]
  dsimp only
  rw [checked]
  rfl

theorem puts_replace {current : Members} (key : id.isKey = true)
    (found : store.find? id = some current) (payload : Members) (supply : Supply) :
    Puts supply store id payload (adapter.replace id (.obj payload) .null) := by
  have fetched : store.fetchVersion id .null = .ok current :=
    (fetchVersion_eq_ok_iff ..).mpr ⟨⟨key, found⟩, .inl rfl⟩
  have served := serve_replace_ok fetched payload supply
  simp only [StoreCall.serve, StoreCall.action] at served
  rcases ran : (adapter.replace id (.obj payload) .null).run (supply, store) with ⟨outcome, after⟩
  rw [ran, Prod.mk.injEq] at served
  obtain ⟨rfl, stored⟩ := served
  exact ⟨_, after.1, _, _, ran.trans (Prod.ext rfl (Prod.ext rfl stored))⟩

theorem run_delete {current : Members} (key : id.isKey = true)
    (found : store.find? id = some current) (supply : Supply) :
    (adapter.delete id .null).run (supply, store) = (.ok (), (supply, store.erase id)) := by
  have fetched : store.fetchVersion id .null = .ok current :=
    (fetchVersion_eq_ok_iff ..).mpr ⟨⟨key, found⟩, .inl rfl⟩
  change (delete id .null).run (supply, store) = _
  rw [delete, Action.run_bind, Action.run_examine]
  dsimp only
  rw [fetched]
  rfl

end MemoryStore

namespace Service

variable {service : Service MemoryState} {supply : Supply} {store : MemoryStore} {id : Json}
  {payload : Members}

theorem Standard.puts_create (standard : service.Standard)
    (lenient : service.options.ensureSinglePrimary = false) (stated : attr payload "id" = id)
    (key : id.isKey = true) (given : id.isVoid = false) (free : store.find? id = none)
    (supply : Supply) : Puts supply store id payload (service.create (.obj payload)) := by
  obtain ⟨result, after, now, created, ran⟩ :=
    MemoryStore.puts_create stated key given free supply
  obtain ⟨shown, presented, _⟩ := standard.present_obj result
  refine ⟨shown, after, now, created, ?_⟩
  rw [create, prepare, lenient, standard.adapter, Action.run_bind]
  simp only [Bool.false_eq_true, if_false, Action.run_ofExcept]
  rw [Action.run_bind_ok ran, Action.run_ofExcept, presented]

theorem Standard.puts_replace (standard : service.Standard)
    (lenient : service.options.ensureSinglePrimary = false) {current : Members}
    (key : id.isKey = true) (found : store.find? id = some current) (payload : Members)
    (supply : Supply) : Puts supply store id payload (service.replace id (.obj payload)) := by
  obtain ⟨result, after, now, created, ran⟩ := MemoryStore.puts_replace key found payload supply
  obtain ⟨shown, presented, _⟩ := standard.present_obj result
  refine ⟨shown, after, now, created, ?_⟩
  rw [replace, prepare, lenient, standard.adapter, Action.run_bind]
  simp only [Bool.false_eq_true, if_false, Action.run_ofExcept]
  rw [Action.run_bind_ok ran, Action.run_ofExcept, presented]

end Service

/-! ## Copies -/

/-- Whether one resource is as another one but for its `meta` attribute, which comes last. -/
def IsCopy (original copy : Members) : Prop :=
  ∃ info, copy = delAttr original "meta" ++ [("meta", info)]

theorem isCopy_signed {original : Members} {id : Json} (distinct : Distinct original)
    (named : attr? original "id" = some id) (store : MemoryStore) (now : String) (created : Json) :
    IsCopy original (store.signed now id created (delAttr original "meta")) := by
  have kept : attr? (delAttr original "meta") "id" = some id := by
    rw [attr?_congr (spellings_delAttr original (by decide)), named]
  rw [signed, setAttr_of_attr? kept, (distinct.lacks_delAttr "meta").setAttr_eq]
  exact ⟨_, rfl⟩

namespace IsCopy

variable {original copy : Members} (isCopy : IsCopy original copy)
include isCopy

/-- Apart from `meta`, a copy is equal to the original. -/
theorem delAttr_meta (distinct : Distinct original) :
    delAttr copy "meta" = delAttr original "meta" := by
  obtain ⟨info, rfl⟩ := isCopy
  exact (distinct.lacks_delAttr "meta").delAttr_append info

/-- What is not there in the original is not there in a copy. -/
theorem lacks {name : String} (lacks : Lacks original name)
    (differ : sameName "meta" name = false) : Lacks copy name := by
  obtain ⟨info, rfl⟩ := isCopy
  exact (lacks.of_sublist (delAttr_sublist original "meta")).append differ info

theorem attr_id : attr copy "id" = attr original "id" := by
  obtain ⟨info, rfl⟩ := isCopy
  have differ : sameName "meta" "id" = false := by decide
  have left : spellings (delAttr original "meta" ++ [("meta", info)]) "id" =
      spellings original "id" := by
    rw [← spellings_delAttr original differ, spellings, List.filter_append]
    simp [spellings, differ]
  rw [attr, attr?_congr left, attr]

end IsCopy

/-! ## Stores after copies -/

/-- A text put into a store is one of its ids. -/
theorem mem_ids_put (store : MemoryStore) (text : String) (resource : Members) (id : Json) :
    id ∈ (store.put (.str text) resource).ids ↔ id ∈ store.ids ∨ id = .str text := by
  rw [ids_put]
  split
  · next taken =>
    obtain ⟨key, held, same⟩ := List.any_eq_true.mp taken
    obtain rfl := (Json.same_str_iff key text).mp same
    constructor
    · exact .inl
    · rintro (old | rfl)
      · exact old
      · exact held
  · rw [List.mem_append, List.mem_singleton]

theorem find?_put_text (store : MemoryStore) (text other : String) (resource : Members) :
    (store.put (.str text) resource).find? (.str other) =
      if text = other then some resource else store.find? (.str other) := by
  rw [find?_put store rfl rfl]
  simp [Json.same]

/-- One store comes from another by putting copies of some resources, each under a text, in
turn. -/
inductive Copied : List (String × Members) → MemoryStore → MemoryStore → Prop where
  | nil (store : MemoryStore) : Copied [] store store
  | cons {text : String} {original copy : Members} {rest : List (String × Members)}
      {store after : MemoryStore} (isCopy : IsCopy original copy)
      (later : Copied rest (store.stamped.put (.str text) copy) after) :
      Copied ((text, original) :: rest) store after

namespace Copied

variable {items : List (String × Members)} {store after : MemoryStore}
  (copied : Copied items store after)
include copied

/-- What stood under other texts is untouched. -/
theorem find?_of_absent {text : String} (absent : text ∉ items.map (·.1)) :
    after.find? (.str text) = store.find? (.str text) := by
  induction copied with
  | nil => rfl
  | cons _ _ ih =>
      rw [List.map_cons, List.mem_cons, not_or] at absent
      rw [ih absent.2, find?_put_text, if_neg (Ne.symm absent.1), find?_stamped]

/-- Under each text there is a copy. -/
theorem find?_of_mem (nodup : (items.map (·.1)).Nodup) {text : String} {original : Members}
    (held : (text, original) ∈ items) :
    ∃ copy, after.find? (.str text) = some copy ∧ IsCopy original copy := by
  induction copied with
  | nil => cases held
  | cons isCopy later ih =>
      rw [List.map_cons, List.nodup_cons] at nodup
      cases List.mem_cons.mp held with
      | inl same =>
          cases same
          refine ⟨_, ?_, isCopy⟩
          rw [later.find?_of_absent nodup.1, find?_put_text, if_pos rfl]
      | inr inRest => exact ih nodup.2 inRest

theorem mem_ids (id : Json) :
    id ∈ after.ids ↔ id ∈ store.ids ∨ id ∈ items.map (.str ·.1) := by
  induction copied with
  | nil => simp
  | cons _ _ ih =>
      rw [ih, mem_ids_put, ids_stamped, List.map_cons, List.mem_cons, or_assoc]

theorem length_ids_le : after.ids.length ≤ store.ids.length + items.length := by
  induction copied with
  | nil => simp
  | @cons text _ copy rest store _ _ _ ih =>
      have step : (store.stamped.put (.str text) copy).ids.length ≤ store.ids.length + 1 := by
        rw [ids_put]
        split <;> simp
      rw [List.length_cons]
      omega

theorem keyed (keyed : store.Keyed)
    (named : ∀ item ∈ items, item.1 ≠ "" ∧ attr item.2 "id" = .str item.1) : after.Keyed := by
  induction copied with
  | nil => exact keyed
  | cons isCopy _ ih =>
      obtain ⟨⟨nonempty, own⟩, others⟩ := List.forall_mem_cons.mp named
      refine ih (keyed.stamped.put rfl ?_) others
      rintro _ ⟨⟩
      exact ⟨nonempty, isCopy.attr_id.trans own⟩

end Copied

/-! ## Stores after removals -/

namespace MemoryStore

/-- A store without the resources under some texts. -/
def eraseAll (store : MemoryStore) (texts : List String) : MemoryStore :=
  texts.foldl (fun store text => store.erase (.str text)) store

theorem find?_erase_text (store : MemoryStore) (text other : String) :
    (store.erase (.str text)).find? (.str other) =
      if text = other then none else store.find? (.str other) := by
  rw [find?_erase store rfl rfl]
  simp [Json.same]

variable {store : MemoryStore} {texts : List String}

theorem find?_eraseAll_of_absent {text : String} (absent : text ∉ texts) :
    (store.eraseAll texts).find? (.str text) = store.find? (.str text) := by
  induction texts generalizing store with
  | nil => rfl
  | cons first rest ih =>
      rw [List.mem_cons, not_or] at absent
      rw [eraseAll, List.foldl_cons, ← eraseAll, ih absent.2, find?_erase_text,
        if_neg (Ne.symm absent.1)]

theorem mem_ids_eraseAll (id : Json) :
    id ∈ (store.eraseAll texts).ids ↔ id ∈ store.ids ∧ id ∉ texts.map .str := by
  induction texts generalizing store with
  | nil => simp [eraseAll]
  | cons first rest ih =>
      rw [eraseAll, List.foldl_cons, ← eraseAll, ih, ids_erase, List.mem_filter, List.map_cons,
        List.mem_cons, not_or, and_assoc]
      simp [← Json.same_str_iff]

theorem length_ids_eraseAll_le (store : MemoryStore) (texts : List String) :
    (store.eraseAll texts).ids.length ≤ store.ids.length := by
  induction texts generalizing store with
  | nil => exact le_rfl
  | cons first rest ih =>
      rw [eraseAll, List.foldl_cons, ← eraseAll]
      refine (ih (store.erase (.str first))).trans ?_
      rw [ids_erase]
      exact List.length_filter_le ..

theorem Keyed.eraseAll (keyed : store.Keyed) : (store.eraseAll texts).Keyed := by
  induction texts generalizing store with
  | nil => exact keyed
  | cons first rest ih => exact ih (keyed.erase (.str first))

end MemoryStore

end Scim
