import Scim.Proofs.Bulk.Calls
import Scim.Proofs.Service.Presenting
import Scim.Proofs.Store.Interleaving
import Scim.Store.Pool

/-!
# Writes of a service over a memory store

A service over a memory store either writes and presents what it wrote or leaves the
store as it was.  Under the standard schemas nothing can fail behind the write.
-/

namespace Scim

open Members MemoryStore

/-! ## Services on a part of the state -/

namespace Service

variable {σ τ : Type}

theorem create_zoom (slot : Slot τ σ) (service : Service σ) (resource : Json) :
    (service.zoom slot).create resource = (service.create resource).zoom slot := by
  simp only [create, Action.zoom_bind, Action.zoom_ofExcept]
  rfl

theorem replace_zoom (slot : Slot τ σ) (service : Service σ) (id resource version : Json) :
    (service.zoom slot).replace id resource version =
      (service.replace id resource version).zoom slot := by
  simp only [replace, Action.zoom_bind, Action.zoom_ofExcept]
  rfl

theorem patch_zoom (slot : Slot τ σ) (service : Service σ) (id request version : Json) :
    (service.zoom slot).patch id request version =
      (service.patch id request version).zoom slot := by
  simp only [patch, beginChange, finishChange, Action.zoom_bind, Action.zoom_ofExcept,
    Action.zoom_pure, replace_zoom]
  rfl

end Service

/-- A call on a part of the state is the call there. -/
theorem WriteCall.on_zoom {σ τ : Type} (slot : Slot τ σ) (service : Service σ) (call : WriteCall) :
    call.on (service.zoom slot) = (call.on service).zoom slot := by
  cases call with
  | create resource => exact Service.create_zoom slot service resource
  | replace id resource version => exact Service.replace_zoom slot service id resource version
  | patch id request version => exact Service.patch_zoom slot service id request version
  | delete id version =>
      simp only [WriteCall.on, Service.delete, Action.zoom_bind, Action.zoom_pure]
      rfl

/-! ## Writes of the store -/

namespace MemoryStore

theorem attr_id_signed (store : MemoryStore) (now : String) (id created : Json)
    (resource : Members) : attr (store.signed now id created resource) "id" = id := by
  have differ : sameName "meta" "id" = false := by decide
  rw [attr, signed, attr?_congr (spellings_setAttr_of_differ _ differ _), attr?_setAttr_self,
    Option.getD_some]

/-- A creation fails and leaves the store as it was, or it puts a resource under an id
that nothing had. -/
inductive Created (store : MemoryStore) : Except Failure Json → MemoryStore → Prop where
  | failed (failure : Failure) : Created store (.error failure) store
  | put (id : Json) (stored : Members) (key : id.isKey = true) (notNull : id.isNull = false)
      (free : store.find? id = none) (named : attr stored "id" = id) :
      Created store (.ok (.obj stored)) (store.stamped.put id stored)

theorem insert_created (resource : Json) {id : Json} (notNull : id.isNull = false)
    (supply : Supply) (store : MemoryStore) :
    Created store ((insert false resource id).run (supply, store)).1
      ((insert false resource id).run (supply, store)).2.2 := by
  rw [insert, Action.run_bind, Action.run_examine]
  dsimp only
  cases checked : store.checkFree id with
  | error failure => exact .failed failure
  | ok _ =>
      obtain ⟨key, free⟩ := (checkFree_eq_ok_iff store id).mp checked
      dsimp only
      rw [Action.run_bind, Action.run_ofExcept]
      cases resource with
      | obj members =>
          exact .put id _ key notNull free (attr_id_signed store supply.readClock.1 id .null members)
      | _ => exact .failed _

theorem create_created (resource : Json) (supply : Supply) (store : MemoryStore) :
    Created store ((create false resource).run (supply, store)).1
      ((create false resource).run (supply, store)).2.2 := by
  rw [create_eq, Action.run_bind, Action.run_ofExcept]
  cases stated : resource.attrOf "id" with
  | error failure => exact .failed failure
  | ok id =>
      dsimp only
      split
      · have notNull : (Json.str supply.takeId.1).isNull = false := rfl
        exact insert_created resource notNull supply.takeId.2 store
      · next given =>
          have notNull : id.isNull = false := by
            cases id with
            | null => exact absurd rfl given
            | _ => rfl
          exact insert_created resource notNull supply store

/-- An overwriting fails and leaves the store as it was, or it returns what it wrote. -/
inductive Overwritten (store : MemoryStore) : Except Failure Json → MemoryStore → Prop where
  | failed (failure : Failure) : Overwritten store (.error failure) store
  | put (stored : Members) (after : MemoryStore) (changed : after ≠ store) :
      Overwritten store (.ok (.obj stored)) after

theorem replace_overwritten (id resource version : Json) (supply : Supply) (store : MemoryStore) :
    Overwritten store ((adapter.replace id resource version).run (supply, store)).1
      ((adapter.replace id resource version).run (supply, store)).2.2 := by
  have served := serve_served (.replace id resource version) supply store
  simp only [StoreCall.serve, StoreCall.action] at served
  generalize (adapter.replace id resource version).run (supply, store) = ran at served ⊢
  obtain ⟨outcome, after, store'⟩ := ran
  dsimp only at served ⊢
  cases served with
  | failed => exact .failed _
  | replaced => exact .put _ _ (put_stamped_ne store id _)

end MemoryStore

/-! ## Writes of a service -/

namespace Service

/-- A service of users or of groups over a memory store. -/
structure Standard (service : Service MemoryState) : Prop where
  adapter : service.adapter = MemoryStore.adapter
  schema : service.schema = some .user ∨ service.schema = some .group

variable {service : Service MemoryState}

/-- Under the standard schemas every resource can be presented, with its id. -/
theorem Standard.present_obj (standard : service.Standard) (members : Members) :
    ∃ shown, service.present (.obj members) = .ok (.obj shown) ∧
      attr shown "id" = attr members "id" := by
  have schema : IsStandard service.schema := standard.schema
  refine ⟨without members (hiddenNames service.schema), schema.project_eq members, ?_⟩
  rw [attr, attr?_congr (schema.spellings_id members), attr]

/-- What a call comes to.  A call that fails leaves the store as it was, one that creates
a resource puts it under an id that nothing had, and any other one changes the store. -/
inductive Wrote (store : MemoryStore) : WriteCall → Except Failure Json → MemoryStore → Prop where
  | failed (call : WriteCall) (failure : Failure) : Wrote store call (.error failure) store
  | created (data id : Json) (stored shown : Members) (key : id.isKey = true)
      (notNull : id.isNull = false) (free : store.find? id = none)
      (named : attr shown "id" = id) :
      Wrote store (.create data) (.ok (.obj shown)) (store.stamped.put id stored)
  | replaced (id data version : Json) (shown : Members) (after : MemoryStore)
      (changed : after ≠ store) : Wrote store (.replace id data version) (.ok (.obj shown)) after
  | patched (id data version : Json) (shown : Members) (after : MemoryStore)
      (changed : after ≠ store) : Wrote store (.patch id data version) (.ok (.obj shown)) after
  | removed (id version : Json) (after : MemoryStore) (changed : after ≠ store) :
      Wrote store (.delete id version) (.ok .null) after

theorem Standard.create_wrote (standard : service.Standard) (data : Json) (supply : Supply)
    (store : MemoryStore) :
    Wrote store (.create data) ((service.create data).run (supply, store)).1
      ((service.create data).run (supply, store)).2.2 := by
  rw [create, Action.run_bind, Action.run_ofExcept]
  cases service.prepare data with
  | error failure => exact .failed _ failure
  | ok prepared =>
      dsimp only
      have created : Created store ((MemoryStore.adapter.create prepared).run (supply, store)).1
          ((MemoryStore.adapter.create prepared).run (supply, store)).2.2 :=
        create_created prepared supply store
      rw [standard.adapter, Action.run_bind]
      generalize (MemoryStore.adapter.create prepared).run (supply, store) = ran at created ⊢
      obtain ⟨outcome, after, store'⟩ := ran
      dsimp only at created ⊢
      cases created with
      | failed failure => exact .failed _ failure
      | put id stored key notNull free named =>
          obtain ⟨shown, presented, shownId⟩ := standard.present_obj stored
          simp only [presented]
          exact .created data id stored shown key notNull free (shownId.trans named)

/-- Writing over a resource fails and leaves the store as it was, or it presents what it
wrote. -/
theorem Standard.replace_overwritten (standard : service.Standard) (id data version : Json)
    (supply : Supply) (store : MemoryStore) :
    Overwritten store ((service.replace id data version).run (supply, store)).1
      ((service.replace id data version).run (supply, store)).2.2 := by
  rw [replace, Action.run_bind, Action.run_ofExcept]
  cases service.prepare data with
  | error failure => exact .failed failure
  | ok prepared =>
      dsimp only
      have written := MemoryStore.replace_overwritten id prepared version supply store
      rw [standard.adapter, Action.run_bind]
      generalize (MemoryStore.adapter.replace id prepared version).run (supply, store) = ran
        at written ⊢
      obtain ⟨outcome, after, store'⟩ := ran
      dsimp only at written ⊢
      cases written with
      | failed failure => exact .failed failure
      | put stored _ changed =>
          obtain ⟨shown, presented, _⟩ := standard.present_obj stored
          simp only [presented]
          exact .put shown store' changed

/-- The first step of a change only reads. -/
theorem Standard.beginChange_state (standard : service.Standard) (id request version : Json)
    (supply : Supply) (store : MemoryStore) :
    ((service.beginChange id request version).run (supply, store)).2 = (supply, store) := by
  simp only [beginChange, Action.run_bind, Action.run_ofExcept, standard.adapter]
  cases PatchEntry.ofRequest request with
  | error failure => rfl
  | ok entries =>
      dsimp only
      rw [run_read]
      cases store.fetch id <;> rfl

theorem Standard.patch_overwritten (standard : service.Standard) (id request version : Json)
    (supply : Supply) (store : MemoryStore) :
    Overwritten store ((service.patch id request version).run (supply, store)).1
      ((service.patch id request version).run (supply, store)).2.2 := by
  have kept := standard.beginChange_state id request version supply store
  rw [patch, Action.run_bind]
  generalize (service.beginChange id request version).run (supply, store) = ran at kept ⊢
  obtain ⟨outcome, after⟩ := ran
  subst kept
  cases outcome with
  | error failure => exact .failed failure
  | ok change =>
      simp only [finishChange, Action.run_bind, Action.run_ofExcept]
      cases change.expected with
      | error failure => exact .failed failure
      | ok expected =>
          cases change.changed service.schema with
          | error failure => exact .failed failure
          | ok changed => exact standard.replace_overwritten change.id changed expected supply store

theorem Standard.delete_wrote (standard : service.Standard) (id version : Json) (supply : Supply)
    (store : MemoryStore) :
    Wrote store (.delete id version)
      (((WriteCall.delete id version).on service).run (supply, store)).1
      (((WriteCall.delete id version).on service).run (supply, store)).2.2 := by
  have served := serve_served (.delete id version) supply store
  simp only [StoreCall.serve, StoreCall.action, Action.run_bind] at served
  simp only [WriteCall.on, delete, standard.adapter, Action.run_bind]
  generalize (MemoryStore.adapter.delete id version).run (supply, store) = ran at served ⊢
  obtain ⟨_ | _, after, store'⟩ := ran
  · dsimp only at served ⊢
    cases served with
    | failed => exact .failed _ _
  · dsimp only at served ⊢
    cases served with
    | deleted _ _ current key found => exact .removed id version _ (erase_ne key found)

theorem Standard.wrote (standard : service.Standard) (call : WriteCall) (supply : Supply)
    (store : MemoryStore) :
    Wrote store call ((call.on service).run (supply, store)).1
      ((call.on service).run (supply, store)).2.2 := by
  cases call with
  | create data => exact standard.create_wrote data supply store
  | replace id data version =>
      have written := standard.replace_overwritten id data version supply store
      rw [WriteCall.on]
      generalize (service.replace id data version).run (supply, store) = ran at written ⊢
      obtain ⟨outcome, after, store'⟩ := ran
      cases written with
      | failed failure => exact .failed _ failure
      | put shown _ changed => exact .replaced id data version shown store' changed
  | patch id request version =>
      have written := standard.patch_overwritten id request version supply store
      rw [WriteCall.on]
      generalize (service.patch id request version).run (supply, store) = ran at written ⊢
      obtain ⟨outcome, after, store'⟩ := ran
      cases written with
      | failed failure => exact .failed _ failure
      | put shown _ changed => exact .patched id request version shown store' changed
  | delete id version => exact standard.delete_wrote id version supply store

variable {ι : Type} [DecidableEq ι]

/-- A service of users or of groups over a memory store of a pool. -/
structure InPool (service : Service (Pool ι)) (i : ι) : Prop where
  adapter : service.adapter = MemoryStore.adapter.zoom (Pool.memory i)
  schema : service.schema = some .user ∨ service.schema = some .group

/-- A service over a store of a pool acts as one over the store alone. -/
theorem InPool.exists_alone {service : Service (Pool ι)} {i : ι} (inPool : service.InPool i) :
    ∃ alone : Service MemoryState, alone.Standard ∧ alone.options = service.options ∧
      service = alone.zoom (Pool.memory i) := by
  refine ⟨{ service with adapter := MemoryStore.adapter }, ⟨rfl, inPool.schema⟩, rfl, ?_⟩
  obtain ⟨adapter, schema, endpoint, options⟩ := service
  cases inPool.adapter
  rfl

/-- What a call comes to in a pool: it writes in one store and leaves the others as they
were. -/
theorem InPool.wrote {service : Service (Pool ι)} {i : ι} (inPool : service.InPool i)
    (call : WriteCall) (pool : Pool ι) :
    ∃ after, Wrote (pool.store i) call ((call.on service).run pool).1 after ∧
      ((call.on service).run pool).2.store = Pool.updated pool.store i after := by
  obtain ⟨alone, standard, _, zoomed⟩ := inPool.exists_alone
  rw [zoomed, WriteCall.on_zoom, Action.run_zoom]
  exact ⟨_, standard.wrote call pool.supply (pool.store i), rfl⟩

end Service

end Scim
