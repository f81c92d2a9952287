import Scim.Proofs.Resource.Primaries
import Scim.Proofs.Sync.Orphans

/-!
# Copies to a watched store

A memory store is watched: beside it stands a list of notes, and whenever it is called to create
a resource under an id that it holds already, the id is noted.  Copying a resource to such a
store either notes a clash and is refused, or it leaves the notes as they are.
-/

namespace Scim

open Members

/-- What is no object has no attribute with a value. -/
theorem Json.exists_obj_of_attrOf {value result : Json} {name : String}
    (found : value.attrOf name = .ok result) (given : result.isVoid = false) :
    ∃ members, value = .obj members := by
  have missing (equal : (Except.ok .null : Except Failure Json) = .ok result) : False := by
    cases equal
    cases given
  unfold attrOf at found
  split at found
  · exact ⟨_, rfl⟩
  · split at found
    · cases found
    · split at found
      · exact (missing found).elim
      · cases found
      · cases found
  · split at found
    · cases found
    · exact (missing found).elim
  · cases found

/-- The id that a resource states, if it can be copied under it. -/
def statedId? (resource : Json) : Option Json :=
  match resource.attrOf "id" with
  | .ok id => if id.isVoid || !id.isKey then none else some id
  | .error _ => none

theorem statedId?_eq_some_iff {resource id : Json} :
    statedId? resource = some id ↔
      resource.attrOf "id" = .ok id ∧ id.isVoid = false ∧ id.isKey = true := by
  unfold statedId?
  cases resource.attrOf "id" with
  | error failure => simp
  | ok stated =>
      simp only [Except.ok.injEq]
      constructor
      · intro found
        split at found
        · cases found
        · next usable =>
          cases found
          simpa using usable
      · rintro ⟨rfl, given, key⟩
        simp [given, key]

namespace MemoryStore

/-- The id that a resource states, if a store holds a resource under it. -/
def clash (store : MemoryStore) (resource : Json) : List Json :=
  (statedId? resource).toList.filter fun id => (store.find? id).isSome

/-- A memory store with notes beside it: an id is noted whenever a resource is to be created under
it although the store holds one already. -/
def watched : Adapter (MemoryState × List Json) :=
  { adapter.zoom .first with
    create := fun resource => do
      modify fun (state, notes) => (state, notes ++ state.2.clash resource)
      (adapter.create resource).zoom .first }

theorem clash_of_stated {store : MemoryStore} {resource id : Json}
    (stated : statedId? resource = some id) :
    store.clash resource = if (store.find? id).isSome then [id] else [] := by
  rw [clash, stated, Option.toList_some, List.filter_singleton]
  cases (store.find? id).isSome <;> rfl

/-- A resource is not created under an id that is taken. -/
theorem create_refused {store : MemoryStore} {resource id : Json}
    (stated : statedId? resource = some id) {current : Members}
    (held : store.find? id = some current) (supply : Supply) :
    (adapter.create resource).run (supply, store) =
      (.error (.scim (.conflict ("Resource with ID " ++ id.plain ++ " already exists"))),
        (supply, store)) := by
  obtain ⟨own, given, key⟩ := statedId?_eq_some_iff.mp stated
  have checked : store.checkFree id =
      refuse (.conflict ("Resource with ID " ++ id.plain ++ " already exists")) := by
    rw [checkFree, lookup_of_isKey store key, held]
    rfl
  change (create false resource).run (supply, store) = _
  rw [create_eq, own, Action.run_bind, Action.run_ofExcept]
  dsimp only
  rw [given, if_neg Bool.false_ne_true, Action.run_bind, Action.run_pure]
  dsimp only
  rw [MemoryStore.insert, Action.run_bind, Action.run_examine]
  dsimp only
  rw [checked]
  rfl

end MemoryStore

namespace Reconciliation

variable {σ : Type}

/-- A resource that states an id is written as an object with the id. -/
theorem prepare_payload {resource id : Json} (stated : statedId? resource = some id)
    (target : Service σ) :
    ∃ members, target.prepare (payload resource) = .ok (.obj members) ∧ attr members "id" = id := by
  obtain ⟨own, given, key⟩ := statedId?_eq_some_iff.mp stated
  have notNull : id.isNull = false := by
    cases id with
    | null => cases given
    | _ => rfl
  have noList : id.isArr = false := by
    cases id with
    | arr items => cases key
    | _ => rfl
  obtain ⟨original, rfl⟩ := Json.exists_obj_of_attrOf own given
  have named : attr (delAttr original "meta") "id" = id := by
    rw [attr, attr?_congr (spellings_delAttr original (by decide)), ← attr]
    exact Except.ok.inj own
  have written : payload (.obj original) = .obj (delAttr original "meta") := rfl
  rw [written]
  unfold Service.prepare
  cases target.options.ensureSinglePrimary with
  | false => exact ⟨_, rfl, named⟩
  | true => exact ⟨_, rfl, attr_singlePrimary named notNull noList⟩

/-- What comes of copying one resource to a watched store: what is noted, whether the copy succeeds,
and what is in the store and in the report then. -/
inductive Step (before : IdSet) (resource : Json) (store : MemoryStore)
    (report : ReconciliationReport) :
    List Json → Except Failure Unit → MemoryStore → ReconciliationReport → Prop where
  | failed (failure : Failure) (after : MemoryStore) (noConflict : ¬ failure.IsConflict)
      (free : ∀ id, statedId? resource = some id → before.has id = false → store.find? id = none) :
      Step before resource store report [] (.error failure) after report
  | clashed (id : Json) (failure : Failure) (stated : statedId? resource = some id)
      (new : before.has id = false) (held : store.find? id ≠ none) :
      Step before resource store report [id] (.error failure) store report
  | skipped (unstated : statedId? resource = none) :
      Step before resource store report [] (.ok ()) store
        { report with skipped := report.skipped + 1 }
  | replaced (id : Json) (stored : Members) (stated : statedId? resource = some id)
      (known : before.has id = true) :
      Step before resource store report [] (.ok ()) (store.stamped.put id stored)
        { report with updated := report.updated ++ [id] }
  | created (id : Json) (stored : Members) (stated : statedId? resource = some id)
      (new : before.has id = false) (free : store.find? id = none) :
      Step before resource store report [] (.ok ()) (store.stamped.put id stored)
        { report with created := report.created ++ [id] }

/-- A service over a memory store that is watched. -/
def watching (schema : Option ResourceSchema) (endpoint : Option String)
    (options : ServiceOptions) : Service (MemoryState × List Json) :=
  .of MemoryStore.watched schema endpoint options

section

variable (schema : Option ResourceSchema) (endpoint : Option String) (options : ServiceOptions)

theorem watching_create (resource : Json) (state : MemoryState) (notes : List Json) :
    (MemoryStore.watched.create resource).run (state, notes) =
      (((MemoryStore.adapter.create resource).run state).1,
        ((MemoryStore.adapter.create resource).run state).2,
          notes ++ state.2.clash resource) := rfl

/-! Only creations are watched. -/

theorem watching_replace (id resource version : Json) :
    (watching schema endpoint options).replace id resource version =
      ((plain schema endpoint options).replace id resource version).zoom .first := by
  rw [← Service.replace_zoom]
  rfl

theorem watching_list (spec : QuerySpec) :
    (watching schema endpoint options).list spec =
      ((plain schema endpoint options).zoom .first).list spec := rfl

theorem allIds_watching (size : Int) (budget : Nat) :
    allIds (watching schema endpoint options) size budget =
      (allIds (plain schema endpoint options) size budget).zoom .first := by
  rw [← allIds_zoom, allIds_eq, allIds_eq]
  congr 1
  apply Walk.pages_congr
  intro spec
  rw [Service.list_zoom, Service.list_zoom, watching_list]

theorem deleteOrphans_watching (before : IdSet) :
    deleteOrphans (watching schema endpoint options) before =
      (deleteOrphans (plain schema endpoint options) before).zoom
        (Slot.first.beside ReconciliationReport) := by
  have same (ids : List Json) : deleteAll (watching schema endpoint options) ids =
      deleteAll ((plain schema endpoint options).zoom .first) ids := by
    induction ids with
    | nil => rfl
    | cons id rest ih =>
        rw [deleteAll, deleteAll, ih]
        rfl
  rw [← deleteOrphans_zoom, deleteOrphans, deleteOrphans]
  simp only [same]

/-! Watching changes nothing but the notes. -/

theorem shows_copy (before : IdSet) (resource : Json) :
    Action.Shows (Prod.map Prod.fst id) (copy (watching schema endpoint options) before resource)
      (copy (plain schema endpoint options) before resource) := by
  have created : Action.Shows Prod.fst
      ((watching schema endpoint options).create (payload resource))
      ((plain schema endpoint options).create (payload resource)) := by
    apply Action.Shows.bind (.ofExcept _)
    intro prepared
    apply Action.Shows.bind
    · exact fun _ => rfl
    · exact fun _ => .ofExcept _
  apply Action.Shows.bind (.ofExcept _)
  intro id
  apply Action.Shows.ite
  · exact .modify_second fun report : ReconciliationReport =>
      { report with skipped := report.skipped + 1 }
  apply Action.Shows.ite (.ofExcept _)
  apply Action.Shows.ite
  · rw [watching_replace]
    apply Action.Shows.bind (.beside (.zoom_first _))
    intro _
    exact .modify_second fun report : ReconciliationReport =>
      { report with updated := report.updated ++ [id] }
  · apply Action.Shows.bind (.beside created)
    intro _
    exact .modify_second fun report : ReconciliationReport =>
      { report with created := report.created ++ [id] }

theorem shows_copyAll (before : IdSet) (resources : List Json) :
    Action.Shows (Prod.map Prod.fst id)
      (copyAll (watching schema endpoint options) before resources)
      (copyAll (plain schema endpoint options) before resources) := by
  induction resources with
  | nil => exact .pure ()
  | cons resource rest ih =>
      exact .bind (shows_copy schema endpoint options before resource) fun _ => ih

theorem shows_settle (size : Int) (orphans : Bool) (budget : Nat) (resources : List Json)
    (outcome : Except Failure Unit) :
    Action.Shows Prod.fst
      (settle (watching schema endpoint options) size orphans budget resources outcome)
      (settle (plain schema endpoint options) size orphans budget resources outcome) := by
  rw [settle, settle, allIds_watching]
  apply Action.Shows.bind (.zoom_first _)
  intro before
  apply Action.Shows.yielding
  apply Action.Shows.bind
  · exact .bind (shows_copyAll schema endpoint options before resources) fun _ => .ofExcept outcome
  · intro _
    apply Action.Shows.ite
    · rw [deleteOrphans_watching]
      exact fun _ => rfl
    · exact .pure ()

variable {resource id : Json} (store : MemoryStore)

/-- Creating a resource notes a clash and is refused, or it puts the resource under its id. -/
theorem create_watched (stated : statedId? resource = some id) (supply : Supply)
    (notes : List Json) :
    (store.find? id ≠ none ∧ ∃ failure,
      ((watching schema endpoint options).create (payload resource)).run ((supply, store), notes) =
        (.error failure, ((supply, store), notes ++ [id]))) ∨
    (store.find? id = none ∧ ∃ outcome after stored, FailsOnly Failure.IsFault outcome ∧
      ((watching schema endpoint options).create (payload resource)).run ((supply, store), notes) =
        (outcome, ((after, store.stamped.put id stored), notes))) := by
  obtain ⟨members, prepared, named⟩ := prepare_payload stated (watching schema endpoint options)
  obtain ⟨own, given, key⟩ := statedId?_eq_some_iff.mp stated
  have restated : statedId? (.obj members) = some id :=
    statedId?_eq_some_iff.mpr ⟨congrArg Except.ok named, given, key⟩
  have called := watching_create (.obj members) (supply, store) notes
  rw [MemoryStore.clash_of_stated restated] at called
  rw [Service.create, Action.run_bind, Action.run_ofExcept, prepared]
  dsimp only
  cases found : store.find? id with
  | some current =>
      left
      rw [MemoryStore.create_refused restated found, found] at called
      exact ⟨Option.some_ne_none current, _, Action.run_bind_error called _⟩
  | none =>
      right
      obtain ⟨result, after, now, created, ran⟩ :=
        MemoryStore.puts_create named key given found supply
      rw [ran, found] at called
      refine ⟨rfl, (watching schema endpoint options).present (.obj result), after,
        store.signed now id created members, Service.failsOnly_present _ result, ?_⟩
      refine (Action.run_bind_ok called _).trans ?_
      rw [Option.isSome_none, if_neg Bool.false_ne_true, List.append_nil]
      rfl

/-- Overwriting a resource puts one under the id, if it succeeds. -/
theorem replace_watched (id resource : Json) (supply : Supply) (notes : List Json) :
    ∃ outcome after last, FailsOnly (¬ ·.IsConflict) outcome ∧
      (∀ result, outcome = .ok result → ∃ stored, last = store.stamped.put id stored) ∧
      ((watching schema endpoint options).replace id resource).run ((supply, store), notes) =
        (outcome, ((after, last), notes)) := by
  let target := plain schema endpoint options
  rw [watching_replace, Action.run_zoom_first, Service.replace, Action.run_bind,
    Action.run_ofExcept]
  cases prepared : target.prepare resource with
  | error failure =>
      refine ⟨_, supply, store,
        .error ((Service.failsOnly_prepare target resource).noConflict _ prepared), ?_, rfl⟩
      intro _ succeeded
      cases succeeded
  | ok written =>
      have served := MemoryStore.serve_served (.replace id written .null) supply store
      have calm := MemoryStore.failsOnly_replace id written .null (supply, store)
      simp only [StoreCall.serve, StoreCall.action] at served
      rcases ran : (MemoryStore.adapter.replace id written .null).run (supply, store) with
        ⟨failure | result, after, last⟩
      · rw [ran] at calm
        have called := Action.run_bind_error ran fun replaced =>
          Action.ofExcept (target.present replaced)
        refine ⟨_, after, last, calm, ?_, congrArg (fun r => (r.1, r.2, notes)) called⟩
        intro _ succeeded
        cases succeeded
      · rw [ran] at served
        cases served with
        | replaced _ _ members current key found meets =>
            have called := Action.run_bind_ok ran fun replaced =>
              Action.ofExcept (target.present replaced)
            exact ⟨_, after, _, (Service.failsOnly_present target _).noConflict, fun _ _ => ⟨_, rfl⟩,
              congrArg (fun r => (r.1, r.2, notes)) called⟩

theorem copy_step_of_stated (stated : statedId? resource = some id) (before : IdSet)
    (supply : Supply) (notes : List Json) (report : ReconciliationReport) :
    ∃ outcome after last more reported, Step before resource store report more outcome last reported ∧
      (copy (watching schema endpoint options) before resource).run
        (((supply, store), notes), report) =
        (outcome, (((after, last), notes ++ more), reported)) := by
  obtain ⟨own, void, key⟩ := statedId?_eq_some_iff.mp stated
  rw [copy, Action.run_bind, Action.run_ofExcept, own]
  dsimp only
  rw [void, key, if_neg Bool.false_ne_true, Bool.not_true, if_neg Bool.false_ne_true]
  cases known : before.has id with
  | true =>
      obtain ⟨outcome, after, last, calm, puts, ran⟩ := replace_watched schema endpoint
        options store id (payload resource) supply notes
      rw [if_pos rfl, Action.run_bind, Action.run_zoom_first, ran]
      cases outcome with
      | error failure =>
          refine ⟨.error failure, after, last, [], report,
            .failed failure last (calm failure rfl) ?_, ?_⟩
          · intro other restated new
            rw [stated] at restated
            cases restated
            rw [known] at new
            cases new
          · rw [List.append_nil]
      | ok result =>
          obtain ⟨stored, rfl⟩ := puts result rfl
          refine ⟨.ok (), after, _, [], _, .replaced id stored stated known, ?_⟩
          rw [List.append_nil]
          rfl
  | false =>
      rw [if_neg Bool.false_ne_true, Action.run_bind, Action.run_zoom_first]
      obtain ⟨held, failure, ran⟩ | ⟨free, outcome, after, stored, faults, ran⟩ :=
        create_watched schema endpoint options store stated supply notes
      · rw [ran]
        exact ⟨.error failure, supply, store, [id], report,
          .clashed id failure stated known held, rfl⟩
      · rw [ran]
        cases outcome with
        | error failure =>
            refine ⟨.error failure, after, store.stamped.put id stored, [], report,
              .failed failure _ (faults.noConflict failure rfl) ?_, ?_⟩
            · intro other restated _
              rw [stated] at restated
              cases restated
              exact free
            · rw [List.append_nil]
        | ok result =>
            refine ⟨.ok (), after, _, [], _, .created id stored stated known free, ?_⟩
            rw [List.append_nil]
            rfl

/-- Copying a resource to a watched store comes to a step. -/
theorem copy_step (before : IdSet) (resource : Json) (supply : Supply) (notes : List Json)
    (report : ReconciliationReport) :
    ∃ outcome after last more reported, Step before resource store report more outcome last reported ∧
      (copy (watching schema endpoint options) before resource).run
        (((supply, store), notes), report) =
        (outcome, (((after, last), notes ++ more), reported)) := by
  cases stated : statedId? resource with
  | some id => exact copy_step_of_stated schema endpoint options store stated ..
  | none =>
      have failed (failure : Failure) (noConflict : ¬ failure.IsConflict) :
          Step before resource store report [] (.error failure) store report := by
        refine .failed failure store noConflict ?_
        rw [stated]
        nofun
      rw [copy, Action.run_bind, Action.run_ofExcept]
      cases own : resource.attrOf "id" with
      | error failure =>
          have noConflict := (Json.failsOnly_attrOf resource "id").noConflict failure own
          refine ⟨_, supply, store, [], report, failed failure noConflict, ?_⟩
          rw [List.append_nil]
      | ok id =>
          rw [statedId?, own] at stated
          dsimp only at stated ⊢
          cases void : id.isVoid with
          | true =>
              refine ⟨.ok (), supply, store, [], _, .skipped ?_, ?_⟩
              · rw [statedId?, own]
                exact stated
              · rw [List.append_nil]
                rfl
          | false =>
              cases key : id.isKey with
              | false =>
                  have noConflict := Failure.IsFault.not_isConflict ⟨.wrongType, rfl⟩
                  refine ⟨_, supply, store, [], report, failed _ noConflict, ?_⟩
                  rw [List.append_nil]
                  rfl
              | true =>
                  rw [void, key] at stated
                  cases stated

end

end Reconciliation

end Scim
