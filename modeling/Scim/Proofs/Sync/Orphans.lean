import Scim.Proofs.Sync.Beside

/-!
# Ids and orphans of a memory store

The ids of a memory store are read off without a change of it, and deleting those that are not in a
report leaves alone what is under the others.  Neither is ever refused with a conflict.
-/

namespace Scim

open MemoryStore

theorem IdSet.has_congr {a b : Json} (left : a.isKey = true) (right : b.isKey = true)
    (same : a.same b = true) (ids : IdSet) : ids.has a = ids.has b := by
  simp only [IdSet.has, Json.containedIn, Json.same_congr_of_isKey left right same]

theorem IdSet.failsOnly_sorted (ids : IdSet) : FailsOnly Failure.IsFault ids.sorted := by
  unfold sorted
  split
  · exact .ok _
  · exact .failWith _

namespace Reconciliation

/-- A service over a memory store. -/
def plain (schema : Option ResourceSchema) (endpoint : Option String) (options : ServiceOptions) :
    Service MemoryState :=
  .of MemoryStore.adapter schema endpoint options

variable (schema : Option ResourceSchema) (endpoint : Option String) (options : ServiceOptions)

/-- A removal that succeeds removes what is under the id. -/
theorem delete_eq_ok {id : Json} {state after : MemoryState}
    (deleted : (MemoryStore.adapter.delete id .null).run state = (.ok (), after)) :
    id.isKey = true ∧ after.2 = state.2.erase id := by
  obtain ⟨supply, last⟩ := after
  have served := serve_served (.delete id .null) state.1 state.2
  simp only [StoreCall.serve, StoreCall.action, Action.run_bind, deleted, Action.run_pure] at served
  cases served with
  | deleted _ _ current key => exact ⟨key, rfl⟩

/-- Deleting some resources leaves alone what is under other ids. -/
theorem deleteAll_keeps {ids : List Json} {state after : MemoryState}
    {report reported : ReconciliationReport} {id : Json} (key : id.isKey = true)
    (others : ∀ other ∈ ids, other.same id = false)
    (deleted : (deleteAll (plain schema endpoint options) ids).run (state, report) =
      (.ok (), (after, reported))) : after.2.find? id = state.2.find? id := by
  induction ids generalizing state report with
  | nil =>
      cases deleted
      rfl
  | cons first rest ih =>
      obtain ⟨differs, others⟩ := List.forall_mem_cons.mp others
      rw [deleteAll] at deleted
      obtain ⟨_, ⟨middle, half⟩, firstDeleted, later⟩ := Action.run_bind_eq_ok_iff.mp deleted
      obtain ⟨_, _, noted, later⟩ := Action.run_bind_eq_ok_iff.mp later
      cases noted
      obtain ⟨outcome, afterEq⟩ := Prod.mk.inj firstDeleted
      have ran : (MemoryStore.adapter.delete first .null).run state = (.ok (), middle) :=
        Prod.ext outcome (congrArg Prod.fst afterEq)
      obtain ⟨firstKey, erased⟩ := delete_eq_ok ran
      rw [ih others later, erased, find?_erase _ firstKey key, differs, if_neg Bool.false_ne_true]

/-- Orphans are deleted, and what has landed is none. -/
theorem deleteOrphans_keeps {before : IdSet} {state after : MemoryState}
    {report reported : ReconciliationReport} {id : Json} (key : id.isKey = true)
    (noted : IdSet.has (report.created ++ report.updated) id = true)
    (deleted : (deleteOrphans (plain schema endpoint options) before).run (state, report) =
      (.ok (), (after, reported))) : after.2.find? id = state.2.find? id := by
  rw [deleteOrphans, Action.run_bind, Action.run_get] at deleted
  obtain ⟨orphans, _, sorted, deleted⟩ := Action.run_bind_eq_ok_iff.mp deleted
  obtain ⟨sorted, rfl⟩ := Prod.mk.inj sorted
  apply deleteAll_keeps schema endpoint options key _ deleted
  intro other orphan
  have member : other ∈ before.without (report.created ++ report.updated) := by
    unfold IdSet.sorted at sorted
    split at sorted
    · cases sorted
      exact List.mem_mergeSort.mp orphan
    · cases sorted
  have missing : IdSet.has (report.created ++ report.updated) other = false := by
    simpa using (List.mem_filter.mp member).2
  apply Bool.eq_false_of_not_eq_true
  intro same
  rw [IdSet.has_congr (Json.isKey_of_same key same) key same, noted] at missing
  cases missing

theorem failsOnly_deleteAll (ids : List Json) :
    (deleteAll (plain schema endpoint options) ids).FailsOnly (¬ ·.IsConflict) := by
  induction ids with
  | nil => exact .pure ()
  | cons first rest ih =>
      apply Action.FailsOnly.bind
      · exact .zoom (failsOnly_delete first .null) .first
      · intro _ _ _ _
        apply Action.FailsOnly.bind
        · exact .of_ok fun _ => ⟨_, rfl⟩
        · exact fun _ _ _ _ => ih

theorem failsOnly_deleteOrphans (before : IdSet) :
    (deleteOrphans (plain schema endpoint options) before).FailsOnly (¬ ·.IsConflict) := by
  apply Action.FailsOnly.bind
  · exact .of_ok fun _ => ⟨_, rfl⟩
  · rintro _ ⟨_, report⟩ _ _
    apply Action.FailsOnly.bind (.ofExcept (IdSet.failsOnly_sorted _).noConflict)
    exact fun _ orphans _ _ => failsOnly_deleteAll schema endpoint options orphans

/-! The ids of the target are read off without a change of it. -/

omit schema endpoint options in
theorem failsOnly_insertAll (ids : IdSet) (resources : List Json) :
    Scim.FailsOnly Failure.IsFault (ids.insertAll resources) := by
  induction resources generalizing ids with
  | nil => exact .ok ids
  | cons resource rest ih =>
      apply FailsOnly.bind (Json.failsOnly_attrOf resource "id")
      intro id _
      split
      · exact ih ids
      · apply FailsOnly.bind
        · unfold IdSet.insert
          split
          · exact .failWith _
          · split <;> exact .ok _
        · exact fun more _ => ih more

theorem failsOnly_complete (store : MemoryStore) (start : Int) (count : Option Int) :
    Scim.FailsOnly Failure.IsFault (({ resources := store.resources } : Listing).complete
      { attributes := ["id"], startIndex := start, count } schema) := by
  have paged : ({ resources := store.resources } : Listing).pageStage
      { attributes := ["id"], startIndex := start, count } schema =
        .ok (paginate store.resources start count, .count store.resources.length) := rfl
  rw [Listing.complete, paged]
  change FailsOnly _ ((paginate store.resources start count).mapM
    (·.project ["id"] [] schema) >>= _)
  apply FailsOnly.bind
  · apply FailsOnly.mapM
    intro resource held
    have stored : resource ∈ store.resources := by
      unfold paginate at held
      cases count with
      | none => exact List.mem_of_mem_drop held
      | some count => exact List.mem_of_mem_drop (List.mem_of_mem_take held)
    obtain ⟨⟨_, members⟩, _, rfl⟩ := List.mem_map.mp stored
    exact failsOnly_project members (.inr rfl) schema
  · exact fun _ _ => .ok _

/-- A page of the ids of a target is a view of its store. -/
theorem page_plain (size start : Int) (state : MemoryState × IdSet) :
    ∃ count, (Walk.page ((plain schema endpoint options).zoom .first) { attributes := ["id"] } size
      start).run state =
        (({ resources := state.1.2.resources } : Listing).complete
          { attributes := ["id"], startIndex := start, count } schema, state) := by
  refine ⟨some ((plain schema endpoint options).pageSize size), ?_⟩
  rw [Walk.page, Service.list_zoom, Service.list, Service.capped_eq]
  rfl

theorem failsOnly_allIds (size : Int) (budget : Nat) :
    (allIds (plain schema endpoint options) size budget).FailsOnly (¬ ·.IsConflict) := by
  rw [allIds_eq]
  apply Action.FailsOnly.yielding
  apply Walk.failsOnly_pages (fun _ => Failure.IsFault.not_isConflict)
  · intro start state
    obtain ⟨count, ran⟩ := page_plain schema endpoint options size start state
    rw [ran]
    exact (failsOnly_complete schema state.1.2 start count).noConflict
  · rintro part ⟨state, ids⟩
    rw [collect_run]
    have inserted := (failsOnly_insertAll ids part).noConflict
    generalize ids.insertAll part = outcome at inserted
    cases outcome with
    | ok more => exact .ok ()
    | error failure => exact .error (inserted failure rfl)

theorem allIds_keeps {size : Int} {budget : Nat} {state after : MemoryState} {before : IdSet}
    (read : (allIds (plain schema endpoint options) size budget).run state = (.ok before, after)) :
    after = state := by
  have walks : Action.Maintains (fun seen : MemoryState × IdSet => seen.1 = state)
      (Walk.pages ((plain schema endpoint options).zoom .first) { attributes := ["id"] } size
        collect budget) := by
    apply Walk.maintains_pages
    · intro start seen result after ran kept
      obtain ⟨count, same⟩ := page_plain schema endpoint options size start seen
      rw [ran] at same
      exact ⟨(congrArg Prod.fst (Prod.mk.inj same).2).trans kept, trivial⟩
    · intro part seen _ after ran kept
      exact ⟨(collect_state ran).trans kept, trivial⟩
  rw [allIds_eq] at read
  exact (walks _ _ _ (Action.yielding_eq_ok_iff.mp read) rfl).1

end Reconciliation

end Scim
