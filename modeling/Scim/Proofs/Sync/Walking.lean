import Scim.Proofs.Failures
import Scim.Proofs.Query.PushDown
import Scim.Store.Memory
import Scim.Sync.Walk

/-!
# Walking through pages

A page of a walk over the resources of an adapter that lists them as they are is cut out of
the answer to the whole query.  Whatever the pages are, a walk fails and maintains
invariants as its pages and visits do.
-/

namespace Scim

variable {σ τ : Type}

/-! ## Adapters that list what they store -/

/-- Whether an adapter answers every query with all that it stores. -/
def Adapter.Lists (adapter : Adapter σ) (stored : σ → List Json) : Prop :=
  ∀ spec state, (adapter.list spec).run state = (.ok { resources := stored state }, state)

theorem MemoryStore.lists :
    MemoryStore.adapter.Lists fun state : MemoryState => state.2.resources := fun _ _ => rfl

theorem Adapter.Lists.zoom {adapter : Adapter σ} {stored : σ → List Json}
    (lists : adapter.Lists stored) (slot : Slot τ σ) :
    (adapter.zoom slot).Lists fun state => stored (slot.get state) := by
  intro spec state
  change ((adapter.list spec).zoom slot).run state = _
  rw [Action.run_zoom, lists, slot.set_get]

/-! ## One page -/

/-- The number of resources on a full page if pages of a size are asked for. -/
def Service.pageSize (service : Service σ) (size : Int) : Int :=
  match service.options.maxResults with
  | none => size
  | some limit => if limit < size then limit else size

theorem Service.capped_eq (service : Service σ) (spec : QuerySpec) (start size : Int) :
    service.capped { spec with startIndex := start, count := some size } =
      { spec with startIndex := start, count := some (service.pageSize size) } := by
  unfold capped pageSize
  cases service.options.maxResults with
  | none => rfl
  | some limit =>
      dsimp only
      split <;> rfl

/-- A query for all that it matches, on one page. -/
def QuerySpec.unpaged (spec : QuerySpec) : QuerySpec := { spec with startIndex := 1, count := none }

/-- What is asked of all resources in a walk: to show some attributes of them. -/
structure QuerySpec.OnlyShows (spec : QuerySpec) : Prop where
  noFilter : spec.filter = none
  noSort : spec.sortBy = none

/-- A query is answered with the resources that it matches, as they are shown. -/
theorem answer_eq_ok_iff {adapter : Adapter σ} {stored : σ → List Json}
    (lists : adapter.Lists stored) {spec : QuerySpec} {schema : Option ResourceSchema}
    {state after : σ} {result : QueryResult} :
    (query adapter spec schema).run state = (.ok result, after) ↔
      state = after ∧ ∃ matching shown,
        ({ resources := stored state } : Listing).matching spec schema = .ok matching ∧
          spec.present schema (spec.page matching) = .ok shown ∧
            result = ⟨shown, .count matching.length, spec.startIndex, shown.length⟩ := by
  have whole : ({ resources := stored state } : Listing).paginated = false := rfl
  rw [query, Action.run_bind_ok (lists spec state), Action.run_ofExcept, Prod.mk.injEq,
    Listing.complete_of_not_paginated whole, bind_eq_ok_iff, and_comm]
  refine and_congr_right fun _ => exists_congr fun matching => ?_
  rw [Listing.finish, exists_and_left]
  refine and_congr_right fun _ => ?_
  rw [if_neg Bool.false_ne_true, bind_eq_ok_iff]
  refine exists_congr fun shown => and_congr_right fun _ => ?_
  exact Iff.trans (iff_of_eq (Except.ok.injEq _ _)) eq_comm

/-- What only shows attributes is answered with those of all resources. -/
theorem QuerySpec.OnlyShows.answered {service : Service σ} {stored : σ → List Json}
    (lists : service.adapter.Lists stored) {spec : QuerySpec} (onlyShows : spec.OnlyShows)
    {state : σ} {items : List Json}
    (shown : spec.present service.schema (stored state) = .ok items) :
    (query service.adapter spec.unpaged service.schema).run state =
      (.ok ⟨items, .count items.length, 1, items.length⟩, state) := by
  refine (answer_eq_ok_iff lists).mpr ⟨rfl, stored state, items, ?_, shown, ?_⟩
  · simp only [Listing.matching, Listing.filterStage, Listing.sortStage, unpaged,
      onlyShows.noFilter, onlyShows.noSort]
    rfl
  · rw [(mapM_eq_ok_iff.mp shown).length_eq]
    rfl

namespace Walk

/-- A page of a query is cut out of the answer to the whole query: it has the items behind its
first index, up to its size. -/
theorem page_run {service : Service σ} {stored : σ → List Json}
    (lists : service.adapter.Lists stored) {spec : QuerySpec} {state : σ} {whole : QueryResult}
    (answered : (query service.adapter spec.unpaged service.schema).run state = (.ok whole, state))
    (size : Int) (start : Nat) :
    ∃ result, (page service spec size (start + 1)).run state = (.ok result, state) ∧
      result.resources = (whole.resources.drop start).take (service.pageSize size).toNat ∧
      result.total = .count whole.resources.length := by
  obtain ⟨-, matching, shown, found, presented, rfl⟩ := (answer_eq_ok_iff lists).mp answered
  let asked : QuerySpec :=
    { spec with startIndex := start + 1, count := some (service.pageSize size) }
  have cut (items : List Json) : asked.page items =
      (items.drop start).take (service.pageSize size).toNat := by
    have offset : (max 1 ((start : Int) + 1) - 1).toNat = start := by omega
    simp only [QuerySpec.page, paginate, asked, offset]
  have shownWhole : asked.present service.schema matching = .ok shown := presented
  have count : matching.length = shown.length := (mapM_eq_ok_iff.mp shownWhole).length_eq
  refine ⟨⟨asked.page shown, .count matching.length, start + 1, (asked.page shown).length⟩, ?_,
    cut shown, congrArg (fun n : Nat => Total.count n) count⟩
  rw [page, Service.list, Service.capped_eq]
  exact (answer_eq_ok_iff lists).mpr
    ⟨rfl, matching, asked.page shown, found, QuerySpec.present_page shownWhole, rfl⟩

/-! ## Any pages -/

variable {service : Service σ} {spec : QuerySpec} {visit : List Json → Action σ Unit} {size : Int}

/-- A walk fails as its pages and visits do, if it does not run out of its budget. -/
theorem failsOnly_pages {P : Failure → Prop} (faults : ∀ failure, failure.IsFault → P failure)
    (pageFails : ∀ start, (page service spec size start).FailsOnly P)
    (visitFails : ∀ part, (visit part).FailsOnly P) (budget : Nat) :
    (pages service spec size visit budget).FailsOnly P := by
  have walk (start : Int) : (fromIndex service spec size visit budget start).FailsOnly P := by
    induction budget generalizing start with
    | zero => exact .ofExcept (.error (faults _ ⟨_, rfl⟩))
    | succ budget ih =>
        apply Action.FailsOnly.bind (pageFails start)
        intro _ result _ _
        split
        · exact .pure ()
        · apply Action.FailsOnly.bind (visitFails result.resources)
          intro _ _ _ _
          dsimp only
          split
          · exact .pure ()
          · exact ih _
  unfold pages
  split
  · apply Action.FailsOnly.bind (.ofExcept (.error (faults _ ⟨_, rfl⟩)))
    exact fun _ _ _ _ => walk 1
  · exact walk 1

/-- A walk maintains what its pages and visits do. -/
theorem maintains_pages {invariant : σ → Prop}
    (pageKeeps : ∀ start, Action.Maintains invariant (page service spec size start))
    (visitKeeps : ∀ part, Action.Maintains invariant (visit part)) (budget : Nat) :
    Action.Maintains invariant (pages service spec size visit budget) := by
  have walk (start : Int) :
      Action.Maintains invariant (fromIndex service spec size visit budget start) := by
    induction budget generalizing start with
    | zero => exact .ofExcept nofun
    | succ budget ih =>
        apply Action.Maintains.bind (pageKeeps start)
        intro result _
        split
        · exact .pure trivial
        · apply Action.Maintains.bind (visitKeeps result.resources)
          intro _ _
          dsimp only
          split
          · exact .pure trivial
          · exact ih _
  unfold pages
  split
  · apply Action.Maintains.bind (P := fun _ => True) (.ofExcept nofun)
    exact fun _ _ => walk 1
  · exact walk 1

end Walk

end Scim
