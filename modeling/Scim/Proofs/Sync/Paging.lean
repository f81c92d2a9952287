import Scim.Proofs.Sync.Walking

/-!
# Walking through pages that do not change

A walk hands over the answer to a query in pages.  Put together they are the answer that
the query has on one page, and they are as long as the page that is asked for or the cap
of the service allows.  What is done with a page may fail, which ends the walk, but it must
leave the listed resources alone.  A walk over all resources then succeeds where one visit
of all of them does, with the same state.
-/

namespace Scim

/-! ## Lists in pages -/

/-- Whether pages are cut out of a list in a size: none is empty or longer, and all but the last
are full. -/
structure Paged {α : Type} (size : Int) (pages : List (List α)) : Prop where
  nonempty : ∀ page ∈ pages, page ≠ []
  bounded : ∀ page ∈ pages, page.length ≤ size
  full : ∀ page ∈ pages.dropLast, page.length = size

namespace Paged

variable {α : Type} {size : Int} {page : List α} {rest : List (List α)}

theorem nil : Paged size ([] : List (List α)) := ⟨nofun, nofun, nofun⟩

theorem cons_iff :
    Paged size (page :: rest) ↔
      page ≠ [] ∧ page.length ≤ size ∧ (rest ≠ [] → page.length = size) ∧ Paged size rest := by
  cases rest with
  | nil =>
      constructor
      · intro paged
        exact ⟨paged.nonempty page List.mem_cons_self, paged.bounded page List.mem_cons_self,
          fun more => absurd rfl more, nil⟩
      · rintro ⟨nonempty, bounded, -, -⟩
        exact ⟨List.forall_mem_singleton.mpr nonempty, List.forall_mem_singleton.mpr bounded, nofun⟩
  | cons next others =>
      have last : (page :: next :: others).dropLast = page :: (next :: others).dropLast := rfl
      constructor
      · rintro ⟨nonempty, bounded, full⟩
        rw [last] at full
        rw [List.forall_mem_cons] at nonempty bounded full
        exact ⟨nonempty.1, bounded.1, fun _ => full.1, nonempty.2, bounded.2, full.2⟩
      · rintro ⟨nonempty, bounded, full, paged⟩
        refine ⟨List.forall_mem_cons.mpr ⟨nonempty, paged.nonempty⟩,
          List.forall_mem_cons.mpr ⟨bounded, paged.bounded⟩, ?_⟩
        rw [last]
        exact List.forall_mem_cons.mpr ⟨full (List.cons_ne_nil next others), paged.full⟩

/-- The first page is what is taken in its size. -/
theorem take_flatten (paged : Paged size (page :: rest)) :
    (page :: rest).flatten.take size.toNat = page := by
  obtain ⟨-, bounded, full, -⟩ := cons_iff.mp paged
  rw [List.flatten_cons]
  cases rest with
  | nil => rw [List.flatten_nil, List.append_nil, List.take_of_length_le (by omega)]
  | cons next others =>
      have length := full (List.cons_ne_nil next others)
      exact List.take_left' (by omega)

theorem length_le {pages : List (List α)} (paged : Paged size pages) :
    pages.length ≤ pages.flatten.length := by
  induction pages with
  | nil => exact Nat.le_refl 0
  | cons page rest ih =>
      obtain ⟨nonempty, -, -, pagedRest⟩ := cons_iff.mp paged
      have progress : 0 < page.length := List.length_pos_of_ne_nil nonempty
      have later := ih pagedRest
      rw [List.length_cons, List.flatten_cons, List.length_append]
      omega

/-- Every list can be cut into pages. -/
theorem exists_pages (positive : 1 ≤ size) :
    ∀ items : List α, ∃ pages : List (List α), pages.flatten = items ∧ Paged size pages
  | [] => ⟨[], rfl, nil⟩
  | item :: items => by
      obtain ⟨pages, whole, paged⟩ := exists_pages positive (items.drop (size.toNat - 1))
      refine ⟨(item :: items.take (size.toNat - 1)) :: pages, ?_, cons_iff.mpr
        ⟨List.cons_ne_nil _ _, ?_, fun more => ?_, paged⟩⟩
      · rw [List.flatten_cons, whole, List.cons_append, List.take_append_drop]
      · rw [List.length_cons, List.length_take]
        omega
      · have behind : items.drop (size.toNat - 1) ≠ [] := by
          rintro nothing
          rw [nothing, List.flatten_eq_nil_iff] at whole
          obtain ⟨next, held⟩ := List.exists_mem_of_ne_nil pages more
          exact paged.nonempty next held (whole next held)
        have longer : size.toNat - 1 < items.length := by
          simpa using behind
        rw [List.length_cons, List.length_take]
        omega
termination_by items => items.length
decreasing_by rw [List.length_drop, List.length_cons]; omega

end Paged

/-! ## Pages that are visited -/

variable {σ : Type}

/-- A page that is asked for is as long as the cap of the service allows. -/
theorem Service.pageSize_eq (service : Service σ) (size : Int) :
    service.pageSize size = service.options.maxResults.elim size (min size) := by
  unfold pageSize
  cases service.options.maxResults with
  | none => rfl
  | some limit =>
      dsimp only [Option.elim_some]
      split <;> omega

theorem Service.one_le_pageSize {service : Service σ} {size : Int} (positive : 1 ≤ size)
    (limit : ∀ limit, service.options.maxResults = some limit → 1 ≤ limit) :
    1 ≤ service.pageSize size := by
  rw [pageSize_eq]
  cases given : service.options.maxResults with
  | none => exact positive
  | some most => exact Int.le_min.mpr ⟨positive, limit most given⟩

namespace Walk

variable {service : Service σ} {stored : σ → List Json} {spec : QuerySpec} {size : Int}
  {visit : List Json → Action σ Unit} {Kept : σ → Prop}

/-- A walk from an index on visits the pages of what is behind it, as long as the visits keep the
answer to the query. -/
theorem fromIndex_eq_forM (lists : service.adapter.Lists stored) {answer : QueryResult}
    (answered : ∀ state, Kept state →
      (query service.adapter spec.unpaged service.schema).run state = (.ok answer, state))
    (keeps : ∀ page state after, Kept state → (visit page).run state = (.ok (), after) →
      Kept after)
    {pages : List (List Json)} (paged : Paged (service.pageSize size) pages) (start : Nat)
    (whole : pages.flatten = answer.resources.drop start) {budget : Nat}
    (enough : max 1 pages.length ≤ budget) {state : σ} (kept : Kept state) :
    (fromIndex service spec size visit budget (start + 1)).run state =
      (forM pages visit).run state := by
  obtain ⟨budget, rfl⟩ := Nat.exists_eq_add_of_le' (Nat.le_trans (Nat.le_max_left _ _) enough)
  induction pages generalizing start budget state with
  | nil =>
      obtain ⟨result, found, listed, -⟩ := page_run lists (answered state kept) size start
      rw [fromIndex, Action.run_bind_ok found, listed, ← whole, List.flatten_nil, List.take_nil]
      rfl
  | cons page rest ih =>
      obtain ⟨result, found, listed, total⟩ := page_run lists (answered state kept) size start
      rw [← whole, paged.take_flatten] at listed
      obtain ⟨nonempty, -, -, pagedRest⟩ := Paged.cons_iff.mp paged
      have behind : rest.flatten = answer.resources.drop (start + page.length) := by
        rw [← List.drop_drop, ← whole, List.flatten_cons, List.drop_left]
      have next : (start : Int) + 1 + page.length = ((start + page.length : Nat) : Int) + 1 := by
        omega
      rw [fromIndex, Action.run_bind_ok found, listed, if_neg (by simpa using nonempty), next,
        List.forM_cons, Action.run_bind, Action.run_bind]
      rcases visited : (visit page).run state with ⟨failure | _, after⟩
      · rfl
      · have keptAfter := keeps page state after kept visited
        dsimp only
        rw [total, Total.value]
        by_cases last : (answer.resources.length : Int) < ((start + page.length : Nat) : Int) + 1
        · have done : rest = [] := by
            rw [List.drop_eq_nil_of_le (by omega), List.flatten_eq_nil_iff] at behind
            by_contra more
            obtain ⟨other, inRest⟩ := List.exists_mem_of_ne_nil rest more
            exact pagedRest.nonempty other inRest (behind other inRest)
          rw [if_pos last, done]
          rfl
        · have more : rest ≠ [] := by
            rintro rfl
            have nothing := congrArg List.length behind
            rw [List.flatten_nil, List.length_nil, List.length_drop] at nothing
            omega
          have positive : 0 < rest.length := List.length_pos_of_ne_nil more
          rw [if_neg last]
          rw [List.length_cons] at enough
          obtain ⟨budget, rfl⟩ := Nat.exists_eq_add_of_le' (show 1 ≤ budget by omega)
          exact ih pagedRest _ behind keptAfter budget (by omega)

/-! ## Walks over all resources -/

/-- A visit of some items succeeds as visits of its parts do, one after the other. -/
structure Splits (visit : List Json → Action σ Unit) : Prop where
  nil : visit [] = pure ()
  append : ∀ {first last : List Json} {state after : σ},
    (visit (first ++ last)).run state = (.ok (), after) →
      ∃ middle, (visit first).run state = (.ok (), middle) ∧
        (visit last).run middle = (.ok (), after)

theorem Splits.forM_run (splits : Splits visit) {pages : List (List Json)} {state after : σ}
    (visits : (visit pages.flatten).run state = (.ok (), after)) :
    (forM pages visit).run state = (.ok (), after) := by
  induction pages generalizing state with
  | nil =>
      rw [List.flatten_nil, splits.nil] at visits
      exact visits
  | cons page rest ih =>
      obtain ⟨middle, visited, later⟩ := splits.append visits
      rw [List.forM_cons, Action.run_bind_ok visited]
      exact ih later

/-- A walk visits all items. -/
theorem pages_run (lists : service.adapter.Lists stored) (onlyShows : spec.OnlyShows)
    {items : List Json}
    (shown : ∀ state, Kept state → spec.present service.schema (stored state) = .ok items)
    (positive : 1 ≤ size) (limit : ∀ limit, service.options.maxResults = some limit → 1 ≤ limit)
    (splits : Splits visit)
    (keeps : ∀ part state after, Kept state → (visit part).run state = (.ok (), after) →
      Kept after)
    {budget : Nat} {state after : σ} (kept : Kept state) (enough : items.length < budget)
    (visits : (visit items).run state = (.ok (), after)) :
    (pages service spec size visit budget).run state = (.ok (), after) := by
  obtain ⟨parts, whole, paged⟩ := Paged.exists_pages (Service.one_le_pageSize positive limit) items
  have fewer : parts.length ≤ items.length := whole ▸ paged.length_le
  have answered (other : σ) (kept : Kept other) := onlyShows.answered lists (shown other kept)
  rw [pages, if_neg (by omega)]
  refine (fromIndex_eq_forM lists answered keeps paged 0 whole (by omega) kept).trans ?_
  rw [← whole] at visits
  exact splits.forM_run visits

/-! ## Walks through a memory store -/

/-- A walk through a memory store that does not change meanwhile hands over the answer to a query
in pages: it does what visiting them one after the other does. -/
theorem pages_eq_forM {service : Service MemoryState}
    (memory : service.adapter = MemoryStore.adapter) (positive : 1 ≤ size)
    (limit : ∀ limit, service.options.maxResults = some limit → 1 ≤ limit)
    {state after : MemoryState} {answer : QueryResult}
    (answered : (query service.adapter spec.unpaged service.schema).run state =
      (.ok answer, after)) :
    ∃ pages : List (List Json), pages.flatten = answer.resources ∧
      Paged (service.options.maxResults.elim size (min size)) pages ∧
      ∀ {τ : Type} (slot : Slot τ MemoryState) (visit : List Json → Action τ Unit),
        (∀ page start, (slot.get ((visit page).run start).2).2.resources =
          (slot.get start).2.resources) →
        ∀ budget, max 1 pages.length ≤ budget →
          ∀ start, (slot.get start).2.resources = state.2.resources →
            (Walk.pages (service.zoom slot) spec size visit budget).run start =
              (forM pages visit).run start := by
  have lists : service.adapter.Lists fun state => state.2.resources := memory ▸ MemoryStore.lists
  rw [← Service.pageSize_eq]
  obtain ⟨pages, whole, paged⟩ :=
    Paged.exists_pages (Service.one_le_pageSize positive limit) answer.resources
  refine ⟨pages, whole, paged, fun slot visit keeps budget enough start same => ?_⟩
  obtain ⟨-, matching, shown, found, presented, answerEq⟩ := (answer_eq_ok_iff lists).mp answered
  have answeredBeside (other) (held : (slot.get other).2.resources = state.2.resources) :
      (query (service.zoom slot).adapter spec.unpaged service.schema).run other =
        (.ok answer, other) := by
    refine (answer_eq_ok_iff (lists.zoom slot)).mpr ⟨rfl, matching, shown, ?_, presented, answerEq⟩
    rw [held]
    exact found
  have kept (page other after) (held : (slot.get other).2.resources = state.2.resources)
      (visited : (visit page).run other = (.ok (), after)) :
      (slot.get after).2.resources = state.2.resources := by
    rw [← held, ← keeps page other, visited]
  rw [Walk.pages, if_neg (by omega)]
  exact fromIndex_eq_forM (lists.zoom slot) answeredBeside kept paged 0 whole enough same

/-- Notes a page beside the state of a store. -/
def note (page : List Json) : Action (MemoryState × List (List Json)) Unit :=
  modify fun (state, noted) => (state, noted ++ [page])

/-- Of three stored resources two are matched, sorted and noted in pages of one resource, as the
service allows, though pages of two are asked for. -/
theorem pages_eq_forM_firstByName :
    let service : Service MemoryState :=
      ⟨MemoryStore.adapter, none, "Users", { maxResults := some 1 }⟩
    let state : MemoryState := (⟨0, 1, 1⟩, { MemoryStore.empty "User" none "" with
      entries := [(.str "1", [("userName", .str "bob")]),
        (.str "2", [("displayName", .str "staff")]),
        (.str "3", [("userName", .str "alice")])] })
    let answer : QueryResult := ⟨[namedUser "alice", namedUser "bob"], .count 2, 1, 2⟩
    service.adapter = MemoryStore.adapter ∧ (1 : Int) ≤ 2 ∧
      (∀ limit, service.options.maxResults = some limit → 1 ≤ limit) ∧
      (query service.adapter firstByName.unpaged service.schema).run state = (.ok answer, state) ∧
      ∃ pages : List (List Json), pages.flatten = answer.resources ∧ Paged 1 pages ∧
        ∀ budget, max 1 pages.length ≤ budget →
          (Walk.pages (service.zoom .first) firstByName 2 note budget).run (state, []) =
            (forM pages note).run (state, []) := by
  intro service state answer
  have lists : service.adapter.Lists fun state => state.2.resources := MemoryStore.lists
  have limit : ∀ limit, service.options.maxResults = some limit → 1 ≤ limit := by
    rintro limit ⟨⟩
    exact Int.le_refl 1
  have matching : ({ resources := state.2.resources } : Listing).matching firstByName.unpaged none =
      .ok answer.resources := by
    have selected : ({ resources := state.2.resources } : Listing).filterStage
        firstByName.unpaged none = .ok [namedUser "bob", namedUser "alice"] := rfl
    refine bind_eq_ok_iff.mpr ⟨_, selected, ?_⟩
    rw [Listing.sortStage_eq]
    exact firstByName_arrange
  have answered : (query service.adapter firstByName.unpaged service.schema).run state =
      (.ok answer, state) :=
    (answer_eq_ok_iff lists).mpr ⟨rfl, _, answer.resources, matching, rfl, rfl⟩
  have positive : (1 : Int) ≤ 2 := by decide
  obtain ⟨pages, whole, paged, runs⟩ := pages_eq_forM rfl positive limit answered
  refine ⟨rfl, positive, limit, answered, pages, whole, paged, fun budget enough => ?_⟩
  exact runs .first note (fun _ _ => rfl) budget enough (state, []) rfl

end Walk

end Scim
