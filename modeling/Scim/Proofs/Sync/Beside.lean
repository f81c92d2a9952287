import Scim.Proofs.Failures
import Scim.Proofs.Sync.Passes

/-!
# Reconciliations between separate states

If the source and the target of a reconciliation share no state, then a run does to the target
what it would do if it were handed the resources that the source serves all at once, whatever
the pages are in which the source serves them.
-/

namespace Scim

variable {σ τ α β ρ : Type}

/-! ## Parts of a state with something else beside them -/

/-- A part of a state, with something else beside both. -/
def Slot.beside (slot : Slot σ α) (ρ : Type) : Slot (σ × ρ) (α × ρ) where
  get state := (slot.get state.1, state.2)
  set part state := (slot.set part.1 state.1, part.2)
  get_set part state := Prod.ext (slot.get_set part.1 state.1) rfl
  set_get state := Prod.ext (slot.set_get state.1) rfl
  set_set first last state := Prod.ext (slot.set_set first.1 last.1 state.1) rfl

namespace Action

variable (slot : Slot σ τ)

theorem zoom_first_beside (action : Action τ α) :
    (action.zoom slot).zoom .first = (action.zoom .first).zoom (slot.beside ρ) := rfl

theorem zoom_get_beside {next : τ × ρ → Action (τ × ρ) α} {nextZoomed : σ × ρ → Action (σ × ρ) α}
    (agree : ∀ state, (nextZoomed state) =
      (next ((slot.beside ρ).get state)).zoom (slot.beside ρ)) :
    (get >>= nextZoomed) = (get >>= next).zoom (slot.beside ρ) := by
  funext state
  change (nextZoomed state) state = _
  rw [agree]
  rfl

theorem zoom_modify_beside (change : ρ → ρ) :
    (modify fun state => (state.1, change state.2) : Action (τ × ρ) PUnit).zoom (slot.beside ρ) =
      modify fun state => (state.1, change state.2) := by
  funext state
  change (Except.ok PUnit.unit, slot.set (slot.get state.1) state.1, change state.2) = _
  rw [slot.set_get]
  rfl

/-- An action that results in what it leaves beside a state. -/
def yielding (action : Action (σ × ρ) Unit) (start : ρ) : Action σ ρ := fun state =>
  match action.run (state, start) with
  | (.ok (), state, rest) => (.ok rest, state)
  | (.error failure, state, _) => (.error failure, state)

theorem FailsOnly.yielding {P : Failure → Prop} {action : Action (σ × ρ) Unit}
    (fails : action.FailsOnly P) (start : ρ) : (Action.yielding action start).FailsOnly P := by
  intro state
  have first := fails (state, start)
  change Scim.FailsOnly P (Action.yielding action start state).1
  rw [Action.yielding]
  generalize action.run (state, start) = ran at first
  obtain ⟨failure | _, after, rest⟩ := ran
  · exact .error (first failure rfl)
  · exact .ok _

theorem run_yielding {action : Action (σ × ρ) Unit} {start rest : ρ} {state after : σ}
    {outcome : Except Failure Unit} (ran : action.run (state, start) = (outcome, (after, rest))) :
    (yielding action start).run state = (outcome.map fun _ => rest, after) := by
  change yielding action start state = _
  rw [yielding, ran]
  cases outcome <;> rfl

theorem yielding_eq_ok_iff {action : Action (σ × ρ) Unit} {start : ρ} {state after : σ} {rest : ρ} :
    (yielding action start).run state = (.ok rest, after) ↔
      action.run (state, start) = (.ok (), (after, rest)) := by
  change yielding action start state = _ ↔ _
  rw [yielding]
  rcases action.run (state, start) with ⟨failure | _, last, left⟩
  · constructor <;> intro equal <;> cases equal
  · constructor <;> intro equal <;> cases equal <;> rfl

theorem Shows.yielding {view : σ → τ} {action : Action (σ × ρ) Unit} {shown : Action (τ × ρ) Unit}
    (shows : Shows (Prod.map view id) action shown) (start : ρ) :
    Shows view (Action.yielding action start) (Action.yielding shown start) := by
  intro state
  have first := shows (state, start)
  change shown.run (view state, start) = _ at first
  change Action.yielding shown start (view state) =
    ((Action.yielding action start state).1, view (Action.yielding action start state).2)
  rw [Action.yielding, Action.yielding, first]
  rcases action.run (state, start) with ⟨_ | _, after, rest⟩ <;> rfl

theorem yielding_zoom (action : Action (τ × ρ) Unit) (start : ρ) :
    yielding (action.zoom (slot.beside ρ)) start = (yielding action start).zoom slot := by
  funext state
  simp only [yielding, zoom, run, Slot.beside]
  rcases action (slot.get state, start) with ⟨_ | _, after, rest⟩ <;> rfl

/-- What an outcome for two states and something beside them is for the second state. -/
def ofSecond (ran : α × (σ × τ) × ρ) : α × τ × ρ := (ran.1, ran.2.1.2, ran.2.2)

theorem ofSecond_bind {both : Action ((σ × τ) × ρ) α} {alone : Action (τ × ρ) α}
    {next : α → Action ((σ × τ) × ρ) β} {nextAlone : α → Action (τ × ρ) β}
    {state : σ} {part : τ} {rest : ρ}
    (first : ofSecond (both.run ((state, part), rest)) = alone.run (part, rest))
    (later : ∀ value state part rest, ofSecond ((next value).run ((state, part), rest)) =
      (nextAlone value).run (part, rest)) :
    ofSecond ((both >>= next).run ((state, part), rest)) =
      (alone >>= nextAlone).run (part, rest) := by
  rw [run_bind, run_bind, ← first]
  rcases both.run ((state, part), rest) with ⟨_ | value, ⟨state, part⟩, rest⟩
  · rfl
  · exact later value state part rest

theorem run_yielding_of_ofSecond {both : Action ((σ × τ) × ρ) Unit} {alone : Action (τ × ρ) Unit}
    {state : σ} {part : τ} {start : ρ}
    (agree : ofSecond (both.run ((state, part), start)) = alone.run (part, start)) :
    (((both.yielding start).run (state, part)).1, ((both.yielding start).run (state, part)).2.2) =
      (alone.yielding start).run part := by
  change ((both.yielding start (state, part)).1, (both.yielding start (state, part)).2.2) =
    alone.yielding start part
  rw [yielding, yielding, ← agree]
  rcases both.run ((state, part), start) with ⟨_ | _, ⟨state, part⟩, rest⟩ <;> rfl

end Action

/-! ## Services on a part of a state -/

theorem Service.list_zoom (slot : Slot σ τ) (service : Service τ) (spec : QuerySpec) :
    (service.zoom slot).list spec = (service.list spec).zoom slot := by
  simp only [list, query, Action.zoom_bind, Action.zoom_ofExcept]
  rfl

namespace Walk

variable (slot : Slot σ τ) (service : Service τ) (spec : QuerySpec) (size : Int)
  (visit : List Json → Action τ Unit)

theorem page_zoom (start : Int) :
    page (service.zoom slot) spec size start = (page service spec size start).zoom slot :=
  Service.list_zoom ..

theorem fromIndex_zoom (budget : Nat) (start : Int) :
    fromIndex (service.zoom slot) spec size (fun part => (visit part).zoom slot) budget start =
      (fromIndex service spec size visit budget start).zoom slot := by
  induction budget generalizing start with
  | zero => exact (Action.zoom_ofExcept slot _).symm
  | succ budget ih =>
      rw [fromIndex, fromIndex, Action.zoom_bind, page_zoom]
      congr 1
      funext result
      dsimp only
      split
      · exact (Action.zoom_pure slot _).symm
      · rw [Action.zoom_bind]
        congr 1
        funext _
        split
        · exact (Action.zoom_pure slot _).symm
        · exact ih _

omit slot in
/-- A walk asks a service for lists only. -/
theorem fromIndex_congr {other : Service τ} (same : ∀ spec, service.list spec = other.list spec)
    (budget : Nat) (start : Int) :
    fromIndex service spec size visit budget start = fromIndex other spec size visit budget start := by
  induction budget generalizing start with
  | zero => rfl
  | succ budget ih => simp only [fromIndex, page, same, ih]

omit slot in
theorem pages_congr {other : Service τ} (same : ∀ spec, service.list spec = other.list spec)
    (budget : Nat) : pages service spec size visit budget = pages other spec size visit budget := by
  rw [pages, pages, fromIndex_congr service spec size visit same]

theorem pages_zoom (budget : Nat) :
    pages (service.zoom slot) spec size (fun part => (visit part).zoom slot) budget =
      (pages service spec size visit budget).zoom slot := by
  rw [pages, pages]
  split
  · rw [Action.zoom_bind]
    congr 1
    · exact (Action.zoom_ofExcept slot _).symm
    · funext _
      exact fromIndex_zoom ..
  · exact fromIndex_zoom ..

end Walk

namespace Reconciliation

variable (slot : Slot σ τ) (target : Service τ)

theorem collect_zoom (resources : List Json) :
    (collect resources : Action (σ × IdSet) Unit) =
      (collect resources : Action (τ × IdSet) Unit).zoom (slot.beside IdSet) := by
  apply Action.zoom_get_beside slot
  rintro ⟨state, ids⟩
  dsimp only
  rw [Action.zoom_bind, Action.zoom_ofExcept]
  congr 1
  funext ids
  exact (Action.zoom_modify_beside slot fun _ => ids).symm

theorem allIds_eq (size : Int) (budget : Nat) :
    allIds target size budget = Action.yielding
      (Walk.pages (target.zoom .first) { attributes := ["id"] } size collect budget) [] := by
  funext state
  unfold allIds Action.yielding
  extract_lets visit walk
  have same : walk = Walk.pages (target.zoom .first) { attributes := ["id"] } size collect budget :=
    rfl
  rw [same]
  rcases Action.run (Walk.pages _ _ _ _ _) (state, []) with ⟨_ | _, after, ids⟩ <;> rfl

theorem allIds_zoom (size : Int) (budget : Nat) :
    allIds (target.zoom slot) size budget = (allIds target size budget).zoom slot := by
  rw [allIds_eq, allIds_eq, ← Action.yielding_zoom, funext (collect_zoom slot)]
  congr 1
  exact Walk.pages_zoom (slot.beside IdSet) (target.zoom .first) ..

theorem copy_zoom (before : IdSet) (resource : Json) :
    copy (target.zoom slot) before resource =
      (copy target before resource).zoom (slot.beside ReconciliationReport) := by
  rw [copy, copy, Action.zoom_bind, Action.zoom_ofExcept]
  congr 1
  funext id
  dsimp only
  split
  · exact (Action.zoom_modify_beside slot
      fun report : ReconciliationReport => { report with skipped := report.skipped + 1 }).symm
  split
  · exact (Action.zoom_ofExcept _ _).symm
  split
  · rw [Action.zoom_bind, Service.replace_zoom, Action.zoom_first_beside]
    congr 1
    funext _
    exact (Action.zoom_modify_beside slot
      fun report : ReconciliationReport => { report with updated := report.updated ++ [id] }).symm
  · rw [Action.zoom_bind, Service.create_zoom, Action.zoom_first_beside]
    congr 1
    funext _
    exact (Action.zoom_modify_beside slot
      fun report : ReconciliationReport => { report with created := report.created ++ [id] }).symm

theorem copyAll_zoom (before : IdSet) (resources : List Json) :
    copyAll (target.zoom slot) before resources =
      (copyAll target before resources).zoom (slot.beside ReconciliationReport) := by
  induction resources with
  | nil => exact (Action.zoom_pure _ _).symm
  | cons resource rest ih => rw [copyAll, copyAll, Action.zoom_bind, copy_zoom, ih]

theorem deleteAll_zoom (ids : List Json) :
    deleteAll (target.zoom slot) ids =
      (deleteAll target ids).zoom (slot.beside ReconciliationReport) := by
  induction ids with
  | nil => exact (Action.zoom_pure _ _).symm
  | cons id rest ih =>
      rw [deleteAll, deleteAll, Action.zoom_bind, Action.zoom_bind, ih,
        ← Action.zoom_modify_beside slot
          fun report : ReconciliationReport => { report with deleted := report.deleted ++ [id] }]
      rfl

theorem deleteOrphans_zoom (before : IdSet) :
    deleteOrphans (target.zoom slot) before =
      (deleteOrphans target before).zoom (slot.beside ReconciliationReport) := by
  apply Action.zoom_get_beside slot
  rintro ⟨state, report⟩
  dsimp only
  rw [Action.zoom_bind, Action.zoom_ofExcept]
  congr 1
  funext orphans
  exact deleteAll_zoom ..

/-! ## What a source serves -/

/-- Appends some resources to a list beside the state. -/
def gather {σ : Type} (resources : List Json) : Action (σ × List Json) Unit :=
  modify fun (state, seen) => (state, seen ++ resources)

/-- A walk that gathers what a source serves. -/
def survey (source : Service σ) (size : Int) (budget : Nat) : Action (σ × List Json) Unit :=
  Walk.pages (source.zoom .first) {} size gather budget

/-- The resources that a source serves in a walk, in the order of the pages. -/
def served (source : Service σ) (size : Int) (budget : Nat) (state : σ) : List Json :=
  ((survey source size budget).run (state, [])).2.2

/-- How a walk through a source ends. -/
def ending (source : Service σ) (size : Int) (budget : Nat) (state : σ) : Except Failure Unit :=
  ((survey source size budget).run (state, [])).1

theorem copyAll_append (before : IdSet) (first last : List Json) :
    copyAll target before (first ++ last) =
      copyAll target before first >>= fun _ => copyAll target before last := by
  induction first with
  | nil => rfl
  | cons resource rest ih =>
      rw [List.cons_append, copyAll, copyAll, ih, bind_assoc]

/-- Copies some resources, at the end of which stands an outcome. -/
def hand (before : IdSet) (resources : List Json) (outcome : Except Failure Unit) :
    Action (τ × ReconciliationReport) Unit := do
  copyAll target before resources
  Action.ofExcept outcome

theorem hand_append (before : IdSet) (first last : List Json) (outcome : Except Failure Unit) :
    hand target before (first ++ last) outcome =
      copyAll target before first >>= fun _ => hand target before last outcome := by
  rw [hand, hand, copyAll_append, bind_assoc]

/-- Whether a walk that copies does to the target what copying all that another one gathers does, if
they start where a source is in some state and some resources were seen. -/
def CopiesGathered (before : IdSet) (gathering : Action (σ × List Json) Unit)
    (copying : Action ((σ × τ) × ReconciliationReport) Unit) (state : σ) (seen : List Json) : Prop :=
  ∃ more outcome last, gathering.run (state, seen) = (outcome, (last, seen ++ more)) ∧
    ∀ part report, Action.ofSecond (copying.run ((state, part), report)) =
      (hand target before more outcome).run (part, report)

namespace CopiesGathered

variable {target} {before : IdSet} {gathering : Action (σ × List Json) Unit}
  {copying : Action ((σ × τ) × ReconciliationReport) Unit} {state : σ} {seen : List Json}

theorem ofExcept (outcome : Except Failure Unit) :
    CopiesGathered target before (Action.ofExcept outcome) (Action.ofExcept outcome) state seen := by
  refine ⟨[], outcome, state, ?_, fun _ _ => rfl⟩
  rw [List.append_nil]
  rfl

theorem visit {resources : List Json}
    (later : CopiesGathered target before gathering copying state (seen ++ resources)) :
    CopiesGathered target before (gather resources >>= fun _ => gathering)
      (copyAll (target.zoom .second) before resources >>= fun _ => copying) state seen := by
  obtain ⟨more, outcome, last, gathered, copied⟩ := later
  refine ⟨resources ++ more, outcome, last, ?_, fun part report => ?_⟩
  · rw [← List.append_assoc]
    exact gathered
  · have page : (Slot.second.beside ReconciliationReport).get ((state, part), report) =
      (part, report) := rfl
    rw [hand_append, copyAll_zoom, Action.run_bind, Action.run_bind, Action.run_zoom, page]
    rcases (copyAll target before resources).run (part, report) with
      ⟨_ | _, copiedPart, copiedReport⟩
    · rfl
    · exact copied copiedPart copiedReport

theorem request {request : Action σ α} {gathering : α → Action (σ × List Json) Unit}
    {copying : α → Action ((σ × τ) × ReconciliationReport) Unit}
    (later : ∀ answer state, CopiesGathered target before (gathering answer) (copying answer) state
      seen) :
    CopiesGathered target before (request.zoom .first >>= gathering)
      ((request.zoom .first).zoom .first >>= copying) state seen := by
  rcases ran : request.run state with ⟨failure | answer, after⟩
  · refine ⟨[], .error failure, after, ?_, fun part report => ?_⟩
    · rw [Action.run_bind, Action.run_zoom_first, ran, List.append_nil]
    · rw [Action.run_bind, Action.run_zoom_first, Action.run_zoom_first, ran]
      rfl
  · obtain ⟨more, outcome, last, gathered, copied⟩ := later answer after
    refine ⟨more, outcome, last, ?_, fun part report => ?_⟩
    · rw [Action.run_bind, Action.run_zoom_first, ran]
      exact gathered
    · rw [Action.run_bind, Action.run_zoom_first, Action.run_zoom_first, ran]
      exact copied part report

end CopiesGathered

section

variable (source : Service σ) (size : Int) (before : IdSet)

/-- Copying page by page does to the target what copying all that is gathered does. -/
theorem fromIndex_copies (budget : Nat) (start : Int) (state : σ) (seen : List Json) :
    CopiesGathered target before (Walk.fromIndex (source.zoom .first) {} size gather budget start)
      (Walk.fromIndex ((source.zoom .first).zoom .first) {} size
        (copyAll (target.zoom .second) before) budget start) state seen := by
  induction budget generalizing start state seen with
  | zero => exact .ofExcept _
  | succ budget ih =>
      rw [Walk.fromIndex, Walk.fromIndex, Walk.page_zoom, Walk.page_zoom, Walk.page_zoom]
      apply CopiesGathered.request
      intro result after
      dsimp only
      split
      · exact .ofExcept (.ok ())
      · apply CopiesGathered.visit
        split
        · exact .ofExcept (.ok ())
        · exact ih _ after _

theorem pages_copies (budget : Nat) (state : σ) (part : τ) (report : ReconciliationReport) :
    Action.ofSecond ((Walk.pages ((source.zoom .first).zoom .first) {} size
      (copyAll (target.zoom .second) before) budget).run ((state, part), report)) =
      (hand target before (served source size budget state)
        (ending source size budget state)).run (part, report) := by
  rw [served, ending, survey, Walk.pages, Walk.pages]
  split
  · rfl
  · obtain ⟨more, outcome, last, gathered, copied⟩ :=
      fromIndex_copies target source size before budget 1 state []
    change (Walk.fromIndex (source.zoom .first) {} size gather budget 1).run (state, []) = _
      at gathered
    refine (copied part report).trans ?_
    rw [gathered]
    rfl

end

/-! ## Whole runs -/

/-- What a run does to its target if it is handed some resources, at the end of which stands an
outcome. -/
def settle (size : Int) (orphans : Bool) (budget : Nat) (resources : List Json)
    (outcome : Except Failure Unit) : Action τ ReconciliationReport := do
  let before ← allIds target size budget
  Action.yielding (do
    hand target before resources outcome
    if orphans then deleteOrphans target before) {}

omit target in
theorem run_eq_yielding (source target : Service τ) (size : Int) (orphans : Bool) (budget : Nat) :
    run source target size orphans budget = allIds target size budget >>= fun before =>
      Action.yielding (do
        Walk.pages (source.zoom .first) {} size (copyAll target before) budget
        if orphans then deleteOrphans target before) {} := by
  rw [run]
  congr 1
  funext before state
  unfold Action.yielding
  extract_lets action
  rcases Action.run _ (state, ({} : ReconciliationReport)) with ⟨_ | _, after, ids⟩ <;> rfl

/-- What a run does to a target that shares no state with the source is found from what the source
serves. -/
theorem run_beside (source : Service σ) (size : Int) (orphans : Bool) (budget : Nat) (state : σ)
    (part : τ) :
    (((run (source.zoom .first) (target.zoom .second) size orphans budget).run (state, part)).1,
      ((run (source.zoom .first) (target.zoom .second) size orphans budget).run (state, part)).2.2) =
      (settle target size orphans budget (served source size budget state)
        (ending source size budget state)).run part := by
  rw [run_eq_yielding, settle, Action.run_bind, Action.run_bind, allIds_zoom, Action.run_zoom_second]
  rcases (allIds target size budget).run part with ⟨_ | before, part⟩
  · rfl
  · apply Action.run_yielding_of_ofSecond
    apply Action.ofSecond_bind (pages_copies target source size before budget state part {})
    intro _ state part report
    split
    · rw [deleteOrphans_zoom]
      rfl
    · rfl

end Reconciliation

end Scim
