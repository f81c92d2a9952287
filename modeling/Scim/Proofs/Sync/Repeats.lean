import Scim.Proofs.Sync.Watching

/-!
# Sources that serve a resource twice

The ids of a target are read off once, before the copies.  A resource whose id is not among them
is created, also if an earlier page of the source had it already and it is on the target by then.
So a run never calls for a resource to be created under an id that is taken exactly if the ids
that are new to it differ from one another, and none of them is on the target from the start.
-/

namespace Scim

open MemoryStore

namespace Reconciliation

variable {σ τ : Type}

/-! ## Ids that are new -/

/-- The id of a resource, if it is not among some ids. -/
def newId (before : IdSet) (resource : Json) : List Json :=
  (statedId? resource).toList.filter (!before.has ·)

theorem newId_of_unstated {before : IdSet} {resource : Json} (unstated : statedId? resource = none) :
    newId before resource = [] := by
  rw [newId, unstated]
  rfl

theorem newId_of_stated {before : IdSet} {resource id : Json}
    (stated : statedId? resource = some id) :
    newId before resource = if before.has id then [] else [id] := by
  rw [newId, stated, Option.toList_some, List.filter_singleton]
  cases before.has id <;> rfl

/-- The resources that copying comes to, up to the first one at which it fails. -/
def reached (target : Service τ) (before : IdSet) :
    List Json → τ × ReconciliationReport → List Json
  | [], _ => []
  | resource :: rest, state =>
    resource :: match (copy target before resource).run state with
      | (.ok (), after) => reached target before rest after
      | (.error _, _) => []

/-- The ids of the resources that copying comes to and that are not among some ids. -/
def newIds (target : Service τ) (before : IdSet) (resources : List Json)
    (state : τ × ReconciliationReport) : List Json :=
  (reached target before resources state).flatMap (newId before)

/-- Whether some ids differ from one another and a store holds nothing under them. -/
structure Fresh (store : MemoryStore) (ids : List Json) : Prop where
  distinct : ids.Pairwise fun a b => a.same b = false
  free : ∀ id ∈ ids, store.find? id = none

/-- Ids that can be looked up and that are not among some ids. -/
def AreNew (before : IdSet) (ids : List Json) : Prop :=
  ∀ id ∈ ids, id.isKey = true ∧ before.has id = false

theorem mem_newId_iff {before : IdSet} {resource id : Json} :
    id ∈ newId before resource ↔ statedId? resource = some id ∧ before.has id = false := by
  simp [newId]

theorem areNew_newId (before : IdSet) (resource : Json) : AreNew before (newId before resource) := by
  intro id held
  obtain ⟨stated, new⟩ := mem_newId_iff.mp held
  exact ⟨(statedId?_eq_some_iff.mp stated).2.2, new⟩

theorem fresh_nil (store : MemoryStore) : Fresh store [] := ⟨.nil, nofun⟩

section

variable {before : IdSet} {store : MemoryStore} {id : Json} {ids : List Json}

/-- An id is fresh beside others if it is free and these are fresh once it is taken. -/
theorem fresh_cons_iff (key : id.isKey = true) (new : AreNew before ids) (stored : Members) :
    Fresh store (id :: ids) ↔
      store.find? id = none ∧ Fresh (store.stamped.put id stored) ids := by
  have found (other : Json) (held : other ∈ ids) :
      (store.stamped.put id stored).find? other = none ↔
        id.same other = false ∧ store.find? other = none := by
    rw [find?_put _ key (new other held).1, find?_stamped]
    cases id.same other <;> simp
  constructor
  · rintro ⟨distinct, free⟩
    obtain ⟨apart, distinct⟩ := List.pairwise_cons.mp distinct
    obtain ⟨own, free⟩ := List.forall_mem_cons.mp free
    exact ⟨own, distinct, fun other held => (found other held).mpr ⟨apart other held, free other held⟩⟩
  · rintro ⟨own, distinct, free⟩
    constructor
    · exact .cons (fun other held => ((found other held).mp (free other held)).1) distinct
    · exact List.forall_mem_cons.mpr
        ⟨own, fun other held => ((found other held).mp (free other held)).2⟩

/-- What is put under an id that is not new does not concern those that are. -/
theorem fresh_put_iff (key : id.isKey = true) (known : before.has id = true)
    (new : AreNew before ids) (stored : Members) :
    Fresh (store.stamped.put id stored) ids ↔ Fresh store ids := by
  have found (other : Json) (held : other ∈ ids) :
      (store.stamped.put id stored).find? other = store.find? other := by
    have apart : id.same other = false := by
      apply Bool.eq_false_of_not_eq_true
      intro same
      have agree := IdSet.has_congr key (new other held).1 same before
      rw [known, (new other held).2] at agree
      cases agree
    rw [find?_put _ key (new other held).1, apart, if_neg Bool.false_ne_true, find?_stamped]
  constructor
  · rintro ⟨distinct, free⟩
    exact ⟨distinct, fun other held => (found other held).symm.trans (free other held)⟩
  · rintro ⟨distinct, free⟩
    exact ⟨distinct, fun other held => (found other held).trans (free other held)⟩

end

/-! ## Copying one resource after the other -/

/-- What comes of copying some resources to a watched store, one after the other up to a failure:
which of the ids are new, what is noted, whether the copies succeed, and what is in the store and in
the report then. -/
inductive Steps (before : IdSet) : List Json → MemoryStore → ReconciliationReport →
    List Json → List Json → Except Failure Unit → MemoryStore → ReconciliationReport → Prop where
  | done (store : MemoryStore) (report : ReconciliationReport) :
      Steps before [] store report [] [] (.ok ()) store report
  | stopped {resource : Json} {rest : List Json} {store last : MemoryStore}
      {report reported : ReconciliationReport} {notes : List Json} {failure : Failure}
      (step : Step before resource store report notes (.error failure) last reported) :
      Steps before (resource :: rest) store report (newId before resource) notes
        (.error failure) last reported
  | next {resource : Json} {rest : List Json} {store middle last : MemoryStore}
      {report half reported : ReconciliationReport} {ids first notes : List Json}
      {outcome : Except Failure Unit}
      (step : Step before resource store report first (.ok ()) middle half)
      (later : Steps before rest middle half ids notes outcome last reported) :
      Steps before (resource :: rest) store report (newId before resource ++ ids)
        (first ++ notes) outcome last reported

/-- Copying resources to a watched store comes to steps. -/
theorem copyAll_steps (schema : Option ResourceSchema) (endpoint : Option String)
    (options : ServiceOptions) (before : IdSet) (resources : List Json) (supply : Supply)
    (store : MemoryStore) (notes : List Json) (report : ReconciliationReport) :
    ∃ outcome after last more reported,
      Steps before resources store report
        (newIds (plain schema endpoint options) before resources ((supply, store), report)) more
        outcome last reported ∧
      (copyAll (watching schema endpoint options) before resources).run
        (((supply, store), notes), report) =
        (outcome, (((after, last), notes ++ more), reported)) := by
  induction resources generalizing supply store notes report with
  | nil => exact ⟨.ok (), supply, store, [], report, .done store report, by rw [List.append_nil]; rfl⟩
  | cons resource rest ih =>
      obtain ⟨outcome, after, middle, first, half, step, ran⟩ :=
        copy_step schema endpoint options store before resource supply notes report
      have shown := shows_copy schema endpoint options before resource
        (((supply, store), notes), report)
      rw [ran] at shown
      change (copy (plain schema endpoint options) before resource).run ((supply, store), report) =
        (outcome, ((after, middle), half)) at shown
      rw [newIds, reached, shown]
      cases outcome with
      | error failure =>
          refine ⟨.error failure, after, middle, first, half, ?_, Action.run_bind_error ran _⟩
          rw [List.flatMap_singleton]
          exact .stopped step
      | ok _ =>
          obtain ⟨outcome, after, last, more, reported, steps, later⟩ :=
            ih after middle (notes ++ first) half
          refine ⟨outcome, after, last, first ++ more, reported, .next step steps, ?_⟩
          rw [copyAll, Action.run_bind_ok ran, later, List.append_assoc]

namespace Steps

variable {before : IdSet} {resources ids notes : List Json} {store last : MemoryStore}
  {report reported : ReconciliationReport} {outcome : Except Failure Unit}
  (steps : Steps before resources store report ids notes outcome last reported)
include steps

theorem areNew : AreNew before ids := by
  induction steps with
  | done => nofun
  | stopped => exact areNew_newId _ _
  | next _ _ ih =>
      intro id held
      cases List.mem_append.mp held with
      | inl own => exact areNew_newId _ _ id own
      | inr later => exact ih id later

/-- Nothing is noted exactly if the ids that are new are fresh. -/
theorem notes_eq_nil_iff : notes = [] ↔ Fresh store ids := by
  induction steps with
  | done store => exact iff_of_true rfl (fresh_nil store)
  | @stopped resource _ store _ _ _ _ _ step =>
      cases step with
      | failed _ _ _ free =>
          refine iff_of_true rfl ⟨?_, fun id held => ?_⟩
          · apply List.Pairwise.filter
            cases statedId? resource <;> simp
          · obtain ⟨stated, new⟩ := mem_newId_iff.mp held
            exact free id stated new
      | clashed id _ stated new held =>
          rw [newId_of_stated stated, new, if_neg Bool.false_ne_true]
          exact iff_of_false (List.cons_ne_nil _ _) fun fresh =>
            held (fresh.free id (List.mem_singleton.mpr rfl))
  | next step later ih =>
      cases step with
      | skipped unstated =>
          rw [newId_of_unstated unstated]
          exact ih
      | replaced id stored stated known =>
          have key := (statedId?_eq_some_iff.mp stated).2.2
          rw [newId_of_stated stated, known, if_pos rfl, List.nil_append, List.nil_append, ih]
          exact fresh_put_iff key known later.areNew stored
      | created id stored stated new free =>
          have key := (statedId?_eq_some_iff.mp stated).2.2
          rw [newId_of_stated stated, new, if_neg Bool.false_ne_true, List.nil_append, ih,
            List.singleton_append, fresh_cons_iff key later.areNew stored]
          exact (and_iff_right free).symm

/-- Where nothing is noted, copying does not fail with a conflict. -/
theorem noConflict (quiet : notes = []) : FailsOnly (¬ ·.IsConflict) outcome := by
  induction steps with
  | done => exact .ok ()
  | stopped step =>
      cases step with
      | failed _ _ noConflict => exact .error noConflict
      | clashed => cases quiet
  | next _ _ ih => exact ih (List.append_eq_nil_iff.mp quiet).2

end Steps

/-- Whether something is on the target under an id and the report says so. -/
structure Landed (store : MemoryStore) (report : ReconciliationReport) (id : Json) : Prop where
  found : (store.find? id).isSome = true
  noted : IdSet.has (report.created ++ report.updated) id = true

section

variable {before : IdSet} {store last : MemoryStore} {report reported : ReconciliationReport}
  {notes : List Json} {id : Json}

theorem find?_put_isSome {own other : Json} (key : own.isKey = true) (otherKey : other.isKey = true)
    (stored : Members) : ((store.stamped.put own stored).find? other).isSome =
      (own.same other || (store.find? other).isSome) := by
  rw [find?_put _ key otherKey, find?_stamped]
  cases own.same other <;> simp

/-- What is put under an id and reported has landed there, and what had landed before stays. -/
theorem landed_put {own : Json} (ownKey : own.isKey = true) (key : id.isKey = true)
    (stored : Members) (noted : IdSet.has (reported.created ++ reported.updated) id =
      (IdSet.has (report.created ++ report.updated) id || own.same id))
    (either : own.same id = true ∨ Landed store report id) :
    Landed (store.stamped.put own stored) reported id := by
  constructor
  · rw [find?_put_isSome ownKey key, Bool.or_eq_true]
    exact either.imp_right (·.found)
  · rw [noted, Bool.or_eq_true]
    exact either.symm.imp_left (·.noted)

/-- A copy that succeeds lands under its id, and what has landed stays. -/
theorem Step.landed {resource : Json}
    (step : Step before resource store report notes (.ok ()) last reported)
    (key : id.isKey = true)
    (either : statedId? resource = some id ∨ Landed store report id) : Landed last reported id := by
  have put {own : Json} (stated : statedId? resource = some own) :
      own.isKey = true ∧ (own.same id = true ∨ Landed store report id) := by
    refine ⟨(statedId?_eq_some_iff.mp stated).2.2, either.imp_left fun again => ?_⟩
    rw [stated] at again
    cases again
    exact Json.same_refl_of_isKey key
  cases step with
  | skipped unstated =>
      rw [unstated] at either
      obtain ⟨found, noted⟩ := either.resolve_left nofun
      exact ⟨found, noted⟩
  | replaced own stored stated =>
      apply landed_put (put stated).1 key stored _ (put stated).2
      simp [IdSet.has, Json.containedIn, Bool.or_assoc]
  | created own stored stated =>
      apply landed_put (put stated).1 key stored _ (put stated).2
      simp [IdSet.has, Json.containedIn, Bool.or_left_comm, Bool.or_comm]

/-- If all copies succeed, then every resource with an id has landed. -/
theorem Steps.landed {resources ids : List Json}
    (steps : Steps before resources store report ids notes (.ok ()) last reported)
    (key : id.isKey = true)
    (either : (∃ resource ∈ resources, statedId? resource = some id) ∨ Landed store report id) :
    Landed last reported id := by
  generalize outcomeEq : (.ok () : Except Failure Unit) = outcome at steps
  induction steps with
  | done =>
      apply either.resolve_left
      rintro ⟨_, held, _⟩
      cases held
  | stopped => cases outcomeEq
  | next step _ ih =>
      apply ih _ outcomeEq
      obtain ⟨resource, held, stated⟩ | landed := either
      · cases List.mem_cons.mp held with
        | inl first => exact .inr (step.landed key (.inl (first ▸ stated)))
        | inr inRest => exact .inl ⟨resource, inRest, stated⟩
      · exact .inr (step.landed key (.inr landed))

end

/-! ## Runs -/

section

variable (schema : Option ResourceSchema) (endpoint : Option String) (options : ServiceOptions)

/-- Handing resources over to a watched store comes to steps. -/
theorem hand_steps (before : IdSet) (resources : List Json) (outcome : Except Failure Unit)
    (target : MemoryState) :
    ∃ copied supply last notes reported,
      Steps before resources target.2 {}
        (newIds (plain schema endpoint options) before resources (target, {})) notes copied last
        reported ∧
      (hand (watching schema endpoint options) before resources outcome).run ((target, []), {}) =
        (copied.bind fun _ => outcome, (((supply, last), notes), reported)) := by
  obtain ⟨copied, supply, last, notes, reported, steps, ran⟩ :=
    copyAll_steps schema endpoint options before resources target.1 target.2 [] {}
  rw [List.nil_append] at ran
  refine ⟨copied, supply, last, notes, reported, steps, ?_⟩
  cases copied with
  | error failure => exact Action.run_bind_error ran _
  | ok _ => exact Action.run_bind_ok ran _

/-- The deletion of orphans, if there is one, notes nothing and does not fail with a conflict.  It
keeps what has landed. -/
theorem clear_run (orphans : Bool) (before : IdSet) (state : MemoryState) (notes : List Json)
    (report : ReconciliationReport) :
    ∃ ended after total,
      (if orphans then deleteOrphans (watching schema endpoint options) before else pure ()).run
        ((state, notes), report) = (ended, ((after, notes), total)) ∧
      FailsOnly (¬ ·.IsConflict) ended ∧
      (ended = .ok () → ∀ id : Json, id.isKey = true → Landed state.2 report id →
        (after.2.find? id).isSome = true) := by
  cases orphans with
  | false => exact ⟨.ok (), state, report, rfl, .ok (), fun _ _ _ landed => landed.found⟩
  | true =>
      rcases deleted : (deleteOrphans (plain schema endpoint options) before).run (state, report)
        with ⟨ended, after, total⟩
      have calm := failsOnly_deleteOrphans schema endpoint options before (state, report)
      rw [deleted] at calm
      refine ⟨ended, after, total, ?_, calm, ?_⟩
      · have part : (Slot.first.beside ReconciliationReport).get ((state, notes), report) =
          (state, report) := rfl
        rw [if_pos rfl, deleteOrphans_watching, Action.run_zoom, part, deleted]
        rfl
      · rintro rfl id key landed
        rw [deleteOrphans_keeps schema endpoint options key landed.noted deleted]
        exact landed.found

/-- Where the ids of the target can be read off, a run comes to steps, after which orphans may be
deleted. -/
theorem settle_steps {size : Int} (orphans : Bool) {budget : Nat} (resources : List Json)
    (outcome : Except Failure Unit) {target : MemoryState} {before : IdSet}
    (read : (allIds (plain schema endpoint options) size budget).run target =
      (.ok before, target)) :
    ∃ copied last notes reported ended after,
      Steps before resources target.2 {}
        (newIds (plain schema endpoint options) before resources (target, {})) notes copied last
        reported ∧
      (settle (watching schema endpoint options) size orphans budget resources outcome).run
        (target, []) = (ended, (after, notes)) ∧
      (∀ failure, ended = .error failure →
        copied = .error failure ∨ outcome = .error failure ∨ ¬ failure.IsConflict) ∧
      (∀ report, ended = .ok report → copied = .ok () ∧
        ∀ id : Json, id.isKey = true → Landed last reported id → (after.2.find? id).isSome = true) := by
  obtain ⟨copied, supply, last, notes, reported, steps, handed⟩ :=
    hand_steps schema endpoint options before resources outcome target
  obtain ⟨cleared, after, total, clearing, calm, keeps⟩ :=
    clear_run schema endpoint options orphans before (supply, last) notes reported
  refine ⟨copied, last, notes, reported, ?_⟩
  rw [settle, allIds_watching, Action.run_bind, Action.run_zoom_first, read]
  cases both : copied.bind fun _ => outcome with
  | error failure =>
      rw [both] at handed
      refine ⟨.error failure, (supply, last), steps,
        Action.run_yielding (Action.run_bind_error handed _), ?_, ?_⟩
      · rintro _ ⟨⟩
        cases copied with
        | error _ => exact .inl both
        | ok _ => exact .inr (.inl both)
      · intro _ succeeded
        cases succeeded
  | ok _ =>
      rw [both] at handed
      refine ⟨cleared.map fun _ => total, after, steps,
        Action.run_yielding ((Action.run_bind_ok handed _).trans clearing), ?_, ?_⟩
      · intro failure failed
        cases cleared with
        | error _ =>
            cases failed
            exact .inr (.inr (calm failure rfl))
        | ok _ => cases failed
      · intro _ succeeded
        cases cleared with
        | error _ => cases succeeded
        | ok _ =>
            refine ⟨?_, keeps rfl⟩
            cases copied with
            | error _ => cases both
            | ok _ => rfl

end

/-! ## Runs whose target is watched -/

/-- A reconciliation of any source with a memory store, with pages of a size, with or without the
deletion of orphans, and with a budget of list requests for each of them. -/
structure Job (σ : Type) where
  source : Service σ
  schema : Option ResourceSchema
  endpoint : Option String
  options : ServiceOptions
  size : Int
  orphans : Bool
  budget : Nat

namespace Job

variable (job : Job σ) (state : σ) (target : MemoryState)

/-- The resources that the source serves. -/
def served : List Json := Reconciliation.served job.source job.size job.budget state

/-- How the walk through the source ends. -/
def ending : Except Failure Unit := Reconciliation.ending job.source job.size job.budget state

/-- The run: its outcome and the target after it. -/
def run : Except Failure ReconciliationReport × MemoryState :=
  let ran := (Reconciliation.run (job.source.zoom .first)
    ((plain job.schema job.endpoint job.options).zoom .second) job.size job.orphans job.budget).run
    (state, target)
  (ran.1, ran.2.2)

/-- The ids under which resources were to be created in the run although the target held one under
them already. -/
def clashes : List Json :=
  ((Reconciliation.run (job.source.zoom .first)
    ((watching job.schema job.endpoint job.options).zoom .second) job.size job.orphans
    job.budget).run (state, (target, []))).2.2.2

/-- The ids under which resources are to be created in the run. -/
def newcomers : List Json :=
  match (allIds (plain job.schema job.endpoint job.options) job.size job.budget).run target with
  | (.ok before, after) =>
    newIds (plain job.schema job.endpoint job.options) before (job.served state) (after, {})
  | (.error _, _) => []

/-- Whether a run takes whatever pages its source serves: no resource is to be created under an id
that is taken, the run is not refused with a conflict unless the source is, and if it succeeds then
every resource with an id is on the target. -/
structure Tolerates : Prop where
  noClash : job.clashes state target = []
  noConflict : ∀ failure, (job.run state target).1 = .error failure → failure.IsConflict →
    job.ending state = .error failure
  landed : ∀ report, (job.run state target).1 = .ok report → ∀ resource ∈ job.served state, ∀ id,
    statedId? resource = some id → ((job.run state target).2.2.find? id).isSome = true

/-- A run that is watched does what the run does. -/
theorem watched_eq :
    (settle (watching job.schema job.endpoint job.options) job.size job.orphans job.budget
      (job.served state) (job.ending state)).run (target, []) =
      ((job.run state target).1, ((job.run state target).2, job.clashes state target)) := by
  have watched := run_beside (watching job.schema job.endpoint job.options) job.source job.size
    job.orphans job.budget state (target, [])
  have unwatched := run_beside (plain job.schema job.endpoint job.options) job.source job.size
    job.orphans job.budget state target
  have shown := shows_settle job.schema job.endpoint job.options job.size job.orphans job.budget
    (job.served state) (job.ending state) (target, [])
  have same : job.run state target = _ := unwatched.trans shown
  rw [same]
  exact Prod.ext rfl (Prod.ext rfl (congrArg (·.2.2) watched).symm)

/-- A run takes whatever pages its source serves exactly if the ids under which it creates resources
differ from one another and are free from the start. -/
theorem tolerates_iff : job.Tolerates state target ↔ Fresh target.2 (job.newcomers state target) := by
  have whole := job.watched_eq state target
  unfold newcomers
  rcases read : (allIds (plain job.schema job.endpoint job.options) job.size job.budget).run target
    with ⟨failure | before, after⟩
  · -- the run fails before the source is asked for anything
    have calm := failsOnly_allIds job.schema job.endpoint job.options job.size job.budget target
    rw [read] at calm
    rw [settle, allIds_watching, Action.run_bind, Action.run_zoom_first, read] at whole
    obtain ⟨outcome, rest⟩ := Prod.mk.inj whole
    refine iff_of_true ⟨(Prod.mk.inj rest).2.symm, ?_, ?_⟩ (fresh_nil _)
    · intro other failed conflict
      rw [← outcome] at failed
      cases failed
      exact absurd conflict (calm failure rfl)
    · intro report succeeded
      rw [← outcome] at succeeded
      cases succeeded
  · obtain rfl := allIds_keeps job.schema job.endpoint job.options read
    obtain ⟨copied, last, notes, reported, ended, final, steps, ran, fails, succeeds⟩ :=
      settle_steps job.schema job.endpoint job.options job.orphans (job.served state)
        (job.ending state) read
    obtain ⟨outcome, rest⟩ := Prod.mk.inj (whole.symm.trans ran)
    obtain ⟨store, noted⟩ := Prod.mk.inj rest
    rw [← steps.notes_eq_nil_iff]
    constructor
    · intro tolerates
      exact noted.symm.trans tolerates.noClash
    · intro quiet
      refine ⟨noted.trans quiet, ?_, ?_⟩
      · intro failure failed conflict
        rw [outcome] at failed
        obtain copying | listing | calm := fails failure failed
        · exact absurd conflict (steps.noConflict quiet failure copying)
        · exact listing
        · exact absurd conflict calm
      · intro report succeeded resource held id stated
        have key := (statedId?_eq_some_iff.mp stated).2.2
        rw [outcome] at succeeded
        obtain ⟨rfl, found⟩ := succeeds report succeeded
        rw [store]
        exact found id key (steps.landed key (.inl ⟨resource, held, stated⟩))

end Job

/-- A source that answers its list requests with some pages, one after the other, of three resources
by its own account. -/
def paging : Adapter (List (List Json)) where
  create _ := Action.failWith .wrongType
  read _ := Action.failWith .wrongType
  replace _ _ _ := Action.failWith .wrongType
  delete _ _ := Action.failWith .wrongType
  list _ := fun pages =>
    (.ok { resources := pages.head?.getD [], total := some (.count 3), paginated := true,
           projected := true }, pages.tail)

/-- A run from such a source to a store of users. -/
def pagingJob : Job (List (List Json)) where
  source := .of paging none none {}
  schema := some .user
  endpoint := none
  options := {}
  size := 2
  orphans := false
  budget := 3

/-- A resource that is on the first page and, once it was read, on the second one is to be created
twice. -/
theorem not_tolerates_shifted :
    ¬ pagingJob.Tolerates
      [[.obj [("id", .str "x")], .obj [("id", .str "y")]], [.obj [("id", .str "y")]]]
      ({ instant := 0, tick := 0 }, .empty "User" none "") := by
  intro tolerates
  have clashes := tolerates.noClash
  have shifted : (pagingJob.clashes
      [[.obj [("id", .str "x")], .obj [("id", .str "y")]], [.obj [("id", .str "y")]]]
      ({ instant := 0, tick := 0 }, .empty "User" none "")).isEmpty = false := by decide +kernel
  rw [clashes] at shifted
  cases shifted

end Reconciliation

end Scim
