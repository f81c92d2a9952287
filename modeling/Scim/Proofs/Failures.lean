import Scim.Proofs.Crashes
import Scim.Proofs.Outcome
import Scim.Service
import Scim.Store.Memory

/-!
# How outcomes fail

What can go wrong in a computation is found from its parts: each rule here says of one way to
compose outcomes or actions that it fails only as its parts do.  Projecting an object for all
of its attributes or for its id, for instance, fails on data of the wrong shape only.
-/

namespace Scim

variable {σ τ α β : Type} {P Q : Failure → Prop}

/-- Failures from data of the wrong shape. -/
def Failure.IsFault (failure : Failure) : Prop := ∃ fault, failure = .fault fault

/-- Refusals of a resource that is there already. -/
def Failure.IsConflict (failure : Failure) : Prop :=
  ∃ error, failure = .scim error ∧ error.kind = .conflict

theorem Failure.IsCrash.isFault {failure : Failure} (crash : failure.IsCrash) : failure.IsFault := by
  cases failure with
  | scim error => exact crash.elim
  | fault cause => exact ⟨cause, rfl⟩

theorem Failure.IsFault.not_isConflict {failure : Failure} (isFault : failure.IsFault) :
    ¬ failure.IsConflict := by
  obtain ⟨fault, rfl⟩ := isFault
  rintro ⟨error, equal, _⟩
  cases equal

/-! ## Outcomes -/

/-- Whether an outcome, if it is a failure, is one of some failures. -/
def FailsOnly (P : Failure → Prop) (outcome : Except Failure α) : Prop :=
  ∀ failure, outcome = .error failure → P failure

namespace FailsOnly

theorem ok (value : α) : FailsOnly P (.ok value) := nofun

theorem error {failure : Failure} (allowed : P failure) :
    FailsOnly P (.error failure : Except Failure α) := by
  rintro _ ⟨⟩
  exact allowed

theorem failWith (fault : Fault) :
    FailsOnly Failure.IsFault (Scim.failWith fault : Except Failure α) := error ⟨fault, rfl⟩

theorem crash {fault : Fault} (other : fault ≠ .tooDeep) :
    FailsOnly Failure.IsCrash (Scim.failWith fault : Except Failure α) :=
  error (crashes_failWith (α := α) other)

/-- A refusal of another kind is no conflict. -/
theorem refuse {error : ScimError} (other : error.kind ≠ .conflict) :
    FailsOnly (¬ ·.IsConflict) (Scim.refuse error : Except Failure α) := by
  apply FailsOnly.error
  rintro ⟨_, ⟨⟩, conflict⟩
  exact other conflict

theorem mono {outcome : Except Failure α} (fails : FailsOnly P outcome)
    (weaker : ∀ failure, P failure → Q failure) : FailsOnly Q outcome :=
  fun failure equal => weaker failure (fails failure equal)

theorem fault {outcome : Except Failure α} (fails : FailsOnly Failure.IsCrash outcome) :
    FailsOnly Failure.IsFault outcome := fails.mono fun _ => Failure.IsCrash.isFault

theorem noConflict {outcome : Except Failure α} (fails : FailsOnly Failure.IsFault outcome) :
    FailsOnly (¬ ·.IsConflict) outcome := fails.mono fun _ => Failure.IsFault.not_isConflict

theorem bind {outcome : Except Failure α} {next : α → Except Failure β}
    (first : FailsOnly P outcome)
    (last : ∀ value, outcome = .ok value → FailsOnly P (next value)) :
    FailsOnly P (outcome >>= next) := by
  cases outcome with
  | error failure => exact error (first failure rfl)
  | ok value => exact last value rfl

theorem map {outcome : Except Failure α} (fails : FailsOnly P outcome) (f : α → β) :
    FailsOnly P (outcome.map f) := by
  cases outcome with
  | error failure => exact error (fails failure rfl)
  | ok value => exact ok (f value)

theorem mapM {f : α → Except Failure β} {items : List α}
    (each : ∀ item ∈ items, FailsOnly P (f item)) : FailsOnly P (items.mapM f) := by
  induction items with
  | nil => exact ok []
  | cons item rest ih =>
      obtain ⟨first, later⟩ := List.forall_mem_cons.mp each
      rw [List.mapM_cons]
      apply bind first
      intro result _
      apply bind (ih later)
      intro results _
      exact ok (result :: results)

theorem anyM {test : α → Except Failure Bool} {items : List α}
    (each : ∀ item ∈ items, FailsOnly P (test item)) : FailsOnly P (items.anyM test) := by
  induction items with
  | nil => exact ok false
  | cons item rest ih =>
      obtain ⟨first, later⟩ := List.forall_mem_cons.mp each
      rw [List.anyM_cons]
      apply bind first
      intro found _
      cases found with
      | true => exact ok true
      | false => exact ih later

theorem foldlM {f : β → α → Except Failure β} (each : ∀ value item, FailsOnly P (f value item))
    (items : List α) (start : β) : FailsOnly P (items.foldlM f start) := by
  induction items generalizing start with
  | nil => exact ok start
  | cons item rest ih =>
      rw [List.foldlM_cons]
      exact bind (each start item) fun value _ => ih value

/-- What fails by crashing only and does not crash has a result. -/
theorem exists_ok {outcome : Except Failure α} (fails : FailsOnly Failure.IsCrash outcome)
    (safe : ¬ Crashes outcome) : ∃ value, outcome = .ok value := by
  cases outcome with
  | error failure => exact absurd (fails failure rfl) safe
  | ok value => exact ⟨value, rfl⟩

end FailsOnly

theorem not_crashes_iff {outcome : Except Failure α} :
    ¬ Crashes outcome ↔ FailsOnly (¬ ·.IsCrash) outcome := by
  cases outcome with
  | error failure =>
      constructor
      · exact fun safe => .error safe
      · exact fun fails => fails failure rfl
  | ok value => exact iff_of_true (not_crashes_ok value) (.ok value)

theorem not_crashes_mapM {f : α → Except Failure β} {items : List α}
    (safe : ∀ item ∈ items, ¬ Crashes (f item)) : ¬ Crashes (items.mapM f) :=
  not_crashes_iff.mpr (.mapM fun item held => not_crashes_iff.mp (safe item held))

/-- A list of tests that fail by crashing only crashes exactly if one of them does. -/
theorem crashes_filterM_iff {test : α → Except Failure Bool} {items : List α}
    (fails : ∀ item ∈ items, FailsOnly Failure.IsCrash (test item)) :
    Crashes (items.filterM test) ↔ ∃ item ∈ items, Crashes (test item) := by
  have tested (before : List α) :
      Crashes (items.filterAuxM test before) ↔ ∃ item ∈ items, Crashes (test item) := by
    induction items generalizing before with
    | nil => exact iff_of_false (not_crashes_ok _) (by simp)
    | cons item rest ih =>
        obtain ⟨first, later⟩ := List.forall_mem_cons.mp fails
        rw [List.filterAuxM, crashes_bind_iff, List.exists_mem_cons_iff]
        constructor
        · rintro (crashed | ⟨_, _, crashed⟩)
          · exact .inl crashed
          · exact .inr ((ih later _).mp crashed)
        · by_cases crashed : Crashes (test item)
          · exact fun _ => .inl crashed
          · obtain ⟨answer, tested⟩ := first.exists_ok crashed
            rintro (now | others)
            · exact absurd now crashed
            · exact .inr ⟨answer, tested, (ih later _).mpr others⟩
  rw [List.filterM, crashes_bind_of_safe fun _ => not_crashes_pure _, tested]

/-! ## Actions -/

namespace Action

/-- Whether an action, wherever it fails, fails with one of some failures. -/
def FailsOnly (P : Failure → Prop) (action : Action σ α) : Prop :=
  ∀ state, Scim.FailsOnly P (action.run state).1

namespace FailsOnly

theorem ofExcept {outcome : Except Failure α} (fails : Scim.FailsOnly P outcome) :
    (Action.ofExcept outcome : Action σ α).FailsOnly P := fun _ => fails

theorem pure (value : α) : (Pure.pure value : Action σ α).FailsOnly P :=
  fun _ => Scim.FailsOnly.ok value

theorem of_ok {action : Action σ α} (succeeds : ∀ state, ∃ value, (action.run state).1 = .ok value) :
    action.FailsOnly P := by
  intro state failure failed
  obtain ⟨value, ran⟩ := succeeds state
  rw [ran] at failed
  cases failed

theorem examine {step : σ → Except Failure α} (fails : ∀ state, Scim.FailsOnly P (step state)) :
    (Action.examine step).FailsOnly P := fails

theorem change (f : σ → σ) : (modify f : Action σ PUnit).FailsOnly P :=
  fun _ => Scim.FailsOnly.ok PUnit.unit

theorem update {step : σ → Except Failure σ} (fails : ∀ state, Scim.FailsOnly P (step state)) :
    (Action.update step).FailsOnly P := by
  intro state
  rw [run_update]
  cases stepped : step state with
  | ok after => exact Scim.FailsOnly.ok ()
  | error failure => exact Scim.FailsOnly.error (fails state failure stepped)

theorem bind {action : Action σ α} {next : α → Action σ β} (first : action.FailsOnly P)
    (last : ∀ state value after, action.run state = (.ok value, after) →
      (next value).FailsOnly P) : (action >>= next).FailsOnly P := by
  intro state
  rw [run_bind]
  rcases ran : action.run state with ⟨outcome, after⟩
  cases outcome with
  | error failure =>
      apply Scim.FailsOnly.error
      exact first state failure (by rw [ran])
  | ok value => exact last state value after ran after

theorem zoom {action : Action σ α} (fails : action.FailsOnly P) (slot : Slot τ σ) :
    (action.zoom slot).FailsOnly P := fun state => fails (slot.get state)

end FailsOnly

end Action

/-! ## Projections -/

/-- Asking for an attribute fails by crashing only. -/
theorem Json.crashesOnly_attrOf (value : Json) (name : String) :
    FailsOnly Failure.IsCrash (value.attrOf name) := by
  unfold attrOf
  split
  · exact .ok _
  · split
    · exact .crash (by decide)
    · split
      · exact .ok _
      · exact .crash (by decide)
      · exact .crash (by decide)
  · split
    · exact .crash (by decide)
    · exact .ok _
  · exact .crash (by decide)

theorem Json.failsOnly_attrOf (value : Json) (name : String) :
    FailsOnly Failure.IsFault (value.attrOf name) := (value.crashesOnly_attrOf name).fault

theorem Json.failsOnly_listed (value : Json) : FailsOnly Failure.IsFault value.listed := by
  unfold listed
  split
  · exact .ok _
  · split
    · exact .ok _
    · exact .ok _
    · exact .ok _
    · exact .failWith _

namespace Members

theorem failsOnly_schema? (resource : Members) : FailsOnly Failure.IsFault (schema? resource) :=
  .bind (Json.failsOnly_listed _) fun _ _ => .ok _

/-- Asking for the first declared URN fails by crashing only. -/
theorem failsOnly_isCoreUri (resource : Members) (uri : String) :
    FailsOnly Failure.IsCrash (isCoreUri resource uri) := by
  unfold isCoreUri
  split
  · exact .ok _
  · generalize (get? resource "schemas").getD .null = schemas
    dsimp only
    split
    · exact .ok _
    · split
      · exact .ok _
      · exact .ok _
      · exact .ok _
      · exact .crash (by decide)
      · exact .crash (by decide)

end Members

namespace Projection

theorem failsOnly_source? {φ : Type} (resource : Members) (path : PathOf φ) :
    FailsOnly Failure.IsFault (source? resource path) := by
  unfold source?
  split
  · exact .ok _
  · next uri _ =>
    apply FailsOnly.bind
      (Members.failsOnly_isCoreUri resource uri).fault
    intro core _
    split
    · exact .ok _
    · split
      · exact .ok _
      · split <;> exact .ok _

theorem failsOnly_copyPath (resource target : Members) (path : AttributePath) :
    FailsOnly Failure.IsFault (copyPath resource target path) := by
  unfold copyPath
  apply FailsOnly.bind (failsOnly_source? resource path)
  intro source _
  split
  · exact .ok _
  · split
    · exact .ok _
    · exact .ok _
    · exact .ok _
    · split <;> exact .ok _

theorem failsOnly_dropPath {φ : Type} (resource : Members) (path : PathOf φ) :
    FailsOnly Failure.IsFault (dropPath resource path) := by
  unfold dropPath
  apply FailsOnly.bind (failsOnly_source? resource path)
  intro source _
  split
  · exact .ok _
  · split <;> exact .ok _

theorem failsOnly_dropHidden (schema : Option ResourceSchema) (resource : Members) :
    FailsOnly Failure.IsFault (dropHidden schema resource) := by
  unfold dropHidden
  split
  · exact .ok _
  · exact .foldlM (fun result _ => failsOnly_dropPath result _) _ resource

theorem failsOnly_only_id (resource : Members) (schema : Option ResourceSchema) :
    FailsOnly Failure.IsFault (only resource schema ["id"]) := by
  have parsed : (PathOf.parse "id" : Except Failure AttributePath) = .ok (.plain "id") := rfl
  have whole : only resource schema ["id"] =
      copyPath resource (required resource schema) (.plain "id") := by
    change (do copyPath resource _ (← PathOf.parse "id")) >>= _ = _
    rw [parsed]
    exact bind_pure _
  rw [whole]
  exact failsOnly_copyPath _ _ _

end Projection

/-- Projecting an object for all of its attributes, or for its id, fails on data of the wrong shape
only. -/
theorem failsOnly_project (resource : Members) {attributes : List String}
    (asked : attributes = [] ∨ attributes = ["id"]) (schema : Option ResourceSchema) :
    FailsOnly Failure.IsFault ((Json.obj resource).project attributes [] schema) := by
  have whole : Scim.project resource attributes [] schema =
      (schema.elim (Members.schema? resource) (.ok ∘ some) >>= fun schema =>
        (if attributes.isEmpty then .ok resource
          else Projection.only resource schema attributes) >>= fun projected =>
            Projection.dropHidden schema projected) := by
    cases schema <;> rw [project] <;> split <;> rfl
  apply FailsOnly.map
  rw [whole]
  apply FailsOnly.bind
  · cases schema with
    | some schema => exact .ok _
    | none => exact Members.failsOnly_schema? resource
  · intro schema _
    apply FailsOnly.bind
    · cases asked with
      | inl all =>
          subst all
          exact .ok resource
      | inr id =>
          subst id
          exact Projection.failsOnly_only_id resource schema
    · intro projected _
      exact Projection.failsOnly_dropHidden schema projected

/-! ## Services -/

namespace Service

theorem failsOnly_present (service : Service σ) (members : Members) :
    FailsOnly Failure.IsFault (service.present (.obj members)) :=
  failsOnly_project members (.inl rfl) service.schema

theorem failsOnly_prepare (service : Service σ) (resource : Json) :
    FailsOnly Failure.IsFault (service.prepare resource) := by
  unfold Service.prepare
  split
  · split
    · exact .ok _
    · exact .failWith _
  · exact .ok _

end Service

/-! ## Memory stores -/

theorem Json.failsOnly_asResource (value : Json) :
    FailsOnly Failure.IsFault value.asResource := by
  unfold asResource
  split
  · exact .ok _
  · exact .failWith _

namespace MemoryStore

theorem failsOnly_asStorable (resource : Json) :
    FailsOnly Failure.IsFault (asStorable resource) :=
  .bind (resource.failsOnly_attrOf "id") fun _ _ => resource.failsOnly_asResource

theorem failsOnly_lookup (store : MemoryStore) (id : Json) :
    FailsOnly Failure.IsFault (store.lookup id) := by
  unfold lookup
  split
  · exact .ok _
  · exact .failWith _

theorem failsOnly_fetchVersion (store : MemoryStore) (id version : Json) :
    FailsOnly (¬ ·.IsConflict) (store.fetchVersion id version) := by
  have fetched : FailsOnly (¬ ·.IsConflict) (store.fetch id) := by
    apply FailsOnly.bind (store.failsOnly_lookup id).noConflict
    intro found _
    cases found with
    | some stored => exact .ok stored
    | none => exact .refuse nofun
  apply FailsOnly.bind fetched
  intro stored _
  dsimp only
  split
  · exact .refuse nofun
  · exact .ok stored

theorem failsOnly_replace (id resource version : Json) :
    (adapter.replace id resource version).FailsOnly (¬ ·.IsConflict) := by
  change (replace id resource version).FailsOnly _
  unfold replace
  apply Action.FailsOnly.bind
  · exact .examine fun state => failsOnly_fetchVersion state.2 id version
  · intro _ current _ _
    apply Action.FailsOnly.bind (.ofExcept (failsOnly_asStorable resource).noConflict)
    intro _ members _ _
    exact .of_ok fun state => ⟨_, rfl⟩

theorem failsOnly_delete (id version : Json) :
    (adapter.delete id version).FailsOnly (¬ ·.IsConflict) := by
  change (delete id version).FailsOnly _
  unfold delete
  apply Action.FailsOnly.bind
  · exact .examine fun state => failsOnly_fetchVersion state.2 id version
  · intro _ current _ _
    exact .of_ok fun state => ⟨_, rfl⟩

end MemoryStore

end Scim
