import Scim.Proofs.Action
import Scim.Error

/-!
# When a computation crashes

A computation crashes if it fails on data of the wrong shape and not with a refusal.  It
crashes exactly where one of its parts does: where the first part crashes, or where the
first part has a result and what follows crashes from there.
-/

namespace Scim

variable {σ α β : Type}

/-- Failures that are no refusals, the depth of a recursion aside. -/
def Failure.IsCrash : Failure → Prop
  | .scim _ => False
  | .fault cause => cause ≠ .tooDeep

instance (failure : Failure) : Decidable failure.IsCrash :=
  match failure with
  | .scim _ => inferInstanceAs (Decidable False)
  | .fault cause => inferInstanceAs (Decidable (cause ≠ .tooDeep))

/-- Whether an outcome is a crash. -/
def Crashes : Except Failure α → Prop
  | .ok _ => False
  | .error failure => failure.IsCrash

instance (outcome : Except Failure α) : Decidable (Crashes outcome) :=
  match outcome with
  | .ok _ => inferInstanceAs (Decidable False)
  | .error failure => inferInstanceAs (Decidable failure.IsCrash)

section

variable {outcome : Except Failure α} {next : α → Except Failure β}

@[simp] theorem not_crashes_ok (value : α) : ¬ Crashes (.ok value : Except Failure α) := nofun

@[simp] theorem not_crashes_pure (value : α) : ¬ Crashes (pure value : Except Failure α) := nofun

@[simp] theorem not_crashes_refuse (error : ScimError) :
    ¬ Crashes (refuse error : Except Failure α) := nofun

theorem crashes_failWith {fault : Fault} (other : fault ≠ .tooDeep) :
    Crashes (failWith fault : Except Failure α) := other

/-- A composed outcome is a crash exactly if one of its parts is. -/
theorem crashes_bind_iff :
    Crashes (outcome >>= next) ↔
      Crashes outcome ∨ ∃ value, outcome = .ok value ∧ Crashes (next value) := by
  cases outcome with
  | error failure =>
      constructor
      · exact .inl
      · rintro (crashed | ⟨_, equal, _⟩)
        · exact crashed
        · cases equal
  | ok value =>
      constructor
      · intro crashed
        exact .inr ⟨value, rfl, crashed⟩
      · rintro (crashed | ⟨_, equal, crashed⟩)
        · exact crashed.elim
        · cases equal
          exact crashed

/-- What follows an outcome without crashing leaves the crashes as they are. -/
theorem crashes_bind_of_safe (safe : ∀ value, ¬ Crashes (next value)) :
    Crashes (outcome >>= next) ↔ Crashes outcome := by
  rw [crashes_bind_iff]
  constructor
  · rintro (crashed | ⟨value, _, crashed⟩)
    · exact crashed
    · exact absurd crashed (safe value)
  · exact .inl

theorem crashes_map_iff {f : α → β} : Crashes (outcome.map f) ↔ Crashes outcome := by
  cases outcome <;> rfl

/-- A search crashes at the first item that neither ends it nor lets it go on. -/
theorem crashes_anyM_iff {test : α → Except Failure Bool} {items : List α} :
    Crashes (items.anyM test) ↔
      ∃ before item after, items = before ++ item :: after ∧
        (∀ other ∈ before, test other = .ok false) ∧ Crashes (test item) := by
  induction items with
  | nil =>
      constructor
      · exact False.elim
      · rintro ⟨before, item, after, whole, _⟩
        cases before <;> cases whole
  | cons head rest ih =>
      rw [List.anyM_cons, crashes_bind_iff]
      constructor
      · rintro (crashed | ⟨found, tested, crashed⟩)
        · exact ⟨[], head, rest, rfl, nofun, crashed⟩
        · cases found with
          | true => exact crashed.elim
          | false =>
              obtain ⟨before, item, after, rfl, passed, crashed⟩ := ih.mp crashed
              exact ⟨head :: before, item, after, rfl, List.forall_mem_cons.mpr ⟨tested, passed⟩,
                crashed⟩
      · rintro ⟨before, item, after, whole, passed, crashed⟩
        cases before with
        | nil =>
            cases whole
            exact .inl crashed
        | cons other before =>
            cases whole
            obtain ⟨tested, passed⟩ := List.forall_mem_cons.mp passed
            exact .inr ⟨false, tested, ih.mpr ⟨before, item, after, rfl, passed, crashed⟩⟩

end

/-! ## Actions -/

namespace Action

/-- Whether an action crashes in a state. -/
def CrashesAt (action : Action σ α) (state : σ) : Prop := Crashes (action.run state).1

instance (action : Action σ α) (state : σ) : Decidable (action.CrashesAt state) :=
  inferInstanceAs (Decidable (Crashes _))

variable {action : Action σ α} {next : α → Action σ β} {state : σ}

@[simp] theorem not_crashesAt_pure (value : α) : ¬ (pure value : Action σ α).CrashesAt state :=
  nofun

theorem crashesAt_bind_iff :
    (action >>= next).CrashesAt state ↔ action.CrashesAt state ∨
      ∃ value after, action.run state = (.ok value, after) ∧ (next value).CrashesAt after := by
  rw [CrashesAt, CrashesAt, run_bind]
  rcases action.run state with ⟨failure | value, after⟩
  · constructor
    · exact .inl
    · rintro (crashed | ⟨_, _, equal, _⟩)
      · exact crashed
      · cases equal
  · constructor
    · intro crashed
      exact .inr ⟨value, after, rfl, crashed⟩
    · rintro (crashed | ⟨_, _, equal, crashed⟩)
      · exact crashed.elim
      · cases equal
        exact crashed

theorem crashesAt_bind_of_ok {value : α} {after : σ} (ran : action.run state = (.ok value, after)) :
    (action >>= next).CrashesAt state ↔ (next value).CrashesAt after := by
  rw [CrashesAt, run_bind_ok ran]
  rfl

theorem crashesAt_bind_of_safe (safe : ∀ value after, ¬ (next value).CrashesAt after) :
    (action >>= next).CrashesAt state ↔ action.CrashesAt state := by
  rw [crashesAt_bind_iff]
  constructor
  · rintro (crashed | ⟨value, after, _, crashed⟩)
    · exact crashed
    · exact absurd crashed (safe value after)
  · exact .inl

theorem crashesAt_update_iff {step : σ → Except Failure σ} :
    (Action.update step).CrashesAt state ↔ Crashes (step state) := by
  rw [CrashesAt, run_update]
  cases step state <;> rfl

theorem crashesAt_modify_bind {change : σ → σ} {next : PUnit → Action σ β} :
    (modify change >>= next : Action σ β).CrashesAt state ↔
      (next ⟨⟩).CrashesAt (change state) := by
  have ran : (modify change : Action σ PUnit).run state = (.ok ⟨⟩, change state) := rfl
  exact crashesAt_bind_of_ok ran

theorem crashesAt_get_bind {next : σ → Action σ β} :
    (get >>= next : Action σ β).CrashesAt state ↔ (next state).CrashesAt state :=
  crashesAt_bind_of_ok (run_get state)

theorem crashesAt_examine_bind {step : σ → Except Failure α} :
    (Action.examine step >>= next).CrashesAt state ↔
      Crashes (step state) ∨ ∃ value, step state = .ok value ∧ (next value).CrashesAt state := by
  rw [crashesAt_bind_iff]
  constructor
  · rintro (crashed | ⟨value, after, ran, crashed⟩)
    · exact .inl crashed
    · obtain ⟨equal, rfl⟩ := Prod.mk.inj ran
      exact .inr ⟨value, equal, crashed⟩
  · rintro (crashed | ⟨value, equal, crashed⟩)
    · exact .inl crashed
    · exact .inr ⟨value, state, by rw [run_examine, equal], crashed⟩

theorem crashesAt_ofExcept_bind {outcome : Except Failure α} :
    (Action.ofExcept outcome >>= next).CrashesAt state ↔
      Crashes outcome ∨ ∃ value, outcome = .ok value ∧ (next value).CrashesAt state := by
  have same : (Action.ofExcept outcome : Action σ α) = Action.examine fun _ => outcome := rfl
  rw [same, crashesAt_examine_bind]

/-- Actions in a row crash where one of them crashes after those before it. -/
theorem crashesAt_forM_iff {each : α → Action σ PUnit} {items : List α} :
    (forM items each).CrashesAt state ↔
      ∃ before item after middle, items = before ++ item :: after ∧
        (forM before each).run state = (.ok ⟨⟩, middle) ∧ (each item).CrashesAt middle := by
  induction items generalizing state with
  | nil =>
      refine iff_of_false (not_crashes_ok _) ?_
      rintro ⟨before, item, after, middle, whole, _⟩
      cases before <;> cases whole
  | cons head rest ih =>
      rw [List.forM_cons, crashesAt_bind_iff]
      constructor
      · rintro (crashed | ⟨_, next, ran, crashed⟩)
        · exact ⟨[], head, rest, state, rfl, rfl, crashed⟩
        · obtain ⟨before, item, after, middle, rfl, reached, crashed⟩ := ih.mp crashed
          refine ⟨head :: before, item, after, middle, rfl, ?_, crashed⟩
          rw [List.forM_cons, run_bind_ok ran, reached]
      · rintro ⟨before, item, after, middle, whole, reached, crashed⟩
        cases before with
        | nil =>
            cases whole
            cases reached
            exact .inl crashed
        | cons other before =>
            cases whole
            rw [List.forM_cons] at reached
            obtain ⟨_, next, ran, reached⟩ := run_bind_eq_ok_iff.mp reached
            exact .inr ⟨_, next, ran, ih.mpr ⟨before, item, after, middle, rfl, reached, crashed⟩⟩

end Action

end Scim
