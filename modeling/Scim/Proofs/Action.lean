import Scim.Action

/-!
# Running actions

The outcome of each way to build an action, as an equation about `run`.  Proofs
about a composed action rewrite with these and never open the monad itself.
-/

namespace Scim

variable {σ τ α β : Type}

/-- A composed outcome is a result exactly if both of its parts are. -/
theorem bind_eq_ok_iff {ε : Type} {outcome : Except ε α} {next : α → Except ε β} {result : β} :
    (outcome >>= next) = .ok result ↔ ∃ value, outcome = .ok value ∧ next value = .ok result := by
  cases outcome with
  | error failure =>
      constructor
      · intro equal
        cases equal
      · rintro ⟨_, equal, _⟩
        cases equal
  | ok value =>
      constructor
      · intro equal
        exact ⟨value, rfl, equal⟩
      · rintro ⟨_, equal, rest⟩
        cases equal
        exact rest

/-- A mapped outcome is a result exactly if the outcome is. -/
theorem map_eq_ok_iff {ε : Type} {outcome : Except ε α} {f : α → β} {result : β} :
    outcome.map f = .ok result ↔ ∃ value, outcome = .ok value ∧ f value = result := by
  cases outcome <;> simp [Except.map]

theorem exists_eq_ok_of_isOk {ε : Type} {outcome : Except ε α} (isOk : outcome.isOk = true) :
    ∃ value, outcome = .ok value := by
  cases outcome with
  | error failure => cases isOk
  | ok value => exact ⟨value, rfl⟩

theorem eq_ok_of_toOption {ε : Type} {outcome : Except ε α} {result : α}
    (found : outcome.toOption = some result) : outcome = .ok result := by
  cases outcome with
  | error failure => cases found
  | ok value => exact congrArg Except.ok (Option.some.inj found)

namespace Action

theorem exists_run_of_isOk {action : Action σ α} {state : σ}
    (isOk : (action.run state).1.isOk = true) :
    ∃ value after, action.run state = (.ok value, after) := by
  obtain ⟨value, found⟩ := exists_eq_ok_of_isOk isOk
  exact ⟨value, (action.run state).2, Prod.ext found rfl⟩

@[simp] theorem run_pure (value : α) (state : σ) :
    (pure value : Action σ α).run state = (.ok value, state) := rfl

theorem run_bind (action : Action σ α) (next : α → Action σ β) (state : σ) :
    (action >>= next).run state =
      match action.run state with
      | (.ok value, after) => (next value).run after
      | (.error failure, after) => (.error failure, after) := by
  change (ExceptT.bindCont next (action.run state).1 : σ → _) (action.run state).2 = _
  rcases action.run state with ⟨outcome, after⟩
  cases outcome <;> rfl

theorem run_bind_ok {action : Action σ α} {state after : σ} {value : α}
    (ran : action.run state = (.ok value, after)) (next : α → Action σ β) :
    (action >>= next).run state = (next value).run after := by
  rw [run_bind, ran]

theorem run_bind_error {action : Action σ α} {state after : σ} {failure : Failure}
    (ran : action.run state = (.error failure, after)) (next : α → Action σ β) :
    (action >>= next).run state = (.error failure, after) := by
  rw [run_bind, ran]

/-- An action composed of two has a result exactly if both have. -/
theorem run_bind_eq_ok_iff {action : Action σ α} {next : α → Action σ β} {state after : σ}
    {value : β} :
    (action >>= next).run state = (.ok value, after) ↔
      ∃ first middle, action.run state = (.ok first, middle) ∧
        (next first).run middle = (.ok value, after) := by
  rw [run_bind]
  rcases action.run state with ⟨outcome, middle⟩
  cases outcome with
  | ok first =>
      constructor
      · intro ran
        exact ⟨first, middle, rfl, ran⟩
      · rintro ⟨_, _, equal, ran⟩
        cases equal
        exact ran
  | error failure =>
      constructor
      · intro ran
        cases ran
      · rintro ⟨_, _, equal, _⟩
        cases equal

@[simp] theorem run_examine (step : σ → Except Failure α) (state : σ) :
    (examine step).run state = (step state, state) := rfl

@[simp] theorem run_ofExcept (result : Except Failure α) (state : σ) :
    (ofExcept result : Action σ α).run state = (result, state) := rfl

theorem run_update (step : σ → Except Failure σ) (state : σ) :
    (update step).run state =
      match step state with
      | .ok changed => (.ok (), changed)
      | .error failure => (.error failure, state) := rfl

@[simp] theorem run_get (state : σ) : (get : Action σ σ).run state = (.ok state, state) := rfl

/-! ## Invariants -/

/-- Whether an action that has a result maintains an invariant of the state, and its result
has a property. -/
def Maintains (invariant : σ → Prop) (action : Action σ α)
    (property : α → Prop := fun _ => True) : Prop :=
  ∀ state result after, action.run state = (.ok result, after) → invariant state →
    invariant after ∧ property result

section

variable {invariant : σ → Prop} {P : α → Prop} {Q : β → Prop}

theorem Maintains.bind {action : Action σ α} {next : α → Action σ β}
    (first : Maintains invariant action P) (last : ∀ value, P value → Maintains invariant (next value) Q) :
    Maintains invariant (action >>= next) Q := by
  intro state result after ran holds
  obtain ⟨value, middle, firstRan, lastRan⟩ := run_bind_eq_ok_iff.mp ran
  obtain ⟨holds, property⟩ := first state value middle firstRan holds
  exact last value property middle result after lastRan holds

theorem Maintains.pure {value : α} (property : P value) :
    Maintains invariant (Pure.pure value : Action σ α) P := by
  intro state result after ran holds
  cases ran
  exact ⟨holds, property⟩

theorem Maintains.ofExcept {outcome : Except Failure α}
    (property : ∀ value, outcome = .ok value → P value) :
    Maintains invariant (Action.ofExcept outcome) P := by
  intro state result after ran holds
  cases ran
  exact ⟨holds, property result rfl⟩

theorem Maintains.examine {step : σ → Except Failure α}
    (property : ∀ state value, invariant state → step state = .ok value → P value) :
    Maintains invariant (Action.examine step) P := by
  intro state result after ran holds
  obtain ⟨stepEq, rfl⟩ := Prod.mk.inj ran
  exact ⟨holds, property state result holds stepEq⟩

theorem Maintains.get : Maintains invariant (MonadState.get : Action σ σ) := by
  intro state result after ran holds
  cases ran
  exact ⟨holds, trivial⟩

theorem Maintains.modify {change : σ → σ} (kept : ∀ state, invariant state → invariant (change state)) :
    Maintains invariant (modify change : Action σ PUnit) := by
  intro state result after ran holds
  cases ran
  exact ⟨kept state holds, trivial⟩

theorem Maintains.update {step : σ → Except Failure σ}
    (kept : ∀ state changed, invariant state → step state = .ok changed → invariant changed) :
    Maintains invariant (Action.update step) := by
  intro state result after ran holds
  rw [run_update] at ran
  cases stepEq : step state with
  | error failure =>
      rw [stepEq] at ran
      cases ran
  | ok changed =>
      rw [stepEq] at ran
      cases ran
      exact ⟨kept state _ holds stepEq, trivial⟩

end

/-! ## Actions on a part of the state -/

theorem run_zoom (slot : Slot τ σ) (action : Action σ α) (state : τ) :
    (action.zoom slot).run state =
      ((action.run (slot.get state)).1, slot.set (action.run (slot.get state)).2 state) := rfl

theorem run_zoom_of_run (slot : Slot τ σ) {action : Action σ α} {state : τ} {after : σ}
    {outcome : Except Failure α} (ran : action.run (slot.get state) = (outcome, after)) :
    (action.zoom slot).run state = (outcome, slot.set after state) := by
  rw [run_zoom, ran]

theorem run_zoom_first (action : Action σ α) (state : σ) (other : τ) :
    (action.zoom .first).run (state, other) =
      ((action.run state).1, (action.run state).2, other) := rfl

theorem run_zoom_second (action : Action τ α) (state : σ) (other : τ) :
    (action.zoom .second).run (state, other) =
      ((action.run other).1, state, (action.run other).2) := rfl

theorem zoom_ofExcept (slot : Slot τ σ) (result : Except Failure α) :
    (ofExcept result : Action σ α).zoom slot = ofExcept result := by
  funext state
  change (result, slot.set (slot.get state) state) = (result, state)
  rw [slot.set_get]

theorem zoom_pure (slot : Slot τ σ) (value : α) :
    (pure value : Action σ α).zoom slot = pure value :=
  zoom_ofExcept slot (.ok value)

/-- An action composed of two acts on a part as the two do there one after the other. -/
theorem zoom_bind (slot : Slot τ σ) (action : Action σ α) (next : α → Action σ β) :
    (action >>= next).zoom slot = action.zoom slot >>= fun value => (next value).zoom slot := by
  funext state
  change ((action >>= next).zoom slot).run state =
    (action.zoom slot >>= fun value => (next value).zoom slot).run state
  rw [run_zoom, run_bind, run_bind, run_zoom]
  cases ran : action.run (slot.get state) with
  | mk outcome middle =>
      cases outcome with
      | error failure => rfl
      | ok value =>
          dsimp only
          rw [run_zoom, slot.get_set, slot.set_set]

/-! ## Views of a state -/

variable {ρ : Type}

/-- Whether an action does to a state what another one does to a view of it. -/
def Shows (view : σ → τ) (action : Action σ α) (shown : Action τ α) : Prop :=
  ∀ state, shown.run (view state) = ((action.run state).1, view (action.run state).2)

namespace Shows

variable {view : σ → τ} {action : Action σ α} {shown : Action τ α}

theorem ofExcept (outcome : Except Failure α) :
    Shows view (Action.ofExcept outcome) (Action.ofExcept outcome) := fun _ => rfl

theorem pure (value : α) : Shows view (Pure.pure value) (Pure.pure value) := fun _ => rfl

theorem bind {next : α → Action σ β} {nextShown : α → Action τ β} (first : Shows view action shown)
    (later : ∀ value, Shows view (next value) (nextShown value)) :
    Shows view (action >>= next) (shown >>= nextShown) := by
  intro state
  rw [run_bind, run_bind, first state]
  rcases action.run state with ⟨_ | value, after⟩
  · rfl
  · exact later value after

theorem ite {condition : Prop} [Decidable condition] {other : Action σ α} {otherShown : Action τ α}
    (yes : Shows view action shown) (no : Shows view other otherShown) :
    Shows view (if condition then action else other) (if condition then shown else otherShown) := by
  split
  · exact yes
  · exact no

/-- What is done to one of two states is seen in the view that leaves out the other one. -/
theorem zoom_first (action : Action σ α) :
    Shows (Prod.fst : σ × ρ → σ) (action.zoom .first) action := fun _ => rfl

/-- An action on a part of the state is seen in a view of the part. -/
theorem beside (shows : Shows view action shown) :
    Shows (Prod.map view (id : ρ → ρ)) (action.zoom .first) (shown.zoom .first) := by
  rintro ⟨state, rest⟩
  have first := shows state
  change ((shown.run (view state)).1, (shown.run (view state)).2, rest) = _
  rw [first]
  rfl

theorem modify_second (change : ρ → ρ) :
    Shows (Prod.map view (id : ρ → ρ)) (modify fun state => (state.1, change state.2))
      (modify fun state => (state.1, change state.2)) := fun _ => rfl

end Shows

end Action

end Scim
