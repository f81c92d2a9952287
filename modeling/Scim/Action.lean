import Scim.Error

/-!
# Actions on a state

An action works on a state and may fail on the way; what it changed before the failure stays. An
action on a part of a state acts on the whole through a `Slot`.
-/

namespace Scim

/-- A computation that changes a state of type `σ` and may fail. -/
abbrev Action (σ : Type) := ExceptT Failure (StateM σ)

/-- A part of type `α` in a state of type `σ`, with the laws that make it one. -/
structure Slot (σ α : Type) where
  get : σ → α
  set : α → σ → σ
  get_set : ∀ part state, get (set part state) = part
  set_get : ∀ state, set (get state) state = state
  set_set : ∀ first second state, set second (set first state) = set second state

/-- The first part of a pair. -/
def Slot.first {σ τ : Type} : Slot (σ × τ) σ where
  get := Prod.fst
  set part state := (part, state.2)
  get_set _ _ := rfl
  set_get _ := rfl
  set_set _ _ _ := rfl

/-- The second part of a pair. -/
def Slot.second {σ τ : Type} : Slot (σ × τ) τ where
  get := Prod.snd
  set part state := (state.1, part)
  get_set _ _ := rfl
  set_get _ := rfl
  set_set _ _ _ := rfl

namespace Action

variable {σ τ α : Type}

/-- A step that examines the state. -/
def examine (step : σ → Except Failure α) : Action σ α :=
  fun state => (step state, state)

/-- A step that replaces the state, or leaves it as it is if it fails. -/
def update (step : σ → Except Failure σ) : Action σ Unit := fun state =>
  match step state with
  | .ok changed => (.ok (), changed)
  | .error failure => (.error failure, state)

/-- A result that does not depend on the state. -/
def ofExcept (result : Except Failure α) : Action σ α := fun state => (result, state)

/-- Refuses with an error of the protocol. -/
def refuse (error : ScimError) : Action σ α := ofExcept (.error (.scim error))

/-- Fails on data of the wrong shape. -/
def failWith (fault : Fault) : Action σ α := ofExcept (.error (.fault fault))

/-- The outcome of an action, and the state after it. -/
def run (action : Action σ α) (state : σ) : Except Failure α × σ := action state

/-- An action on a part of a state. -/
def zoom (slot : Slot τ σ) (action : Action σ α) : Action τ α := fun state =>
  let (result, part) := action.run (slot.get state)
  (result, slot.set part state)

end Action

end Scim
