import Scim.Patch.Apply
import Scim.Proofs.Action
import Scim.Proofs.Resource.Spellings

/-!
# What a change does to one attribute

A change of a resource consists of many steps, most of which have nothing to do with a
given attribute.  What a change writes to the spellings of a name is said by values to
merge; a change that keeps them writes none.  Changes in sequence write the values of
both, so the effect of a request is put together like the request.
-/

namespace Scim

open Members

/-! ## Writing values -/

namespace Patch

/-- A change writes values to the spellings of a name if these are afterwards as they
are when the values are merged, and its result has a property. -/
def Writes {α : Type} (name : String) (values : Members) (change : Change α)
    (property : α → Prop) : Prop :=
  ∀ resource result after, change.run resource = (.ok result, after) →
    spellings after name = spellings (merge resource values) name ∧ property result

/-- A change keeps the spellings of a name if it writes nothing to them. -/
abbrev Keeps {α : Type} (name : String) (change : Change α)
    (property : α → Prop := fun _ => True) : Prop :=
  Writes name [] change property

variable {α β : Type} {name : String} {values more : Members} {P : α → Prop}
  {Q : β → Prop}

theorem Writes.bind {change : Change α} {next : α → Change β}
    (writes : Writes name values change P)
    (nextWrites : ∀ value, P value → Writes name more (next value) Q) :
    Writes name (values ++ more) (change >>= next) Q := by
  intro resource result after ran
  obtain ⟨value, middle, first, last⟩ := Action.run_bind_eq_ok_iff.mp ran
  obtain ⟨firstEq, holds⟩ := writes resource value middle first
  obtain ⟨lastEq, lastHolds⟩ := nextWrites value holds middle result after last
  refine ⟨?_, lastHolds⟩
  rw [lastEq, merge_append]
  exact spellings_merge_congr firstEq more

/-- What follows a change that keeps the spellings decides what is written. -/
theorem Keeps.bind {change : Change α} {next : α → Change β} (keeps : Keeps name change P)
    (nextWrites : ∀ value, P value → Writes name more (next value) Q) :
    Writes name more (change >>= next) Q :=
  Writes.bind keeps nextWrites

theorem Writes.then {change : Change α} {next : α → Change β}
    (writes : Writes name values change P)
    (nextKeeps : ∀ value, P value → Keeps name (next value) Q) :
    Writes name values (change >>= next) Q := by
  have both := Writes.bind writes nextKeeps
  rwa [List.append_nil] at both

theorem Keeps.pure {value : α} (holds : P value) :
    Keeps name (Pure.pure value : Change α) P := by
  intro resource result after ran
  cases ran
  exact ⟨rfl, holds⟩

theorem Keeps.ofExcept {outcome : Except Failure α}
    (holds : ∀ value, outcome = .ok value → P value) :
    Keeps name (Action.ofExcept outcome : Change α) P := by
  intro resource result after ran
  cases ran
  exact ⟨rfl, holds result rfl⟩

theorem Keeps.examine {step : Members → Except Failure α}
    (holds : ∀ resource value, step resource = .ok value → P value) :
    Keeps name (Action.examine step : Change α) P := by
  intro resource result after ran
  obtain ⟨stepEq, rfl⟩ := Prod.mk.inj ran
  exact ⟨rfl, holds resource result stepEq⟩

theorem Keeps.get {P : Members → Prop} (holds : ∀ resource, P resource) :
    Keeps name (MonadState.get : Change Members) P := by
  intro resource result after ran
  cases ran
  exact ⟨rfl, holds _⟩

theorem Writes.of_modify {change : Members → Members}
    (writes : ∀ resource, spellings (change resource) name =
      spellings (merge resource values) name) :
    Writes name values (modify change : Change PUnit) fun _ => True := by
  intro resource result after ran
  cases ran
  exact ⟨writes resource, trivial⟩

theorem Keeps.update {step : Members → Except Failure Members}
    (keeps : ∀ resource changed, step resource = .ok changed →
      spellings changed name = spellings resource name) :
    Keeps name (Action.update step) := by
  intro resource result after ran
  rw [Action.run_update] at ran
  cases stepEq : step resource with
  | error failure =>
      rw [stepEq] at ran
      cases ran
  | ok changed =>
      rw [stepEq] at ran
      cases ran
      exact ⟨keeps resource _ stepEq, trivial⟩

end Patch

end Scim
