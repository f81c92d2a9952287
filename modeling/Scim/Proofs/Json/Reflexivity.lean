import Scim.Proofs.Json.Sameness
import Scim.Proofs.Resource.Places

/-!
# Values that are the same as themselves

Sameness looks each member of an object up by its name.  In a value whose objects have each name
once the look-up finds the member itself, so that such a value is the same as itself.
-/

namespace Scim.Json

open Members

variable {value : Json} {items : List Json} {members : Members}

/-- A value whose objects, at any depth, have each name once. -/
inductive WellFormed : Json → Prop
  | scalar {value : Json} (single : value.isKey = true) : WellFormed value
  | arr {items : List Json} (each : ∀ item ∈ items, WellFormed item) : WellFormed (.arr items)
  | obj {members : Members} (nodup : (names members).Nodup)
      (each : ∀ member ∈ members, WellFormed member.2) : WellFormed (.obj members)

theorem WellFormed.nodup (wellFormed : WellFormed (.obj members)) : (names members).Nodup := by
  cases wellFormed with
  | scalar single => cases single
  | obj nodup _ => exact nodup

theorem WellFormed.of_mem (wellFormed : WellFormed (.arr items)) :
    ∀ item ∈ items, WellFormed item := by
  cases wellFormed with
  | scalar single => cases single
  | arr each => exact each

theorem sameItems_self (each : ∀ item ∈ items, item.same item = true) :
    sameItems items items = true := by
  induction items with
  | nil => rfl
  | cons item rest ih =>
      obtain ⟨first, others⟩ := List.forall_mem_cons.mp each
      rw [sameItems, first, ih others]
      rfl

/-- Members of an object have the same values as the object. -/
theorem sameMembers_of_subset {part : List (String × Json)} (nodup : (names members).Nodup)
    (inside : ∀ member ∈ part, member ∈ members)
    (each : ∀ member ∈ part, member.2.same member.2 = true) :
    sameMembers part members = true := by
  induction part with
  | nil => rfl
  | cons member rest ih =>
      obtain ⟨name, value⟩ := member
      obtain ⟨held, insideRest⟩ := List.forall_mem_cons.mp inside
      obtain ⟨first, others⟩ := List.forall_mem_cons.mp each
      have found : members.lookup name = some value := get?_of_mem nodup held
      rw [sameMembers, found, ih insideRest others, Bool.and_true]
      exact first

theorem WellFormed.same_self (wellFormed : value.WellFormed) : value.same value = true := by
  induction wellFormed with
  | scalar single => exact same_refl_of_isKey single
  | arr each ih =>
      rw [same]
      exact sameItems_self ih
  | obj nodup each ih =>
      rw [same, beq_self_eq_true, Bool.true_and]
      exact sameMembers_of_subset nodup (fun _ held => held) ih

end Scim.Json
