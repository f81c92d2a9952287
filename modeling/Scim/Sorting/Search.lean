/-!
# Searching along a run

A search counts the items at the start of a list that pass a test, on the understanding that behind
an item that fails no other passes. It looks ahead in steps that double until an item fails, and
halves the stretch between the last item that passed and that one until the border is found. It
costs little if the border is near.
-/

namespace Scim.Sorting

variable {α : Type}

/-- The two ways to walk through a run: from its first item on, or from its last item back. Who
walks backward sees the run reversed. -/
inductive Direction where
  | forward | backward
  deriving DecidableEq

/-- The middle one of the places from `low` on that are below `high`; of two middle ones that which
is nearer to the end of the run. -/
def Direction.middle (direction : Direction) (low high : Nat) : Nat :=
  match direction with
  | .forward => low + (high - low) / 2
  | .backward => high - 1 - (high - low) / 2

/-- Whether the item at a place passes a test. -/
def passes (test : α → Bool) (items : List α) (place : Nat) : Bool := items[place]?.any test

/-- The border between items that pass and items that fail, which is not below `low` and not above
`high`. -/
def bisect (direction : Direction) (test : α → Bool) (items : List α) (low high : Nat) : Nat :=
  if low < high then
    let middle := direction.middle low high
    if passes test items middle then bisect direction test items (middle + 1) high
    else bisect direction test items low middle
  else low
termination_by high - low
decreasing_by all_goals cases direction <;> simp only [Direction.middle] <;> omega

/-- A place whose item passes and the place of the next one looked at, which fails or is behind the
end. The search is at `next`, and the item at `known` passes. -/
def stretch (test : α → Bool) (items : List α) (known next : Nat) : Nat × Nat :=
  if next < items.length then
    if passes test items next then stretch test items next (2 * next + 1) else (known, next)
  else (known, items.length)
termination_by items.length - next

/-- The number of items at the start of a list that pass a test. -/
def search (direction : Direction) (test : α → Bool) (items : List α) : Nat :=
  if passes test items 0 then
    let (known, next) := stretch test items 0 1
    bisect direction test items (known + 1) next
  else 0

end Scim.Sorting
