import Scim.Sorting.Merge
import Scim.Sorting.Run

/-!
# The order of the merges

The runs of a list are merged pairwise until one is left. Which runs are merged first follows a tree
over the list that halves it, its halves and so on: the depth of the boundary between two runs is
that of the first cut between their midpoints, and deep boundaries go first. Runs that wait for
their merge are kept on a stack, with boundaries that get deeper towards its top.
-/

namespace Scim.Sorting

variable {α : Type}

/-- The depth of the first cut that separates two midpoints, when a list of some length is halved
again and again. Both midpoints are given doubled, so that they are whole numbers. -/
def cutDepth (length : Nat) (midpoint₁ midpoint₂ : Nat) : Nat :=
  if midpoint₁ / length = midpoint₂ / length ∧ midpoint₁ < midpoint₂ ∧ 0 < length then
    cutDepth length (2 * midpoint₁) (2 * midpoint₂) + 1
  else 1
termination_by length - (midpoint₂ - midpoint₁)
decreasing_by
  have := Nat.div_add_mod midpoint₁ length
  have := Nat.div_add_mod midpoint₂ length
  have := Nat.mod_lt midpoint₁ (y := length) (by omega)
  have := Nat.mod_lt midpoint₂ (y := length) (by omega)
  have : length * (midpoint₁ / length) = length * (midpoint₂ / length) := by simp_all
  omega

/-- The depth of the boundary between two adjacent runs of a list, of which the first starts at a
place. -/
def boundaryDepth (length start : Nat) (first second : List α) : Nat :=
  let midpoint := 2 * start + first.length
  cutDepth length midpoint (midpoint + first.length + second.length)

/-- Runs that wait for their merge, the last one first, each with the depth of the boundary behind
it. -/
abbrev Waiting (α : Type) := List (List α × Nat)

/-- Merges a run with those waiting before it, as long as the boundaries are deeper than a limit. -/
def mergeDeeper (less : α → α → Bool) (limit : Nat) :
    Waiting α → List α → StateM Nat (Waiting α × List α)
  | [], run => return ([], run)
  | (before, depth) :: waiting, run => do
    if limit < depth then mergeDeeper less limit waiting (← merge less before run)
    else return ((before, depth) :: waiting, run)

/-- Merges a run with all that wait before it, the last one first. Of three runs the outer two
decide: the shorter of them is merged with the middle one. -/
def mergeAll (less : α → α → Bool) : List (List α) → List α → StateM Nat (List α)
  | [], run => return run
  | [before], run => merge less before run
  | before :: earlier :: waiting, run => do
    if earlier.length < run.length then
      mergeAll less ((← merge less earlier before) :: waiting) run
    else mergeAll less (earlier :: waiting) (← merge less before run)
termination_by waiting => waiting.length

/-- Merges a run that starts at a place of a list with those waiting before it and those that
follow. -/
def mergeRuns (less : α → α → Bool) (length start : Nat) (waiting : Waiting α) (run : List α) :
    List (List α) → StateM Nat (List α)
  | [] => mergeAll less (waiting.map (·.1)) run
  | next :: later => do
    let depth := boundaryDepth length start run next
    let (waiting, merged) ← mergeDeeper less depth waiting run
    mergeRuns less length (start + run.length) ((merged, depth) :: waiting) next later

/-- Sorts a list: cuts it into runs and merges them. -/
def sort (less : α → α → Bool) (items : List α) : List α :=
  match runs less (leastRun items.length) items with
  | [] => []
  | run :: later => (mergeRuns less items.length 0 [] run later initialPatience).1

end Scim.Sorting
