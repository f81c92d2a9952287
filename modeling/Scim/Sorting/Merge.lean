import Scim.Sorting.Search

/-!
# Merging two runs

Two adjacent runs are merged so that items of the first come before equal items of the second. The
merge walks forward if the first run is the shorter one, and else backward, through the reversed
runs. It compares the heads of what is left of the runs until one of them has won often enough in a
row to exhaust the patience of the merge. It then gallops: it searches each run in turn for the
items that come before the head of the other, and takes them at once. A gallop that pays makes the
next one start sooner, and one that does not makes it start later; so the patience is handed on from
merge to merge.
-/

namespace Scim.Sorting

variable {α : Type}

namespace Direction

/-- Whether the head of the first run is taken before that of the second. -/
def takesFirst (direction : Direction) (less : α → α → Bool) (first second : α) : Bool :=
  match direction with
  | .forward => !less second first
  | .backward => less second first

/-- Whether a merge is over: one run is used up, or all that is left of the run that is known to
supply the last item is that item. -/
def isDone (direction : Direction) (first second : List α) : Bool :=
  match direction with
  | .forward => second.isEmpty || first.tail.isEmpty
  | .backward => first.isEmpty || second.tail.isEmpty

/-- What is left when a merge is over, in the order in which the merge walks. -/
def remainder (direction : Direction) (first second : List α) : List α :=
  match direction with
  | .forward => second ++ first
  | .backward => first ++ second

end Direction

/-- How many items a search must find at once for a gallop to pay. -/
def worthwhile : Nat := 7

/-- The patience at the start of a sort. -/
def initialPatience : Nat := worthwhile

/-- The items merged so far, in front of those of a later step. The other part is the patience that
is left. -/
def putBefore (items : List α) (step : List α × Nat) : List α × Nat := (items ++ step.1, step.2)

mutual

/-- Merges by comparing heads, after some wins of the first and of the second run in a row. -/
def compete (direction : Direction) (less : α → α → Bool) (patience wins₁ wins₂ : Nat)
    (first second : List α) : List α × Nat :=
  if direction.isDone first second then (direction.remainder first second, patience)
  else
    match first, second with
    | x :: xs, y :: ys =>
      if direction.takesFirst less x y then
        putBefore [x] <|
          if patience ≤ wins₁ + 1 then gallop direction less patience xs (y :: ys)
          else compete direction less patience (wins₁ + 1) 0 xs (y :: ys)
      else
        putBefore [y] <|
          if patience ≤ wins₂ + 1 then gallop direction less patience (x :: xs) ys
          else compete direction less patience 0 (wins₂ + 1) (x :: xs) ys
    | first, second => (direction.remainder first second, patience)
termination_by first.length + second.length

/-- Merges by searching both runs in turn. -/
def gallop (direction : Direction) (less : α → α → Bool) (patience : Nat)
    (first second : List α) : List α × Nat :=
  if direction.isDone first second then (direction.remainder first second, patience)
  else
    match second with
    | [] => (first, patience)
    | y :: ys =>
      let found₁ := search direction (direction.takesFirst less · y) first
      putBefore (first.take found₁) <|
        match _left : first.drop found₁ with
        | [] => (y :: ys, patience)
        | x :: xs =>
          if direction.isDone (x :: xs) (y :: ys) then
            (direction.remainder (x :: xs) (y :: ys), patience)
          else if direction.isDone (x :: xs) ys then
            (y :: direction.remainder (x :: xs) ys, patience)
          else
            let found₂ := search direction (fun other => !direction.takesFirst less x other) ys
            let zs := ys.drop found₂
            putBefore (y :: ys.take found₂) <|
              if direction.isDone (x :: xs) zs then (direction.remainder (x :: xs) zs, patience)
              else
                putBefore [x] <|
                  if direction.isDone xs zs then (direction.remainder xs zs, patience)
                  else if worthwhile ≤ found₁ ∨ worthwhile ≤ found₂ then
                    gallop direction less (max 1 (patience - 1)) xs zs
                  else compete direction less (patience + 1) 0 0 xs zs
termination_by first.length + second.length
decreasing_by
  all_goals
    have := congrArg List.length _left
    simp only [List.length_drop, List.length_cons] at this ⊢
    omega

end

/-- Merges two runs of which the first supplies the last item and the second the first one. -/
def mergeTrimmed (less : α → α → Bool) (first second : List α) : StateM Nat (List α) :=
  fun patience =>
    if first.length ≤ second.length then
      putBefore (second.take 1) (compete .forward less patience 0 0 first (second.drop 1))
    else
      let (merged, patience) := putBefore (first.reverse.take 1)
        (compete .backward less patience 0 0 (first.reverse.drop 1) second.reverse)
      (merged.reverse, patience)

/-- Merges two runs. The items of the first that come before all of the second stay in place, and so
do those of the second that come after all of the first. -/
def merge (less : α → α → Bool) (first second : List α) : StateM Nat (List α) := do
  let some head := second.head? | return first
  let settled := search .forward (fun item => !less head item) first
  let some last := (first.drop settled).getLast? | return first ++ second
  let behind := search .backward (fun item => !less item last) second.reverse
  let kept := second.length - behind
  if kept = 0 then return first ++ second
  let merged ← mergeTrimmed less (first.drop settled) (second.take kept)
  return first.take settled ++ merged ++ second.drop kept

end Scim.Sorting
