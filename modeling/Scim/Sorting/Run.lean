import Scim.Sorting.Search

/-!
# Runs

A list is cut into runs that are in order. A run goes on for as long as the items are in order
already, or strictly in reverse order, in which case it is turned around; an item that equals the
one before it never counts as in reverse order, so equal items stay as they were. A run that is too
short for an efficient merge is filled up with the items behind it, each inserted behind all that
are not greater.
-/

namespace Scim.Sorting

variable {α : Type}

/-- The longest continuation of a run, in which each item is in a relation to the one before it, and
the items behind it. -/
def runFrom (related : α → α → Bool) (last : α) : List α → List α × List α
  | [] => ([], [])
  | item :: rest =>
    if related last item then
      let (run, others) := runFrom related item rest
      (item :: run, others)
    else ([], item :: rest)

/-- Nothing is lost between a continuation and what is behind it. -/
theorem runFrom_append (related : α → α → Bool) (last : α) (items : List α) :
    (runFrom related last items).1 ++ (runFrom related last items).2 = items := by
  induction items generalizing last with
  | nil => rfl
  | cons item rest ih =>
    simp only [runFrom]
    split
    · simp only [List.cons_append, ih item]
    · rfl

/-- The run at the start of a list, brought in order, and the items behind it. -/
def naturalRun (less : α → α → Bool) : List α → List α × List α
  | [] => ([], [])
  | [item] => ([item], [])
  | first :: second :: rest =>
    if less second first then
      let (run, others) := runFrom (fun a b => less b a) first (second :: rest)
      ((first :: run).reverse, others)
    else
      let (run, others) := runFrom (fun a b => !less b a) first (second :: rest)
      (first :: run, others)

/-- Inserts an item into a run, behind all items that are not greater. -/
def insert (less : α → α → Bool) (run : List α) (item : α) : List α :=
  let place := bisect .forward (fun other => !less item other) run 0 run.length
  run.take place ++ item :: run.drop place

/-- The run at the start of a list, filled up to a length if it is shorter and there are items
left, and the items behind it. -/
def takeRun (less : α → α → Bool) (least : Nat) (items : List α) : List α × List α :=
  let (run, rest) := naturalRun less items
  let lacking := least - run.length
  ((rest.take lacking).foldl (insert less) run, rest.drop lacking)

/-- A natural run takes at least one item. -/
theorem naturalRun_rest_length_lt (less : α → α → Bool) (first : α) (rest : List α) :
    (naturalRun less (first :: rest)).2.length < (first :: rest).length := by
  cases rest with
  | nil => simp [naturalRun]
  | cons second rest =>
    simp only [naturalRun]
    split
    · have := congrArg List.length (runFrom_append (fun a b => less b a) first (second :: rest))
      simp only [List.length_append, List.length_cons] at this ⊢
      omega
    · have := congrArg List.length (runFrom_append (fun a b => !less b a) first (second :: rest))
      simp only [List.length_append, List.length_cons] at this ⊢
      omega

/-- A run takes at least one item. -/
theorem takeRun_rest_length_lt (less : α → α → Bool) (least : Nat) (first : α) (rest : List α) :
    (takeRun less least (first :: rest)).2.length < (first :: rest).length := by
  have := naturalRun_rest_length_lt less first rest
  simp only [takeRun, List.length_drop]
  omega

/-- The runs of a list, in order. -/
def runs (less : α → α → Bool) (least : Nat) : List α → List (List α)
  | [] => []
  | first :: rest =>
    let cut := takeRun less least (first :: rest)
    cut.1 :: runs less least cut.2
termination_by items => items.length
decreasing_by exact takeRun_rest_length_lt _ _ _ _

/-- The least length of the runs of a list, for its length: at most 64, and such that the list has a
number of runs that is a power of two or just below one. The list as a whole is one run if it has
fewer than 64 items. -/
def leastRun (length : Nat) (roundUp : Bool := false) : Nat :=
  if length < 64 then length + roundUp.toNat
  else leastRun (length / 2) (roundUp || length % 2 == 1)

end Scim.Sorting
