import Mathlib.Data.List.Basic
import Scim.Sorting.Schedule

/-!
# Sorting only rearranges

The order of resources need not be transitive, and then no arrangement is the sorted one.
But whatever comparison it is given, a sort returns the items that it got, each as often:
every search only chooses where a run is cut.
-/

namespace Scim.Sorting

variable {α : Type} {less : α → α → Bool} {direction : Direction} {first second : List α}

/-! ## Merging -/

theorem remainder_perm (direction : Direction) (first second : List α) :
    (direction.remainder first second).Perm (first ++ second) := by
  cases direction with
  | forward => exact List.perm_append_comm
  | backward => exact .refl _

/-- Items taken off the first run may be put before the merge of the others. -/
theorem take_append_perm {merged : List α} (count : Nat)
    (perm : merged.Perm (first.drop count ++ second)) :
    (first.take count ++ merged).Perm (first ++ second) := by
  have whole := perm.append_left (first.take count)
  rwa [← List.append_assoc, List.take_append_drop] at whole

/-- Items taken off the second run may be put before the merge of the others. -/
theorem take_append_perm' {merged : List α} (count : Nat)
    (perm : merged.Perm (first ++ second.drop count)) :
    (second.take count ++ merged).Perm (first ++ second) :=
  (take_append_perm count (perm.trans List.perm_append_comm)).trans List.perm_append_comm

mutual

theorem compete_perm (direction : Direction) (less : α → α → Bool) (patience wins₁ wins₂ : Nat)
    (first second : List α) :
    (compete direction less patience wins₁ wins₂ first second).1.Perm (first ++ second) := by
  unfold compete
  split
  · exact remainder_perm direction first second
  · split
    · next x xs y ys _ =>
      split
      · apply List.Perm.cons x
        split
        · exact gallop_perm direction less _ xs (y :: ys)
        · exact compete_perm direction less _ _ _ xs (y :: ys)
      · refine List.Perm.trans (.cons y ?_) List.perm_middle.symm
        split
        · exact gallop_perm direction less _ (x :: xs) ys
        · exact compete_perm direction less _ _ _ (x :: xs) ys
    · exact remainder_perm direction first second
termination_by first.length + second.length

theorem gallop_perm (direction : Direction) (less : α → α → Bool) (patience : Nat)
    (first second : List α) :
    (gallop direction less patience first second).1.Perm (first ++ second) := by
  unfold gallop
  split
  · exact remainder_perm direction first second
  · cases second with
    | nil => rw [List.append_nil]
    | cons y ys =>
        apply take_append_perm
        split
        · next left =>
          rw [left]
          exact .refl _
        · next x xs left =>
          have shorter : (x :: xs).length ≤ first.length := by simp [← left]
          rw [left]
          split
          · exact remainder_perm direction _ _
          · refine .trans ?_ List.perm_middle.symm
            split
            · exact .cons y (remainder_perm direction _ _)
            · refine .cons y (take_append_perm' _ ?_)
              split
              · exact remainder_perm direction _ _
              · apply List.Perm.cons x
                split
                · exact remainder_perm direction _ _
                · split
                  · exact gallop_perm direction less _ _ _
                  · exact compete_perm direction less _ _ _ _ _
termination_by first.length + second.length
decreasing_by
  all_goals
    simp only [List.length_drop, List.length_cons] at *
    omega

end

theorem mergeTrimmed_perm (less : α → α → Bool) (first second : List α) (patience : Nat) :
    ((mergeTrimmed less first second).run patience).1.Perm (first ++ second) := by
  change (mergeTrimmed less first second patience).1.Perm _
  rw [mergeTrimmed]
  split
  · exact take_append_perm' 1 (compete_perm .forward less patience 0 0 first (second.drop 1))
  · have merged := take_append_perm 1
      (compete_perm .backward less patience 0 0 (first.reverse.drop 1) second.reverse)
    exact (List.reverse_perm _).trans
      (merged.trans ((List.reverse_perm first).append (List.reverse_perm second)))

theorem merge_perm (less : α → α → Bool) (first second : List α) (patience : Nat) :
    ((merge less first second).run patience).1.Perm (first ++ second) := by
  rw [merge]
  cases isHead : second.head? with
  | none =>
      rw [List.head?_eq_none_iff.mp isHead, List.append_nil]
      exact .refl _
  | some head =>
      dsimp only
      generalize search .forward (fun item => !less head item) first = settled
      cases (first.drop settled).getLast? with
      | none => exact .refl _
      | some last =>
          dsimp only
          generalize second.length -
            search .backward (fun item => !less item last) second.reverse = kept
          split
          · exact .refl _
          · have trimmed := mergeTrimmed_perm less (first.drop settled) (second.take kept) patience
            have whole := take_append_perm settled trimmed
            have appended := whole.append_right (second.drop kept)
            rwa [List.append_assoc first, List.take_append_drop] at appended

/-! ## Runs -/

theorem insert_perm (less : α → α → Bool) (run : List α) (item : α) :
    (insert less run item).Perm (run ++ [item]) := by
  rw [insert]
  exact take_append_perm _ (List.perm_append_singleton item _).symm

theorem foldl_insert_perm (less : α → α → Bool) (run items : List α) :
    (items.foldl (insert less) run).Perm (run ++ items) := by
  induction items generalizing run with
  | nil => rw [List.append_nil, List.foldl_nil]
  | cons item rest ih =>
      rw [List.append_cons]
      exact (ih (insert less run item)).trans ((insert_perm less run item).append_right rest)

theorem naturalRun_perm (less : α → α → Bool) (items : List α) :
    ((naturalRun less items).1 ++ (naturalRun less items).2).Perm items := by
  rcases items with _ | ⟨first, _ | ⟨second, rest⟩⟩
  · exact .refl _
  · exact .refl _
  · rw [naturalRun]
    have whole (related : α → α → Bool) :=
      congrArg (first :: ·) (runFrom_append related first (second :: rest))
    split
    · exact ((List.reverse_perm _).append_right _).trans (.of_eq (whole fun a b => less b a))
    · exact .of_eq (whole fun a b => !less b a)

theorem takeRun_perm (less : α → α → Bool) (least : Nat) (items : List α) :
    ((takeRun less least items).1 ++ (takeRun less least items).2).Perm items := by
  simp only [takeRun]
  generalize least - (naturalRun less items).1.length = lacking
  have natural := naturalRun_perm less items
  generalize naturalRun less items = natural' at natural
  refine .trans ((foldl_insert_perm less _ _).append_right _) ?_
  rwa [List.append_assoc, List.take_append_drop]

theorem runs_perm (less : α → α → Bool) (least : Nat) (items : List α) :
    (runs less least items).flatten.Perm items := by
  induction items using runs.induct less least with
  | case1 =>
      rw [runs]
      exact .refl _
  | case2 first rest cut ih =>
      rw [runs, List.flatten_cons]
      exact (ih.append_left cut.1).trans (takeRun_perm less least (first :: rest))

/-! ## Merging the runs -/

theorem mergeDeeper_perm (less : α → α → Bool) (limit : Nat) (waiting : Waiting α)
    (run : List α) (patience : Nat) :
    ((((mergeDeeper less limit waiting run).run patience).1.1.map (·.1)).flatten ++
        ((mergeDeeper less limit waiting run).run patience).1.2).Perm
      ((waiting.map (·.1)).flatten ++ run) := by
  induction waiting generalizing run patience with
  | nil => exact .refl _
  | cons before waiting ih =>
      obtain ⟨before, depth⟩ := before
      rw [mergeDeeper]
      split
      · have merged := merge_perm less before run patience
        refine (ih _ ((Sorting.merge less before run).run patience).2).trans ?_
        refine (merged.append_left _).trans ?_
        rw [List.map_cons, List.flatten_cons, ← List.append_assoc]
        exact List.perm_append_comm.append_right run
      · exact .refl _

theorem mergeAll_perm (less : α → α → Bool) (waiting : List (List α)) (run : List α)
    (patience : Nat) :
    ((mergeAll less waiting run).run patience).1.Perm (waiting.flatten ++ run) := by
  induction waiting, run using mergeAll.induct generalizing patience with
  | case1 run =>
      rw [mergeAll]
      exact .refl _
  | case2 before run =>
      rw [mergeAll, List.flatten_singleton]
      exact merge_perm less before run patience
  | case3 before earlier waiting run shorter ih =>
      rw [mergeAll, if_pos shorter]
      have merged := (merge_perm less earlier before patience).trans List.perm_append_comm
      refine (ih _ ((Sorting.merge less earlier before).run patience).2).trans ?_
      rw [List.flatten_cons, List.flatten_cons, List.flatten_cons, ← List.append_assoc before]
      exact (merged.append_right _).append_right run
  | case4 before earlier waiting run longer ih =>
      rw [mergeAll, if_neg longer]
      refine (ih _ ((Sorting.merge less before run).run patience).2).trans ?_
      refine ((merge_perm less before run patience).append_left _).trans ?_
      rw [List.flatten_cons (l := before), ← List.append_assoc]
      exact List.perm_append_comm.append_right run

theorem mergeRuns_perm (less : α → α → Bool) (length start : Nat) (waiting : Waiting α)
    (run : List α) (later : List (List α)) (patience : Nat) :
    ((mergeRuns less length start waiting run later).run patience).1.Perm
      ((waiting.map (·.1)).flatten ++ (run ++ later.flatten)) := by
  induction later generalizing start waiting run patience with
  | nil =>
      rw [mergeRuns, List.flatten_nil, List.append_nil]
      exact mergeAll_perm less _ run patience
  | cons next later ih =>
      let depth := boundaryDepth length start run next
      let step := (mergeDeeper less depth waiting run).run patience
      have deeper := mergeDeeper_perm less depth waiting run patience
      rw [mergeRuns]
      refine (ih (start + run.length) ((step.1.2, depth) :: step.1.1) next step.2).trans ?_
      rw [List.map_cons, List.flatten_cons, List.flatten_cons, ← List.append_assoc _ run]
      exact (List.perm_append_comm.trans deeper).append_right _

/-- A sort rearranges a list, whether or not the comparison is an order. -/
theorem sort_perm (less : α → α → Bool) (items : List α) : (sort less items).Perm items := by
  have cut := runs_perm less (leastRun items.length) items
  rw [sort]
  generalize runs less (leastRun items.length) items = found at cut ⊢
  cases found with
  | nil => exact cut
  | cons run later => exact (mergeRuns_perm less items.length 0 [] run later _).trans cut

end Scim.Sorting
