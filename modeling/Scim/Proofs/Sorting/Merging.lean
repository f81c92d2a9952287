import Mathlib.Data.List.Sort
import Scim.Proofs.Sorting.Arrangements
import Scim.Proofs.Sorting.Searching
import Scim.Sorting.Merge

/-!
# Merges

However a merge goes about it, by comparing heads or by galloping, it does what comparing
heads one by one would do.  Of two runs in order the merge is the stable arrangement.
-/

namespace Scim.Sorting

variable {α : Type} {less : α → α → Bool} {known : α → Prop}

/-! ## Merging head by head -/

/-- The items of the first run that are taken before an item of the second one lead the
merge. -/
theorem merge_eq_takeWhile_append (takes : α → α → Bool) (y : α) (ys first : List α) :
    List.merge first (y :: ys) takes =
      first.takeWhile (takes · y) ++ List.merge (first.dropWhile (takes · y)) (y :: ys) takes := by
  induction first with
  | nil => simp
  | cons x xs ih =>
      cases taken : takes x y with
      | true => rw [List.cons_merge_cons_pos _ _ _ taken, ih]; simp [taken]
      | false => simp [taken]

/-- So do those of the second run before the head of the first one is taken. -/
theorem merge_eq_takeWhile_append' (takes : α → α → Bool) (x : α) (xs second : List α) :
    List.merge (x :: xs) second takes =
      second.takeWhile (!takes x ·) ++
        List.merge (x :: xs) (second.dropWhile (!takes x ·)) takes := by
  induction second with
  | nil => simp
  | cons y ys ih =>
      cases taken : takes x y with
      | true => simp [taken]
      | false => rw [List.cons_merge_cons_neg _ _ _ (by simp [taken]), ih]; simp [taken]

/-- A last item that is not taken before any of the second run comes last. -/
theorem merge_singleton (takes : α → α → Bool) (x : α) (second : List α)
    (last : ∀ y ∈ second, takes x y = false) :
    List.merge [x] second takes = second ++ [x] := by
  rw [merge_eq_takeWhile_append', List.takeWhile_eq_self_iff.mpr, List.dropWhile_eq_nil_iff.mpr]
  · simp
  · simpa using last
  · simpa using last

/-- A merge is the merge of the runs in the other order, with the preference reversed. -/
theorem merge_swap (takes : α → α → Bool) (first second : List α) :
    List.merge second first (fun y x => !takes x y) = List.merge first second takes := by
  induction first generalizing second with
  | nil => simp
  | cons x xs ih =>
      induction second with
      | nil => simp
      | cons y ys ih' =>
          cases taken : takes x y with
          | true => rw [List.cons_merge_cons_neg _ _ _ (by simp [taken]),
              List.cons_merge_cons_pos _ _ _ taken, ih]
          | false => rw [List.cons_merge_cons_pos _ _ _ (by simp [taken]),
              List.cons_merge_cons_neg _ _ _ (by simp [taken]), ih']

/-! ## Competing and galloping -/

/-- Runs that are merged as they should be in a direction: each is in order as far as the
other can tell, and the run that is to supply the last item does. -/
structure Mergeable (direction : Direction) (less : α → α → Bool) (first second : List α) :
    Prop where
  bordered₁ : ∀ y ∈ second, Bordered (direction.takesFirst less · y) first
  bordered₂ : ∀ x ∈ first, Bordered (!direction.takesFirst less x ·) second
  supplied : match direction with
    | .forward => ∀ last ∈ first.getLast?, ∀ y ∈ second,
        direction.takesFirst less last y = false
    | .backward => ∀ last ∈ second.getLast?, ∀ x ∈ first,
        direction.takesFirst less x last = true

/-- What has a last item behind a part has it as a whole. -/
theorem getLast?_of_suffix {whole part : List α} (suffix : part <:+ whole) {last : α}
    (ends : last ∈ part.getLast?) : last ∈ whole.getLast? := by
  obtain ⟨before, rfl⟩ := suffix
  rw [Option.mem_def] at ends ⊢
  rw [List.getLast?_append, ends, Option.some_or]

/-- What is left of runs is merged as they are. -/
theorem Mergeable.suffix {direction : Direction} {first second first' second' : List α}
    (mergeable : Mergeable direction less first second) (left : first' <:+ first)
    (right : second' <:+ second) : Mergeable direction less first' second' where
  bordered₁ y member := (mergeable.bordered₁ y (right.subset member)).sublist left.sublist
  bordered₂ x member := (mergeable.bordered₂ x (left.subset member)).sublist right.sublist
  supplied := by
    have supplied := mergeable.supplied
    cases direction with
    | forward =>
        intro last ends y member
        exact supplied last (getLast?_of_suffix left ends) y (right.subset member)
    | backward =>
        intro last ends x member
        exact supplied last (getLast?_of_suffix right ends) x (left.subset member)

/-- When a merge is over, what is left is the merge of what is left. -/
theorem Mergeable.remainder_eq {direction : Direction} {first second : List α}
    (mergeable : Mergeable direction less first second)
    (done : direction.isDone first second = true) :
    direction.remainder first second = List.merge first second (direction.takesFirst less) := by
  have supplied := mergeable.supplied
  cases direction with
  | forward =>
      rw [Direction.isDone, Bool.or_eq_true] at done
      rcases second with _ | ⟨y, ys⟩
      · simp [Direction.remainder]
      · rcases first with _ | ⟨x, _ | ⟨x', xs⟩⟩
        · simp [Direction.remainder]
        · exact (merge_singleton _ x (y :: ys) (supplied x rfl)).symm
        · simp at done
  | backward =>
      rw [Direction.isDone, Bool.or_eq_true] at done
      rcases first with _ | ⟨x, xs⟩
      · simp [Direction.remainder]
      · rcases second with _ | ⟨y, _ | ⟨y', ys⟩⟩
        · simp [Direction.remainder]
        · refine (List.merge_of_le ?_).symm
          intro a b left right
          rw [List.mem_singleton.mp right]
          exact supplied y rfl a left
        · simp at done

theorem putBefore_fst (items : List α) (step : List α × Nat) :
    (putBefore items step).1 = items ++ step.1 := rfl

/-- Nothing is left to do when a run is used up. -/
theorem isDone_nil_left (direction : Direction) (second : List α) :
    direction.isDone [] second = true := by
  cases direction <;> simp [Direction.isDone]

theorem isDone_nil_right (direction : Direction) (first : List α) :
    direction.isDone first [] = true := by
  cases direction <;> simp [Direction.isDone]

/-- Competing and galloping merge head by head whatever runs of some joint length they are
given. -/
def MergesBelow (direction : Direction) (less : α → α → Bool) (size : Nat) : Prop :=
  ∀ first second, first.length + second.length < size → Mergeable direction less first second →
    (∀ patience wins₁ wins₂, (compete direction less patience wins₁ wins₂ first second).1 =
        List.merge first second (direction.takesFirst less)) ∧
      ∀ patience, (gallop direction less patience first second).1 =
        List.merge first second (direction.takesFirst less)

section

variable {direction : Direction} {size : Nat} {first second : List α}

theorem Mergeable.compete_eq (mergeable : Mergeable direction less first second)
    (shorter : MergesBelow direction less size) (bound : first.length + second.length ≤ size)
    (patience wins₁ wins₂ : Nat) :
    (compete direction less patience wins₁ wins₂ first second).1 =
      List.merge first second (direction.takesFirst less) := by
  unfold compete
  by_cases done : direction.isDone first second = true
  · rw [if_pos done]
    exact mergeable.remainder_eq done
  · rw [if_neg done]
    cases first with
    | nil => exact absurd (isDone_nil_left direction second) done
    | cons x xs =>
        cases second with
        | nil => exact absurd (isDone_nil_right direction (x :: xs)) done
        | cons y ys =>
            rw [List.length_cons, List.length_cons] at bound
            dsimp only
            by_cases taken : direction.takesFirst less x y = true
            · obtain ⟨competing, galloping⟩ := shorter xs (y :: ys)
                (by rw [List.length_cons]; omega)
                (mergeable.suffix (List.suffix_cons x xs) List.suffix_rfl)
              rw [if_pos taken, List.cons_merge_cons_pos _ _ _ taken, putBefore_fst]
              split
              · exact congrArg (x :: ·) (galloping patience)
              · exact congrArg (x :: ·) (competing patience (wins₁ + 1) 0)
            · obtain ⟨competing, galloping⟩ := shorter (x :: xs) ys
                (by rw [List.length_cons]; omega)
                (mergeable.suffix List.suffix_rfl (List.suffix_cons y ys))
              rw [if_neg taken, List.cons_merge_cons_neg _ _ _ taken, putBefore_fst]
              split
              · exact congrArg (y :: ·) (galloping patience)
              · exact congrArg (y :: ·) (competing patience 0 (wins₂ + 1))

theorem Mergeable.gallop_eq (mergeable : Mergeable direction less first second)
    (shorter : MergesBelow direction less size) (bound : first.length + second.length ≤ size)
    (patience : Nat) :
    (gallop direction less patience first second).1 =
      List.merge first second (direction.takesFirst less) := by
  unfold gallop
  by_cases done : direction.isDone first second = true
  · rw [if_pos done]
    exact mergeable.remainder_eq done
  · rw [if_neg done]
    cases second with
    | nil => exact absurd (isDone_nil_right direction first) done
    | cons y ys =>
        -- the first run gives all that goes before the head of the second
        dsimp only
        rw [merge_eq_takeWhile_append, putBefore_fst,
          search_eq direction (mergeable.bordered₁ y List.mem_cons_self), take_border]
        congr 1
        split
        · next none =>
            rw [drop_border] at none
            rw [none, List.nil_merge]
        · next x xs left =>
            rw [drop_border] at left
            have suffix₁ : x :: xs <:+ first := left ▸ List.dropWhile_suffix _
            have rest₁ := mergeable.suffix suffix₁ (List.suffix_refl (y :: ys))
            have notTaken := failed_of_dropWhile left
            rw [left]
            by_cases over₁ : direction.isDone (x :: xs) (y :: ys) = true
            · rw [if_pos over₁]
              exact rest₁.remainder_eq over₁
            · rw [if_neg over₁, List.cons_merge_cons_neg _ _ _ (by simp [notTaken])]
              have rest₂ := rest₁.suffix List.suffix_rfl (List.suffix_cons y ys)
              by_cases over₂ : direction.isDone (x :: xs) ys = true
              · rw [if_pos over₂]
                exact congrArg (y :: ·) (rest₂.remainder_eq over₂)
              · -- and the second one all that goes before the head of what is left of it
                rw [if_neg over₂, putBefore_fst,
                  search_eq direction (rest₂.bordered₂ x List.mem_cons_self), take_border,
                  drop_border, merge_eq_takeWhile_append', List.cons_append]
                congr 2
                have suffix₂ := List.dropWhile_suffix (!direction.takesFirst less x ·) (l := ys)
                have rest₃ := rest₂.suffix List.suffix_rfl suffix₂
                cases left₂ : ys.dropWhile (!direction.takesFirst less x ·) with
                | nil =>
                    rw [if_pos (isDone_nil_right direction (x :: xs)), ← left₂]
                    exact rest₃.remainder_eq (left₂ ▸ isDone_nil_right direction (x :: xs))
                | cons z zs =>
                    rw [left₂] at rest₃ suffix₂
                    by_cases over₃ : direction.isDone (x :: xs) (z :: zs) = true
                    · rw [if_pos over₃]
                      exact rest₃.remainder_eq over₃
                    · have taken : direction.takesFirst less x z = true := by
                        simpa using failed_of_dropWhile left₂
                      have rest₄ := rest₃.suffix (List.suffix_cons x xs) List.suffix_rfl
                      obtain ⟨competing, galloping⟩ := shorter xs (z :: zs)
                        (by
                          have := suffix₁.length_le
                          have := suffix₂.length_le
                          simp only [List.length_cons] at *
                          omega) rest₄
                      rw [if_neg over₃, List.cons_merge_cons_pos _ _ _ taken, putBefore_fst]
                      split
                      · next over₄ => exact congrArg (x :: ·) (rest₄.remainder_eq over₄)
                      · split
                        · exact congrArg (x :: ·) (galloping _)
                        · exact congrArg (x :: ·) (competing _ 0 0)

end

/-- Competing and galloping both merge head by head. The induction is on what is left of
the runs, over which the two hand on to each other. -/
theorem mergesBelow (direction : Direction) (less : α → α → Bool) (size : Nat) :
    MergesBelow direction less size := by
  induction size with
  | zero =>
      intro first second bound
      cases bound
  | succ size ih =>
      intro first second bound mergeable
      exact ⟨mergeable.compete_eq ih (Nat.le_of_lt_succ bound),
        mergeable.gallop_eq ih (Nat.le_of_lt_succ bound)⟩

/-! ## Merges of runs in order -/

/-- An item that is less than all of a run may be moved before it: whatever is level with
the item is level with nothing in the run. -/
theorem filter_level_cons (order : Orders less known) {y z : α} {run : List α} (ky : known y)
    (within : ∀ a ∈ run, known a) (less_all : ∀ a ∈ run, less y a = true) (kz : known z)
    (rest : List α) :
    (y :: (run ++ rest)).filter (level less z) = (run ++ y :: rest).filter (level less z) := by
  by_cases levels : level less z y = true
  · have none : run.filter (level less z) = [] := by
      apply List.filter_eq_nil_iff.mpr
      intro a member both
      have before := ((level_iff z y).mp levels).1
      have after := ((level_iff z a).mp both).2
      have back := order.trans a z y (within a member) kz ky after before
      rw [NotAfter, less_all a member] at back
      cases back
    rw [List.filter_cons_of_pos levels, List.filter_append, List.filter_append, none,
      List.filter_cons_of_pos levels, List.nil_append, List.nil_append]
  · rw [List.filter_cons_of_neg levels, List.filter_append, List.filter_append,
      List.filter_cons_of_neg levels]

/-- Of two runs in order, the merge that prefers the first is the stable arrangement. An
item of the second run is taken only when it is less than all that is left of the first,
so it is level with none of that. -/
theorem arranged_headwise (order : Orders less known) {first second : List α}
    (within₁ : ∀ a ∈ first, known a) (within₂ : ∀ a ∈ second, known a)
    (ordered₁ : first.Pairwise (NotAfter less)) (ordered₂ : second.Pairwise (NotAfter less)) :
    Arranged less known (first ++ second) (List.merge first second fun x y => !less y x) := by
  induction first generalizing second with
  | nil => simpa using Arranged.of_ordered within₂ ordered₂
  | cons x xs ih₁ =>
      obtain ⟨leading₁, later₁⟩ := List.pairwise_cons.mp ordered₁
      obtain ⟨kx, kxs⟩ := List.forall_mem_cons.mp within₁
      induction second with
      | nil => simpa using Arranged.of_ordered within₁ ordered₁
      | cons y ys ih₂ =>
          obtain ⟨leading₂, later₂⟩ := List.pairwise_cons.mp ordered₂
          obtain ⟨ky, kys⟩ := List.forall_mem_cons.mp within₂
          cases before : less y x with
          | false =>
              rw [List.cons_merge_cons_pos _ _ _ (by simp [before])]
              have rest := ih₁ kxs within₂ later₁ ordered₂
              refine ⟨?_, rest.perm.cons x, ?_, ?_⟩
              · exact List.forall_mem_append.mpr ⟨within₁, within₂⟩
              · refine List.pairwise_cons.mpr ⟨?_, rest.ordered⟩
                intro a member
                rcases List.mem_merge.mp member with left | right
                · exact leading₁ a left
                · rcases List.mem_cons.mp right with rfl | right
                  · exact before
                  · exact order.trans x y a kx ky (kys a right) before (leading₂ a right)
              · intro z kz
                rw [List.cons_append, List.filter_cons, List.filter_cons, rest.stable z kz]
          | true =>
              rw [List.cons_merge_cons_neg _ _ _ (by simp [before])]
              have rest := ih₂ kys later₂
              have less_all (a : α) (member : a ∈ x :: xs) : less y a = true := by
                rcases List.mem_cons.mp member with rfl | member
                · exact before
                · exact order.less_of_less_of_notAfter ky kx (kxs a member) before
                    (leading₁ a member)
              refine ⟨?_, (rest.perm.cons y).trans List.perm_middle.symm, ?_, ?_⟩
              · exact List.forall_mem_append.mpr ⟨within₁, within₂⟩
              · refine List.pairwise_cons.mpr ⟨?_, rest.ordered⟩
                intro a member
                rcases List.mem_merge.mp member with left | right
                · exact order.notAfter_of_less (less_all a left)
                · exact leading₂ a right
              · intro z kz
                rw [← filter_level_cons order ky within₁ less_all kz, List.filter_cons,
                  rest.stable z kz, ← List.filter_cons]

section

variable {first second : List α}

/-- Runs in order are merged forward if the first supplies the last item. -/
theorem Orders.mergeable_forward (order : Orders less known) (within₁ : ∀ a ∈ first, known a)
    (within₂ : ∀ a ∈ second, known a) (ordered₁ : first.Pairwise (NotAfter less))
    (ordered₂ : second.Pairwise (NotAfter less))
    (last : ∀ a ∈ first.getLast?, ∀ y ∈ second, less y a = true) :
    Mergeable .forward less first second where
  bordered₁ y ky := by
    refine ordered₁.imp_of_mem ?_
    intro a b ka kb before taken
    simp only [Direction.takesFirst, Bool.not_eq_true'] at taken ⊢
    exact order.trans a b y (within₁ a ka) (within₁ b kb) (within₂ y ky) before taken
  bordered₂ x kx := by
    refine ordered₂.imp_of_mem ?_
    intro a b ka kb before taken
    simp only [Direction.takesFirst, Bool.not_not] at taken ⊢
    exact order.less_of_notAfter_of_less (within₂ a ka) (within₂ b kb) (within₁ x kx) before taken
  supplied a ends y member := by
    simp [Direction.takesFirst, last a ends y member]

/-- Runs in reverse order are merged backward if the second supplies the last item. -/
theorem Orders.mergeable_backward (order : Orders less known) (within₁ : ∀ a ∈ first, known a)
    (within₂ : ∀ a ∈ second, known a)
    (ordered₁ : first.Pairwise (NotAfter fun a b => less b a))
    (ordered₂ : second.Pairwise (NotAfter fun a b => less b a))
    (last : ∀ a ∈ second.getLast?, ∀ x ∈ first, less a x = true) :
    Mergeable .backward less first second where
  bordered₁ y ky := by
    refine ordered₁.imp_of_mem ?_
    intro a b ka kb before taken
    exact order.less_of_less_of_notAfter (within₂ y ky) (within₁ b kb) (within₁ a ka) taken before
  bordered₂ x kx := by
    refine ordered₂.imp_of_mem ?_
    intro a b ka kb before taken
    simp only [Direction.takesFirst, Bool.not_eq_true'] at taken ⊢
    exact order.trans x b a (within₁ x kx) (within₂ b kb) (within₂ a ka) taken before
  supplied a ends x member := last a ends x member

/-- A head that goes first may be put before the merge of the rest. -/
theorem take_append_merge (takes : α → α → Bool)
    (head : ∀ x ∈ first.head?, ∀ y ∈ second.head?, takes x y = true) :
    first.take 1 ++ List.merge (first.drop 1) second takes = List.merge first second takes := by
  rcases first with _ | ⟨x, xs⟩
  · rfl
  · rcases second with _ | ⟨y, ys⟩
    · simp
    · rw [List.cons_merge_cons_pos _ _ _ (head x rfl y rfl)]
      rfl

theorem take_append_merge_drop (takes : α → α → Bool)
    (head : ∀ y ∈ second.head?, ∀ x ∈ first.head?, takes x y = false) :
    second.take 1 ++ List.merge first (second.drop 1) takes = List.merge first second takes := by
  rcases second with _ | ⟨y, ys⟩
  · rfl
  · rcases first with _ | ⟨x, xs⟩
    · simp
    · rw [List.cons_merge_cons_neg _ _ _ (by simp [head y rfl x rfl])]
      rfl

end

/-- Two runs in order are merged stably, if the first supplies the last item and the second
the first one. -/
theorem arranged_mergeTrimmed (order : Orders less known) {first second : List α}
    (within₁ : ∀ a ∈ first, known a) (within₂ : ∀ a ∈ second, known a)
    (ordered₁ : first.Pairwise (NotAfter less)) (ordered₂ : second.Pairwise (NotAfter less))
    (head : ∀ a ∈ second.head?, ∀ x ∈ first, less a x = true)
    (last : ∀ a ∈ first.getLast?, ∀ y ∈ second, less y a = true) (patience : Nat) :
    Arranged less known (first ++ second) ((mergeTrimmed less first second).run patience).1 := by
  change Arranged less known (first ++ second) (mergeTrimmed less first second patience).1
  rw [mergeTrimmed]
  split
  · have tail : second.drop 1 <:+ second := List.drop_suffix 1 second
    have mergeable := order.mergeable_forward within₁
      (fun a member => within₂ a (tail.subset member)) ordered₁ (ordered₂.sublist tail.sublist)
      (fun a ends y member => last a ends y (tail.subset member))
    have merged := (mergesBelow .forward less _ first (second.drop 1) (Nat.lt_succ_self _)
      mergeable).1 patience 0 0
    rw [putBefore_fst, merged, take_append_merge_drop]
    · exact arranged_headwise order within₁ within₂ ordered₁ ordered₂
    · intro y isHead x isFirst
      simp [Direction.takesFirst, head y isHead x (List.mem_of_mem_head? isFirst)]
  · -- read backward, the runs are in the reverse order and the second is the preferred one
    have tail : first.reverse.drop 1 <:+ first.reverse := List.drop_suffix 1 first.reverse
    have inFirst (a : α) (member : a ∈ first.reverse) : known a :=
      within₁ a (List.mem_reverse.mp member)
    have inSecond (a : α) (member : a ∈ second.reverse) : known a :=
      within₂ a (List.mem_reverse.mp member)
    have mergeable := order.mergeable_backward (fun a member => inFirst a (tail.subset member))
      inSecond ((List.pairwise_reverse.mpr ordered₁).sublist tail.sublist)
      (List.pairwise_reverse.mpr ordered₂) (by
        intro a ends x member
        rw [List.getLast?_reverse] at ends
        exact head a ends x (List.mem_reverse.mp (tail.subset member)))
    have merged := (mergesBelow .backward less _ (first.reverse.drop 1) second.reverse
      (Nat.lt_succ_self _) mergeable).1 patience 0 0
    change Arranged less known (first ++ second) (putBefore _ _).1.reverse
    rw [putBefore_fst, merged, take_append_merge, ← merge_swap]
    · have arranged := (arranged_headwise order.flip inSecond inFirst
        (List.pairwise_reverse.mpr ordered₂) (List.pairwise_reverse.mpr ordered₁)).reverse
      rwa [List.reverse_append, List.reverse_reverse, List.reverse_reverse] at arranged
    · intro x isHead y isFirst
      rw [List.head?_reverse] at isHead
      exact last x isHead y (List.mem_reverse.mp (List.mem_of_mem_head? isFirst))

/-- Where the first run is cut: behind the items that go before the head of the second. -/
theorem cut_first (order : Orders less known) {first : List α} (within : ∀ a ∈ first, known a)
    (ordered : first.Pairwise (NotAfter less)) {head : α} (kh : known head) :
    (∀ x ∈ first.take (search .forward (fun item => !less head item) first),
        NotAfter less x head) ∧
      ∀ x ∈ first.drop (search .forward (fun item => !less head item) first),
        less head x = true := by
  have bordered : Bordered (fun item => !less head item) first := by
    refine ordered.imp_of_mem ?_
    intro a b ka kb before passes
    simp only [Bool.not_eq_true'] at passes ⊢
    exact order.trans a b head (within a ka) (within b kb) kh before passes
  rw [search_eq .forward bordered, take_border, drop_border]
  constructor
  · intro x member
    simpa [NotAfter] using List.mem_takeWhile_imp member
  · intro x member
    simpa using failed_of_mem_dropWhile bordered member

/-- Where the second run is cut: before the items that go after the last of the first. -/
theorem cut_second (order : Orders less known) {second : List α} (within : ∀ a ∈ second, known a)
    (ordered : second.Pairwise (NotAfter less)) {last : α} (kl : known last) :
    (∀ y ∈ second.take (second.length -
        search .backward (fun item => !less item last) second.reverse), less y last = true) ∧
      ∀ y ∈ second.drop (second.length -
        search .backward (fun item => !less item last) second.reverse), NotAfter less last y := by
  have bordered : Bordered (fun item => !less item last) second.reverse := by
    refine (List.pairwise_reverse.mpr ordered).imp_of_mem ?_
    intro a b ka kb before passes
    simp only [Bool.not_eq_true'] at passes ⊢
    exact order.trans last b a kl (within b (List.mem_reverse.mp kb))
      (within a (List.mem_reverse.mp ka)) passes before
  rw [search_eq .backward bordered]
  constructor
  · intro y member
    rw [← List.mem_reverse, ← List.drop_reverse, drop_border] at member
    simpa using failed_of_mem_dropWhile bordered member
  · intro y member
    rw [← List.mem_reverse, ← List.take_reverse, take_border] at member
    simpa [NotAfter] using List.mem_takeWhile_imp member

/-- Whatever relates all items in their order relates those on both sides of a place. -/
theorem take_drop_of_pairwise {r : α → α → Prop} {run : List α} (ordered : run.Pairwise r)
    (place : Nat) : ∀ a ∈ run.take place, ∀ b ∈ run.drop place, r a b := by
  rw [← List.take_append_drop place run] at ordered
  exact (List.pairwise_append.mp ordered).2.2

/-- Nothing in a run goes after its last item. -/
theorem notAfter_last (order : Orders less known) {run : List α}
    (ordered : run.Pairwise (NotAfter less)) {last : α} (ends : last ∈ run.getLast?) :
    ∀ a ∈ run, NotAfter less a last := by
  obtain ⟨front, rfl⟩ := List.getLast?_eq_some_iff.mp ends
  intro a member
  rcases List.mem_append.mp member with before | same
  · exact (List.pairwise_append.mp ordered).2.2 a before last (List.mem_singleton_self last)
  · rw [List.mem_singleton.mp same]
    exact order.refl last

/-- Nothing in a run goes before its head. -/
theorem head_notAfter (order : Orders less known) {run : List α}
    (ordered : run.Pairwise (NotAfter less)) {head : α} (starts : head ∈ run.head?) :
    ∀ a ∈ run, NotAfter less head a := by
  obtain ⟨rest, rfl⟩ := List.head?_eq_some_iff.mp starts
  intro a member
  rcases List.mem_cons.mp member with rfl | later
  · exact order.refl a
  · exact List.rel_of_pairwise_cons ordered later

/-- Two runs are merged by merging what is behind a place of the first with what is before a
place of the second, if the rest goes before and after. -/
theorem Arranged.of_cut {first second middle : List α} {settled kept : Nat}
    (within₁ : ∀ a ∈ first, known a) (within₂ : ∀ a ∈ second, known a)
    (ordered₁ : first.Pairwise (NotAfter less)) (ordered₂ : second.Pairwise (NotAfter less))
    (before : ∀ a ∈ first.take settled, ∀ b ∈ second, NotAfter less a b)
    (behind : ∀ a ∈ first, ∀ b ∈ second.drop kept, NotAfter less a b)
    (merged : Arranged less known (first.drop settled ++ second.take kept) middle) :
    Arranged less known (first ++ second) (first.take settled ++ middle ++ second.drop kept) := by
  have front : first.take settled ⊆ first := List.take_subset settled first
  have back : second.drop kept ⊆ second := List.drop_subset kept second
  have whole := merged.between (fun a member => within₁ a (front member))
    (fun a member => within₂ a (back member))
    (ordered₁.sublist (List.take_sublist settled first))
    (ordered₂.sublist (List.drop_sublist kept second))
    (by
      intro a left b right
      rcases List.mem_append.mp right with same | other
      · exact take_drop_of_pairwise ordered₁ settled a left b same
      · exact before a left b (List.mem_of_mem_take other))
    (by
      intro a left b right
      rcases List.mem_append.mp left with other | same
      · exact behind a (List.mem_of_mem_drop other) b right
      · exact take_drop_of_pairwise ordered₂ kept a same b right)
    (fun a left => behind a (front left))
  rw [← List.append_assoc, List.take_append_drop, List.append_assoc,
    List.take_append_drop] at whole
  exact whole

/-- Two runs in order are merged stably. -/
theorem arranged_merge (order : Orders less known) {first second : List α}
    (within₁ : ∀ a ∈ first, known a) (within₂ : ∀ a ∈ second, known a)
    (ordered₁ : first.Pairwise (NotAfter less)) (ordered₂ : second.Pairwise (NotAfter less))
    (patience : Nat) :
    Arranged less known (first ++ second) ((merge less first second).run patience).1 := by
  have within : ∀ a ∈ first ++ second, known a := List.forall_mem_append.mpr ⟨within₁, within₂⟩
  have of_all_before (before : ∀ a ∈ first, ∀ b ∈ second, NotAfter less a b) :
      Arranged less known (first ++ second) (first ++ second) :=
    .of_ordered within (List.pairwise_append.mpr ⟨ordered₁, ordered₂, before⟩)
  rw [merge]
  cases isHead : second.head? with
  | none =>
      rw [List.head?_eq_none_iff.mp isHead, List.append_nil]
      exact .of_ordered within₁ ordered₁
  | some head =>
      have kh := within₂ head (List.mem_of_mem_head? isHead)
      have head_least := head_notAfter order ordered₂ isHead
      obtain ⟨settled_before, rest_after⟩ := cut_first order within₁ ordered₁ kh
      dsimp only
      generalize search .forward (fun item => !less head item) first = settled
        at settled_before rest_after ⊢
      have before (a : α) (left : a ∈ first.take settled) (b : α) (right : b ∈ second) :
          NotAfter less a b :=
        order.trans a head b (within₁ a (List.mem_of_mem_take left)) kh (within₂ b right)
          (settled_before a left) (head_least b right)
      have rest : first.drop settled <:+ first := List.drop_suffix settled first
      cases isLast : (first.drop settled).getLast? with
      | none =>
          -- all of the first run goes before the second
          have all : first.take settled = first := by
            have split := List.take_append_drop settled first
            rwa [List.getLast?_eq_none_iff.mp isLast, List.append_nil] at split
          rw [all] at before
          exact of_all_before before
      | some last =>
          have last_greatest :=
            notAfter_last order ordered₁ (getLast?_of_suffix rest isLast)
          have kl := within₁ last (rest.subset (List.mem_of_getLast? isLast))
          obtain ⟨kept_before, behind_after⟩ := cut_second order within₂ ordered₂ kl
          dsimp only
          generalize second.length -
            search .backward (fun item => !less item last) second.reverse = kept
            at kept_before behind_after ⊢
          have behind (a : α) (left : a ∈ first) (b : α) (right : b ∈ second.drop kept) :
              NotAfter less a b :=
            order.trans a last b (within₁ a left) kl (within₂ b (List.mem_of_mem_drop right))
              (last_greatest a left) (behind_after b right)
          by_cases none : kept = 0
          · rw [if_pos none]
            rw [none, List.drop_zero] at behind
            exact of_all_before behind
          · rw [if_neg none]
            have merged := arranged_mergeTrimmed order
              (fun a member => within₁ a (rest.subset member))
              (fun b member => within₂ b (List.mem_of_mem_take member))
              (ordered₁.sublist rest.sublist) (ordered₂.sublist (List.take_sublist kept second))
              (by
                intro a starts x member
                rw [List.head?_take, if_neg none, isHead] at starts
                cases starts
                exact rest_after x member)
              (by
                intro a ends y member
                rw [isLast] at ends
                cases ends
                exact kept_before y member) patience
            exact .of_cut within₁ within₂ ordered₁ ordered₂ before behind merged

end Scim.Sorting
