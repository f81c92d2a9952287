import Mathlib.Data.List.TakeWhile
import Scim.Sorting.Search

/-!
# Searches find the border

A search along a run finds how many leading items pass a test, wherever it looks and in
whichever direction it walks, as long as no item passes behind one that fails.
-/

namespace Scim.Sorting

variable {α : Type} {test : α → Bool} {items : List α}

/-- Lists in which no item passes a test behind one that fails. -/
def Bordered (test : α → Bool) (items : List α) : Prop :=
  items.Pairwise fun a b => test b = true → test a = true

/-- The number of leading items that pass a test. -/
def border (test : α → Bool) (items : List α) : Nat := (items.takeWhile test).length

theorem border_le_length : border test items ≤ items.length :=
  (List.takeWhile_prefix test).length_le

/-- The items that pass are those before the border. -/
theorem passes_iff (bordered : Bordered test items) (place : Nat) :
    passes test items place = true ↔ place < border test items := by
  induction items generalizing place with
  | nil => simp [passes, border]
  | cons item rest ih =>
      obtain ⟨leading, later⟩ := List.pairwise_cons.mp bordered
      rw [border, List.takeWhile_cons]
      cases holds : test item with
      | true =>
          cases place with
          | zero => simp [passes, holds]
          | succ place => simpa [passes, border] using ih later place
      | false =>
          have fails : passes test (item :: rest) place = false := by
            cases place with
            | zero => simp [passes, holds]
            | succ place =>
                simp only [passes, List.getElem?_cons_succ]
                cases found : rest[place]? with
                | none => rfl
                | some other =>
                    by_contra passed
                    have behind := leading other (List.mem_of_getElem? found) (by simpa using passed)
                    rw [holds] at behind
                    cases behind
          simp [fails]

/-- Halving a stretch around the border finds it. -/
theorem bisect_eq (direction : Direction) (bordered : Bordered test items) {low high : Nat}
    (above : low ≤ border test items) (below : border test items ≤ high) :
    bisect direction test items low high = border test items := by
  induction low, high using bisect.induct direction test items with
  | case1 low high less middle passed ih =>
      rw [bisect, if_pos less, if_pos passed]
      exact ih ((passes_iff bordered _).mp passed) below
  | case2 low high less middle failed ih =>
      rw [bisect, if_pos less, if_neg failed]
      exact ih above (not_lt.mp (mt (passes_iff bordered _).mpr failed))
  | case3 low high done =>
      rw [bisect, if_neg done]
      omega

/-- Doubling steps lead to a stretch around the border. -/
theorem stretch_bounds (bordered : Bordered test items) {known : Nat}
    (passed : known < border test items) (next : Nat) :
    (stretch test items known next).1 < border test items ∧
      border test items ≤ (stretch test items known next).2 := by
  induction known, next using stretch.induct test items with
  | case1 known next inside here ih =>
      rw [stretch, if_pos inside, if_pos here]
      exact ih ((passes_iff bordered next).mp here)
  | case2 known next inside here =>
      rw [stretch, if_pos inside, if_neg here]
      exact ⟨passed, not_lt.mp (mt (passes_iff bordered next).mpr here)⟩
  | case3 known next outside =>
      rw [stretch, if_neg outside]
      exact ⟨passed, border_le_length⟩

theorem search_eq (direction : Direction) (bordered : Bordered test items) :
    search direction test items = border test items := by
  rw [search]
  by_cases first : passes test items 0 = true
  · have bounds := stretch_bounds bordered ((passes_iff bordered 0).mp first) 1
    rw [if_pos first]
    exact bisect_eq direction bordered bounds.1 bounds.2
  · have none := mt (passes_iff bordered 0).mpr first
    rw [if_neg first]
    omega

/-- The items before the border. -/
theorem take_border : items.take (border test items) = items.takeWhile test :=
  (List.prefix_iff_eq_take.mp (List.takeWhile_prefix test)).symm

/-- The items from the border on. -/
theorem drop_border : items.drop (border test items) = items.dropWhile test := by
  have whole : items.take (border test items) ++ items.drop (border test items) =
      items.takeWhile test ++ items.dropWhile test := by
    rw [List.take_append_drop, List.takeWhile_append_dropWhile]
  rw [take_border] at whole
  exact List.append_cancel_left whole

/-- All items from the border on fail. -/
theorem failed_of_mem_dropWhile (bordered : Bordered test items) {item : α}
    (member : item ∈ items.dropWhile test) : test item = false := by
  induction items with
  | nil => cases member
  | cons first rest ih =>
      obtain ⟨leading, later⟩ := List.pairwise_cons.mp bordered
      cases holds : test first with
      | true =>
          rw [List.dropWhile_cons_of_pos holds] at member
          exact ih later member
      | false =>
          rw [List.dropWhile_cons_of_neg (by simp [holds])] at member
          rcases List.mem_cons.mp member with rfl | member
          · exact holds
          · by_contra passes
            have before := leading item member (by simpa using passes)
            rw [holds] at before
            cases before

/-- The item at the border fails. -/
theorem failed_of_dropWhile {item : α} {rest : List α}
    (left : items.dropWhile test = item :: rest) : test item = false := by
  have some : items.dropWhile test ≠ [] := by
    rw [left]
    exact List.cons_ne_nil item rest
  have fails := List.head_dropWhile_not test some
  simpa only [left, List.head_cons] using fails

end Scim.Sorting
