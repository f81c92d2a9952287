import Mathlib.Data.List.Forall2
import Scim.Proofs.Action

/-!
# Outcomes over a list

A computation over a list has a result exactly if it has one for each item, and depends on
what it does with the items only.
-/

namespace Scim

variable {α β : Type}

theorem mapM_congr {first second : α → Except Failure β} {items : List α}
    (same : ∀ item ∈ items, first item = second item) : items.mapM first = items.mapM second := by
  induction items with
  | nil => rfl
  | cons item rest ih =>
      obtain ⟨now, later⟩ := List.forall_mem_cons.mp same
      rw [List.mapM_cons, List.mapM_cons, now, ih later]

theorem anyM_congr {first second : α → Except Failure Bool} {items : List α}
    (same : ∀ item ∈ items, first item = second item) :
    items.anyM first = items.anyM second := by
  induction items with
  | nil => rfl
  | cons item rest ih =>
      obtain ⟨now, later⟩ := List.forall_mem_cons.mp same
      rw [List.anyM_cons, List.anyM_cons, now, ih later]

/-- A search through related items comes out alike. -/
theorem anyM_eq_of_forall₂ {related : α → β → Prop} {first : α → Except Failure Bool}
    {second : β → Except Failure Bool} {items : List α} {others : List β}
    (each : List.Forall₂ related items others)
    (same : ∀ item ∈ items, ∀ other, related item other → second other = first item) :
    others.anyM second = items.anyM first := by
  induction each with
  | nil => rfl
  | cons pair _ ih =>
      obtain ⟨now, later⟩ := List.forall_mem_cons.mp same
      rw [List.anyM_cons, List.anyM_cons, now _ pair, ih later]

/-- Mapping a list gives the results for the items, in their order. -/
theorem mapM_eq_ok_iff {f : α → Except Failure β} {items : List α} {results : List β} :
    items.mapM f = .ok results ↔
      List.Forall₂ (fun item result => f item = .ok result) items results := by
  induction items generalizing results with
  | nil =>
      rw [List.mapM_nil, List.forall₂_nil_left_iff]
      constructor
      · intro equal
        cases equal
        rfl
      · rintro rfl
        rfl
  | cons item rest ih =>
      rw [List.mapM_cons, List.forall₂_cons_left_iff, bind_eq_ok_iff]
      constructor
      · rintro ⟨first, found, later⟩
        obtain ⟨others, mapped, equal⟩ := bind_eq_ok_iff.mp later
        cases equal
        exact ⟨first, others, found, ih.mp mapped, rfl⟩
      · rintro ⟨first, others, found, mapped, rfl⟩
        exact ⟨first, found, bind_eq_ok_iff.mpr ⟨others, ih.mpr mapped, rfl⟩⟩

/-- A list can be mapped if each of its items can. -/
theorem exists_mapM_iff {f : α → Except Failure β} {items : List α} :
    (∃ results, items.mapM f = .ok results) ↔ ∀ item ∈ items, ∃ result, f item = .ok result := by
  simp only [mapM_eq_ok_iff]
  induction items with
  | nil => simp
  | cons item rest ih =>
      rw [List.forall_mem_cons, ← ih]
      constructor
      · rintro ⟨_, each⟩
        cases each with
        | cons first later => exact ⟨⟨_, first⟩, ⟨_, later⟩⟩
      · rintro ⟨⟨result, first⟩, results, later⟩
        exact ⟨result :: results, .cons first later⟩

/-- The results of mapping a list are those for its items. -/
theorem mem_iff_of_mapM {f : α → Except Failure β} {items : List α} {results : List β}
    (mapped : items.mapM f = .ok results) (result : β) :
    result ∈ results ↔ ∃ item ∈ items, f item = .ok result := by
  have each := mapM_eq_ok_iff.mp mapped
  clear mapped
  induction each with
  | nil => simp
  | cons first _ ih =>
      rw [List.mem_cons, List.exists_mem_cons_iff, first, Except.ok.injEq, eq_comm]
      exact or_congr_right ih

/-- Whether a test of an item comes out true. -/
def passes (test : α → Except Failure Bool) (item : α) : Bool := (test item).toOption.getD false

theorem passes_of_ok {test : α → Except Failure Bool} {item : α} {answer : Bool}
    (tested : test item = .ok answer) : passes test item = answer := by
  rw [passes, tested]
  rfl

theorem filterAuxM_eq_ok_iff {test : α → Except Failure Bool} {items before kept : List α} :
    items.filterAuxM test before = .ok kept ↔
      (∀ item ∈ items, ∃ answer, test item = .ok answer) ∧
        kept = (items.filter (passes test)).reverse ++ before := by
  induction items generalizing before with
  | nil =>
      rw [List.filterAuxM]
      constructor
      · intro equal
        cases equal
        exact ⟨nofun, rfl⟩
      · rintro ⟨-, rfl⟩
        rfl
  | cons item rest ih =>
      rw [List.filterAuxM, bind_eq_ok_iff, List.forall_mem_cons]
      have filtered (answer : Bool) (tested : test item = .ok answer) :
          ((item :: rest).filter (passes test)).reverse ++ before =
            (rest.filter (passes test)).reverse ++ cond answer (item :: before) before := by
        rw [List.filter_cons, passes_of_ok tested]
        cases answer <;> simp
      constructor
      · rintro ⟨answer, tested, later⟩
        obtain ⟨others, rfl⟩ := ih.mp later
        exact ⟨⟨⟨answer, tested⟩, others⟩, (filtered answer tested).symm⟩
      · rintro ⟨⟨⟨answer, tested⟩, others⟩, rfl⟩
        exact ⟨answer, tested, ih.mpr ⟨others, filtered answer tested⟩⟩

/-- Filtering a list by a test gives the items for which it comes out true. -/
theorem filterM_eq_ok_iff {test : α → Except Failure Bool} {items kept : List α} :
    items.filterM test = .ok kept ↔
      (∀ item ∈ items, ∃ answer, test item = .ok answer) ∧ kept = items.filter (passes test) := by
  rw [List.filterM, bind_eq_ok_iff]
  constructor
  · rintro ⟨reversed, filtered, equal⟩
    obtain ⟨tested, rfl⟩ := filterAuxM_eq_ok_iff.mp filtered
    cases equal
    exact ⟨tested, by simp⟩
  · rintro ⟨tested, rfl⟩
    exact ⟨_, filterAuxM_eq_ok_iff.mpr ⟨tested, rfl⟩, by simp; rfl⟩

end Scim
