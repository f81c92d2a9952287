import Scim.Query.Sorting

/-!
# The comparison of a sort

Of two values of a sort at most one comes before the other, whatever they are.  The
comparison need not be transitive, as texts that are timestamps are compared as such with
each other only.
-/

namespace Scim

/-- Comparisons that never put two items in the same strict order both ways. -/
def Asymmetric {α : Type} (compared : α → α → Ordering) : Prop :=
  ∀ a b order, order ≠ .eq → compared a b = order → compared b a ≠ order

theorem swap_ne {order : Ordering} (strict : order ≠ .eq) : order.swap ≠ order := by
  cases order with
  | eq => exact absurd rfl strict
  | lt | gt => decide

namespace Number

theorem compareScaled_swap (m e n f : Int) :
    compareScaled n f m e = (compareScaled m e n f).swap := by
  simp only [compareScaled, Int.min_comm f e]
  exact Std.OrientedOrd.eq_swap

theorem Numeric.order?_swap (a b : Numeric) : b.order? a = (a.order? b).map .swap := by
  rcases a with m | x | (_ | _) | _ <;> rcases b with n | y | (_ | _) | _
  case int.int => exact congrArg some Std.OrientedOrd.eq_swap
  case int.double.finite => exact congrArg some (compareScaled_swap ..)
  case double.finite.int => exact congrArg some (compareScaled_swap ..)
  case double.finite.double.finite => exact congrArg some (compareScaled_swap ..)
  all_goals rfl

end Number

namespace Json

open Number (Numeric)

theorem compareTexts_swap (caseExact : Bool) (s t : String) :
    compareTexts caseExact t s = (compareTexts caseExact s t).swap := by
  rw [compareTexts, compareTexts]
  cases Timestamp.parse? s <;> cases Timestamp.parse? t <;> exact Std.OrientedOrd.eq_swap

theorem order?_swap (caseExact : Bool) (a b : Json) :
    Json.order? caseExact b a = (Json.order? caseExact a b).map .swap := by
  have numbers (x y : Numeric) : (y.order? x).getD .eq = ((x.order? y).getD .eq).swap := by
    rw [Numeric.order?_swap]
    cases x.order? y <;> rfl
  cases a <;> cases b
  case str.str => exact congrArg some (compareTexts_swap ..)
  case int.int | int.double | double.int | double.double => exact congrArg some (numbers ..)
  all_goals rfl

/-- The order of values that have none of their own: by rank, and then as they are shown. -/
def orderUnordered (a b : Json) : Ordering :=
  match compare a.rank b.rank with
  | .eq => if a.equal b then .eq else compare a.plain b.plain
  | order => order

theorem sortOrder_eq (caseExact : Bool) (a b : Json) :
    Json.sortOrder caseExact a b = (Json.order? caseExact a b).getD (orderUnordered a b) := by
  rw [Json.sortOrder]
  cases Json.order? caseExact a b <;> rfl

/-- Two values of a rank that are equal one way round only are in no order that way. -/
theorem orderUnordered_asymm : Asymmetric orderUnordered := by
  intro a b order strict ordered
  have ranks : compare b.rank a.rank = (compare a.rank b.rank).swap := Std.OrientedOrd.eq_swap
  have shown : compare b.plain a.plain = (compare a.plain b.plain).swap := Std.OrientedOrd.eq_swap
  rw [orderUnordered] at ordered ⊢
  rw [ranks]
  cases ranked : compare a.rank b.rank with
  | eq =>
      rw [ranked] at ordered
      dsimp only [Ordering.swap] at ordered ⊢
      split at ordered
      · exact absurd ordered.symm strict
      · rw [shown, ordered]
        split
        · exact strict.symm
        · exact swap_ne strict
  | lt | gt =>
      rw [ranked] at ordered
      cases ordered
      exact nofun

theorem sortOrder_asymm (caseExact : Bool) : Asymmetric (Json.sortOrder caseExact) := by
  intro a b order strict ordered
  rw [sortOrder_eq] at ordered ⊢
  rw [order?_swap]
  cases found : Json.order? caseExact a b with
  | none =>
      rw [found] at ordered
      exact orderUnordered_asymm a b order strict ordered
  | some own =>
      rw [found, Option.getD_some] at ordered
      subst ordered
      exact swap_ne strict

end Json

/-- The order of two values that are there, in the direction of a sort. -/
def directedOrder (caseExact : Bool) (order : SortOrder) (a b : Json) : Ordering :=
  match order with
  | .ascending => Json.sortOrder caseExact a b
  | .descending => (Json.sortOrder caseExact a b).swap

theorem directedOrder_asymm (caseExact : Bool) (order : SortOrder) :
    Asymmetric (directedOrder caseExact order) := by
  intro a b way strict ordered
  cases order with
  | ascending => exact Json.sortOrder_asymm caseExact a b way strict ordered
  | descending =>
      rw [directedOrder] at ordered
      subst ordered
      have strict' : Json.sortOrder caseExact a b ≠ .eq := by
        intro level
        rw [level] at strict
        exact strict rfl
      intro same
      exact Json.sortOrder_asymm caseExact a b _ strict' rfl (Ordering.swap_inj.mp same)

/-- Of two values of a sort at most one comes before the other. -/
theorem compareKeys_asymm (caseExact : Bool) (order : SortOrder) :
    Asymmetric (compareKeys caseExact order) := by
  intro a b way strict ordered
  cases a with
  | null =>
      cases b with
      | null => exact absurd ordered.symm strict
      | _ =>
          cases ordered
          exact nofun
  | _ =>
      cases b with
      | null =>
          cases ordered
          exact nofun
      | _ => exact directedOrder_asymm caseExact order _ _ way strict ordered

end Scim
