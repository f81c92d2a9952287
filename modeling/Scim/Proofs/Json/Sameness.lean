import Mathlib.Algebra.Field.Rat
import Mathlib.Algebra.Order.Field.Power
import Mathlib.Algebra.Order.Ring.Rat
import Mathlib.Tactic.Positivity
import Scim.Json.Equality
import Scim.Resource

/-!
# Sameness of keys

Numbers compare by the rational values they denote, whether they are written as
integers or as doubles.  Hence sameness of the values that can be ids, which are
all but arrays and objects, is sameness of what they denote, and an equivalence.
-/

namespace Scim

namespace Number

theorem cast_twoTo (exponent : Nat) : ((twoTo exponent : Nat) : ℚ) = 2 ^ exponent := by
  induction exponent with
  | zero => simp
  | succ exponent ih => rw [twoTo_succ, Nat.cast_mul, ih, pow_succ]; norm_num

/-- Scaling both sides by the smaller power of two makes them integers, so the
integer comparison is that of the scaled values. -/
theorem compareScaled_eq_compare (m e n f : Int) :
    compareScaled m e n f = compare ((m : ℚ) * 2 ^ e) ((n : ℚ) * 2 ^ f) := by
  have lift (k g : Int) (bound : min e f ≤ g) :
      ((k * twoTo (g - min e f).toNat : Int) : ℚ) * 2 ^ (min e f) = k * 2 ^ g := by
    have toNat : (((g - min e f).toNat : Nat) : Int) = g - min e f := by omega
    rw [Int.cast_mul, Int.cast_natCast, cast_twoTo, ← zpow_natCast, toNat, mul_assoc,
      ← zpow_add₀ (by norm_num : (2 : ℚ) ≠ 0), sub_add_cancel]
  have positive : (0 : ℚ) < 2 ^ (min e f) := by positivity
  rw [← lift m e (min_le_left e f), ← lift n f (min_le_right e f)]
  rcases lt_trichotomy (m * twoTo (e - min e f).toNat : Int)
    (n * twoTo (f - min e f).toNat : Int) with less | equal | greater
  · rw [compareScaled, compare_lt_iff_lt.mpr less, eq_comm, compare_lt_iff_lt]
    exact mul_lt_mul_of_pos_right (by exact_mod_cast less) positive
  · rw [compareScaled, compare_eq_iff_eq.mpr equal, eq_comm, compare_eq_iff_eq, equal]
  · rw [compareScaled, compare_gt_iff_gt.mpr greater, eq_comm, compare_gt_iff_gt]
    exact mul_lt_mul_of_pos_right (by exact_mod_cast greater) positive

/-- What a number denotes: a rational number, an infinity, or nothing. -/
inductive Quantity where
  | rational (q : ℚ)
  | infinite (negative : Bool)
  | nan

/-- The rational number that a finite double denotes. -/
def Finite.value (x : Finite) : ℚ := x.signed * 2 ^ x.exponent

/-- What a number denotes. -/
def Numeric.quantity : Numeric → Quantity
  | .int n => .rational n
  | .double (.finite x) => .rational x.value
  | .double (.infinite negative) => .infinite negative
  | .double .nan => .nan

theorem Numeric.same_iff (a b : Numeric) :
    a.same b = true ↔ a.quantity = b.quantity ∧ a.quantity ≠ .nan := by
  have scaled (m e n f : Int) :
      compareScaled m e n f = .eq ↔ (m : ℚ) * 2 ^ e = n * 2 ^ f := by
    rw [compareScaled_eq_compare, compare_eq_iff_eq]
  rcases a with m | x | (_ | _) | _ <;> rcases b with n | y | (_ | _) | _ <;>
    simp [Numeric.same, Numeric.order?, Numeric.quantity, Finite.value, scaled]

end Number

namespace Json

open Number (Numeric Quantity)

theorem sameNum_iff (a b : Numeric) : sameNum a b = true ↔ a.quantity = b.quantity := by
  rw [sameNum, Bool.or_eq_true, Numeric.same_iff]
  rcases a with m | x | s | _ <;> rcases b with n | y | t | _ <;> simp [Numeric.quantity]

/-- What a value that can be an id denotes. -/
inductive KeyDenotation where
  | null
  | text (s : String)
  | number (quantity : Quantity)

/-- What a value denotes as an id; nothing if it cannot be one. -/
def keyDenotation : Json → Option KeyDenotation
  | .null => some .null
  | .str s => some (.text s)
  | .bool b => some (.number (Numeric.int (if b then 1 else 0)).quantity)
  | .int n => some (.number (Numeric.int n).quantity)
  | .double d => some (.number (Numeric.double d).quantity)
  | .arr _ | .obj _ => none

theorem same_iff_of_isKey {a : Json} (key : a.isKey = true) (b : Json) :
    a.same b = true ↔ a.keyDenotation = b.keyDenotation := by
  cases a <;> cases b <;>
    simp_all [isKey, isArr, isObj, same, num?, keyDenotation, sameNum_iff]

theorem same_iff_of_isKey_right {b : Json} (key : b.isKey = true) (a : Json) :
    a.same b = true ↔ a.keyDenotation = b.keyDenotation := by
  cases a <;> cases b <;>
    simp_all [isKey, isArr, isObj, same, num?, keyDenotation, sameNum_iff]

theorem isKey_of_same {a b : Json} (key : b.isKey = true) (same : a.same b = true) :
    a.isKey = true := by
  cases a <;> cases b <;> simp_all [isKey, isArr, isObj, Json.same, num?]

theorem same_refl_of_isKey {a : Json} (key : a.isKey = true) : a.same a = true :=
  (same_iff_of_isKey key a).mpr rfl

/-- Ids that are the same are the same as the same values. -/
theorem same_congr_of_isKey {a b : Json} (left : a.isKey = true) (right : b.isKey = true)
    (same : a.same b = true) (other : Json) : other.same a = other.same b := by
  rw [Bool.eq_iff_iff, same_iff_of_isKey_right left, same_iff_of_isKey_right right,
    (same_iff_of_isKey left b).mp same]

/-- No value is the same as two ids that differ. -/
theorem not_same_of_not_same {a b other : Json} (left : a.isKey = true) (right : b.isKey = true)
    (differ : a.same b = false) (same : other.same b = true) : other.same a = false := by
  rw [Bool.eq_false_iff, Ne, same_iff_of_isKey_right left]
  rw [Bool.eq_false_iff, Ne, same_iff_of_isKey left] at differ
  rw [same_iff_of_isKey_right right] at same
  exact fun equal => differ (equal.symm.trans same)

/-- Only the text itself equals a text. -/
theorem equal_str_iff (value : Json) (s : String) :
    value.equal (.str s) = true ↔ value = .str s := by
  rcases value with _ | b | n | (x | t | _) | t | items | members <;>
    simp [equal, same, num?]

end Json

end Scim
