import Mathlib.Algebra.Order.Field.Power
import Mathlib.Tactic.FieldSimp
import Mathlib.Tactic.Linarith
import Mathlib.Tactic.NormNum
import Mathlib.Tactic.Ring
import Scim.Number.Shortest
import Scim.Proofs.Json.Sameness

/-!
# Rounding decimals to doubles

A decimal is read as the double nearest to the rational number it denotes, so decimals of
one value are read as one double.  A decimal that is nearer to a double than a part in
`2 ^ 54` of it is read as this double, because no midpoint between two neighbours is so
near: the spacing below the double is at least a part in `2 ^ 53` of it.
-/

namespace Scim.Number

/-! ## Fractions -/

theorem cast_tenTo (exponent : Nat) : ((tenTo exponent : Nat) : ℚ) = 10 ^ exponent := by
  induction exponent with
  | zero => simp
  | succ exponent ih => rw [tenTo_succ, Nat.cast_mul, ih, pow_succ]; norm_num

/-- The value of a fraction. -/
def fractionValue (fraction : Nat × Nat) : ℚ := fraction.1 / fraction.2

theorem fractionValue_scaleDown (num den : Nat) (exponent : Int) :
    fractionValue (scaleDown num den exponent) = num / den / 2 ^ exponent := by
  cases exponent with
  | ofNat e =>
      rw [scaleDown, fractionValue, Nat.cast_mul, cast_twoTo, Int.ofNat_eq_natCast, zpow_natCast,
        div_div]
  | negSucc e =>
      rw [scaleDown, fractionValue, Nat.cast_mul, cast_twoTo, zpow_negSucc, div_inv_eq_mul,
        mul_div_right_comm]

theorem scaleDown_pos {den : Nat} (positive : 0 < den) (num : Nat) (exponent : Int) :
    0 < (scaleDown num den exponent).2 := by
  cases exponent with
  | ofNat e => exact Nat.mul_pos positive (twoTo_pos e)
  | negSucc e => exact positive

theorem fractionValue_scaleDownTen (num den : Nat) (exponent : Int) :
    fractionValue (scaleDownTen num den exponent) = num / den / 10 ^ exponent := by
  cases exponent with
  | ofNat e =>
      rw [scaleDownTen, fractionValue, Nat.cast_mul, cast_tenTo, Int.ofNat_eq_natCast,
        zpow_natCast, div_div]
  | negSucc e =>
      rw [scaleDownTen, fractionValue, Nat.cast_mul, cast_tenTo, zpow_negSucc, div_inv_eq_mul,
        mul_div_right_comm]

theorem scaleDownTen_pos {den : Nat} (positive : 0 < den) (num : Nat) (exponent : Int) :
    0 < (scaleDownTen num den exponent).2 := by
  cases exponent with
  | ofNat e => exact Nat.mul_pos positive (tenTo_pos e)
  | negSucc e => exact positive

/-! ## Rounded quotients -/

/-- The rounded quotient is at most half away from the quotient. -/
theorem roundDiv_error {fraction : Nat × Nat} (positive : 0 < fraction.2) :
    |fractionValue fraction - roundDiv fraction.1 fraction.2| ≤ 1 / 2 := by
  obtain ⟨num, den⟩ := fraction
  have divided : den * (num / den) + num % den = num := Nat.div_add_mod num den
  have small : num % den < den := Nat.mod_lt num positive
  have next : den * (num / den + 1) = den * (num / den) + den := Nat.mul_succ den _
  have bounds : -(den : ℤ) ≤ 2 * (num - den * roundDiv num den) ∧
      2 * ((num : ℤ) - den * roundDiv num den) ≤ den := by
    unfold roundDiv
    dsimp only
    split_ifs <;> zify at * <;> omega
  have low : -(den : ℚ) ≤ 2 * (num - den * roundDiv num den) := by exact_mod_cast bounds.1
  have high : 2 * ((num : ℚ) - den * roundDiv num den) ≤ den := by exact_mod_cast bounds.2
  have denPositive : (0 : ℚ) < den := by exact_mod_cast positive
  have error : fractionValue (num, den) - roundDiv num den =
      (num - den * roundDiv num den) / den := by
    rw [fractionValue, sub_div, mul_div_cancel_left₀ _ denPositive.ne']
  rw [error, abs_le, le_div_iff₀ denPositive, div_le_iff₀ denPositive]
  constructor <;> linarith

/-- A quotient that is less than half away from a natural number is rounded to it. -/
theorem roundDiv_eq_of_near {fraction : Nat × Nat} (positive : 0 < fraction.2) {target : Nat}
    (near : |fractionValue fraction - target| < 1 / 2) :
    roundDiv fraction.1 fraction.2 = target := by
  have error := roundDiv_error positive
  rw [abs_le] at error
  rw [abs_lt] at near
  have below : (roundDiv fraction.1 fraction.2 : ℚ) < target + 1 := by linarith
  have above : (target : ℚ) < roundDiv fraction.1 fraction.2 + 1 := by linarith
  have below' : roundDiv fraction.1 fraction.2 < target + 1 := by exact_mod_cast below
  have above' : target < roundDiv fraction.1 fraction.2 + 1 := by exact_mod_cast above
  omega

theorem roundDiv_mul_left {factor : Nat} (positive : 0 < factor) (num den : Nat) :
    roundDiv (factor * num) (factor * den) = roundDiv num den := by
  have twice (n : Nat) : 2 * (factor * n) = factor * (2 * n) := Nat.mul_left_comm 2 factor n
  unfold roundDiv
  simp only [Nat.mul_div_mul_left _ _ positive, Nat.mul_mod_mul_left, twice,
    Nat.mul_lt_mul_left positive]

/-- The rounded quotient depends on the value of the fraction. -/
theorem roundDiv_congr {fraction other : Nat × Nat} (positive : 0 < fraction.2)
    (otherPositive : 0 < other.2) (same : fractionValue fraction = fractionValue other) :
    roundDiv fraction.1 fraction.2 = roundDiv other.1 other.2 := by
  have positive' : (fraction.2 : ℚ) ≠ 0 := by exact_mod_cast positive.ne'
  have otherPositive' : (other.2 : ℚ) ≠ 0 := by exact_mod_cast otherPositive.ne'
  have crossed : fraction.1 * other.2 = other.1 * fraction.2 := by
    rw [fractionValue, fractionValue, div_eq_div_iff positive' otherPositive'] at same
    exact_mod_cast same
  rw [← roundDiv_mul_left otherPositive, ← roundDiv_mul_left positive other.1,
    Nat.mul_comm other.2 fraction.1, crossed, Nat.mul_comm other.1, Nat.mul_comm other.2]

/-! ## The exponent of a double -/

/-- The exponent of the doubles next to a positive number: its significand has 53 bits
there, or fewer at the least exponent. -/
structure IsSpacing (value : ℚ) (exponent : Int) : Prop where
  least : -1074 ≤ exponent
  above : value < 2 ^ 53 * 2 ^ exponent
  below : exponent = -1074 ∨ 2 ^ 52 * 2 ^ exponent ≤ value

theorem IsSpacing.not_lt {value : ℚ} {exponent other : Int} (is : IsSpacing value exponent)
    (isOther : IsSpacing value other) : ¬ exponent < other := by
  intro less
  cases isOther.below with
  | inl least => exact absurd is.least (by omega)
  | inr below =>
      have power : (2 : ℚ) ^ (exponent + 1) ≤ 2 ^ other :=
        zpow_le_zpow_right₀ one_le_two (by omega)
      rw [zpow_add_one₀ two_ne_zero] at power
      linarith [is.above]

theorem IsSpacing.unique {value : ℚ} {exponent other : Int} (is : IsSpacing value exponent)
    (isOther : IsSpacing value other) : exponent = other := by
  have first := is.not_lt isOther
  have second := isOther.not_lt is
  omega

/-- The length of a number in bits bounds it. -/
theorem log2_bounds {n : Nat} (positive : 0 < n) :
    (2 : ℚ) ^ (n.log2 : Int) ≤ n ∧ (n : ℚ) < 2 * 2 ^ (n.log2 : Int) := by
  have low : 2 ^ n.log2 ≤ n := Nat.log2_self_le positive.ne'
  have high : n < 2 ^ (n.log2 + 1) := Nat.lt_log2_self
  rw [Nat.pow_succ, Nat.mul_comm] at high
  rw [zpow_natCast]
  exact ⟨by exact_mod_cast low, by exact_mod_cast high⟩

/-- The lengths of a numerator and a denominator bound the quotient. -/
theorem quotient_bounds {num den : Nat} (numPositive : 0 < num) (denPositive : 0 < den) :
    (2 : ℚ) ^ ((num.log2 : Int) - den.log2) < 2 * (num / den) ∧
      (num : ℚ) / den < 2 * 2 ^ ((num.log2 : Int) - den.log2) := by
  obtain ⟨numLow, numHigh⟩ := log2_bounds numPositive
  obtain ⟨denLow, denHigh⟩ := log2_bounds denPositive
  have positive : (0 : ℚ) < den := by exact_mod_cast denPositive
  have power : (0 : ℚ) < 2 ^ (den.log2 : Int) := by positivity
  rw [zpow_sub₀ two_ne_zero, ← mul_div_assoc, ← mul_div_assoc, div_lt_div_iff₀ power positive,
    div_lt_div_iff₀ positive power]
  constructor
  · have numPositive' : (0 : ℚ) < num := by exact_mod_cast numPositive
    have product := mul_lt_mul' numLow denHigh positive.le numPositive'
    linarith only [product]
  · have product := mul_lt_mul numHigh denLow power (by positivity)
    linarith only [product]

theorem isSpacing_exponentOf {num den : Nat} (numPositive : 0 < num) (denPositive : 0 < den) :
    IsSpacing (num / den) (Double.exponentOf num den) := by
  obtain ⟨low, high⟩ := quotient_bounds numPositive denPositive
  unfold Double.exponentOf
  dsimp only
  generalize estimated : (num.log2 : Int) - den.log2 - 52 = estimate
  have length : (num.log2 : Int) - den.log2 = 52 + estimate := by omega
  have scaled := fractionValue_scaleDown num den estimate
  have positive := scaleDown_pos denPositive num estimate
  generalize scaleDown num den estimate = fraction at scaled positive
  have sized : (2 : ℚ) ^ (52 + estimate) = 2 ^ 52 * 2 ^ estimate :=
    zpow_add₀ two_ne_zero 52 estimate
  rw [length, sized] at low high
  have power : (0 : ℚ) < 2 ^ estimate := by positivity
  have compares : fraction.1 < twoTo 52 * fraction.2 ↔
      (num : ℚ) / den < 2 ^ 52 * 2 ^ estimate := by
    have positive' : (0 : ℚ) < fraction.2 := by exact_mod_cast positive
    rw [← div_lt_iff₀ power, ← scaled, fractionValue, div_lt_iff₀ positive', ← cast_twoTo]
    exact_mod_cast Iff.rfl
  -- the lengths leave two exponents, and the comparison tells which of them it is
  have exact : ∃ e : Int,
      (if fraction.1 < twoTo 52 * fraction.2 then estimate - 1 else estimate) = e ∧
      (num : ℚ) / den < 2 ^ 53 * 2 ^ e ∧ (2 : ℚ) ^ 52 * 2 ^ e ≤ num / den := by
    have twice (power : ℚ) : 2 ^ 53 * power = 2 * (2 ^ 52 * power) := by ring
    have half : (2 : ℚ) ^ 52 * 2 ^ (estimate - 1) = 2 ^ 52 * 2 ^ estimate / 2 := by
      rw [zpow_sub_one₀ two_ne_zero, mul_div_assoc, div_eq_mul_inv]
    refine ⟨_, rfl, ?_⟩
    split
    · next less =>
        rw [compares] at less
        rw [twice, half]
        exact ⟨by linarith only [less], by linarith only [low]⟩
    · next more =>
        rw [compares, not_lt] at more
        rw [twice]
        exact ⟨high, more⟩
  obtain ⟨e, eq, above, below⟩ := exact
  rw [eq]
  refine ⟨le_max_left _ _, above.trans_le ?_, ?_⟩
  · exact mul_le_mul_of_nonneg_left (zpow_le_zpow_right₀ one_le_two (le_max_right _ _))
      (by norm_num)
  · rcases le_total e (-1074) with less | more
    · exact .inl (max_eq_left less)
    · exact .inr (by rwa [max_eq_right more])

/-! ## Rounding fractions -/

namespace Double

/-- A positive fraction is rounded at the exponent of the doubles next to it. -/
theorem ofRatio_eq {num den : Nat} (numPositive : 0 < num) (denPositive : 0 < den)
    {exponent : Int} (isSpacing : IsSpacing (num / den) exponent) (negative : Bool) :
    ofRatio negative num den =
      let fraction := scaleDown num den exponent
      let significand := roundDiv fraction.1 fraction.2
      if significand = twoTo 53 then ofScaled negative (twoTo 52) (exponent + 1)
      else ofScaled negative significand exponent := by
  rw [ofRatio, if_neg numPositive.ne',
    (isSpacing_exponentOf numPositive denPositive).unique isSpacing]

/-- Fractions of one value are rounded to one double. -/
theorem ofRatio_congr {num den num' den' : Nat} (positive : 0 < den) (positive' : 0 < den')
    (same : (num : ℚ) / den = num' / den') (negative : Bool) :
    ofRatio negative num den = ofRatio negative num' den' := by
  have nonzero : (den : ℚ) ≠ 0 := by exact_mod_cast positive.ne'
  have nonzero' : (den' : ℚ) ≠ 0 := by exact_mod_cast positive'.ne'
  rcases Nat.eq_zero_or_pos num with rfl | numPositive
  · have zero : num' = 0 := by
      rw [Nat.cast_zero, zero_div, eq_comm, div_eq_zero_iff, or_iff_left nonzero'] at same
      exact_mod_cast same
    rw [zero, ofRatio, ofRatio, if_pos rfl, if_pos rfl]
  · have numPositive' : 0 < num' := by
      refine Nat.pos_of_ne_zero ?_
      rintro rfl
      rw [Nat.cast_zero, zero_div, div_eq_zero_iff, or_iff_left nonzero] at same
      exact numPositive.ne' (by exact_mod_cast same)
    have isSpacing := isSpacing_exponentOf numPositive positive
    rw [ofRatio_eq numPositive positive isSpacing,
      ofRatio_eq numPositive' positive' (same ▸ isSpacing)]
    have rounded := roundDiv_congr (scaleDown_pos positive num (exponentOf num den))
      (scaleDown_pos positive' num' (exponentOf num den))
      (by rw [fractionValue_scaleDown, fractionValue_scaleDown, same])
    simp only [rounded]

end Double

/-- The size of a finite double. -/
def Finite.magnitude (x : Finite) : ℚ := x.significand * 2 ^ x.exponent

/-- Less than a part in `2 ^ 54` away from a double. -/
def Finite.IsNear (x : Finite) (value : ℚ) : Prop :=
  |value - x.magnitude| < x.magnitude / 2 ^ 54

namespace Finite

variable {x : Finite} {value : ℚ}

theorem IsNear.bounds (near : x.IsNear value) :
    x.magnitude * (1 - 1 / 2 ^ 54) < value ∧ value < x.magnitude * (1 + 1 / 2 ^ 54) := by
  have distance := abs_lt.mp near
  constructor <;> linarith [distance.1, distance.2]

theorem significand_lt (x : Finite) : (x.significand : ℚ) ≤ 2 ^ 53 - 1 := by
  have bound : x.significand + 1 ≤ twoTo 53 := x.inRange.1
  have cast : ((x.significand + 1 : Nat) : ℚ) ≤ (twoTo 53 : Nat) := by exact_mod_cast bound
  rw [cast_twoTo] at cast
  push_cast at cast
  linarith

theorem IsNear.lt (near : x.IsNear value) : value < 2 ^ 53 * 2 ^ x.exponent := by
  have power : (0 : ℚ) < 2 ^ x.exponent := by positivity
  have significand := mul_le_mul_of_nonneg_right x.significand_lt power.le
  have above := near.bounds.2
  rw [magnitude] at above
  linarith only [above, significand, power]

theorem IsNear.pos (near : x.IsNear value) : 0 < value := by
  have size : 0 < x.magnitude / 2 ^ 54 := (abs_nonneg _).trans_lt near
  have positive : 0 < x.magnitude := by
    rwa [div_pos_iff_of_pos_right (by norm_num)] at size
  refine lt_trans ?_ near.bounds.1
  exact mul_pos positive (by norm_num)

/-- At the exponent of the double its significand is the nearest one. -/
theorem IsNear.scaled (near : x.IsNear value) :
    |value / 2 ^ x.exponent - x.significand| < 1 / 2 := by
  have power : (0 : ℚ) < 2 ^ x.exponent := by positivity
  have scale : value / 2 ^ x.exponent - x.significand =
      (value - x.magnitude) / 2 ^ x.exponent := by
    rw [magnitude, sub_div, mul_div_cancel_right₀ _ power.ne']
  rw [scale, abs_div, abs_of_pos power, div_lt_iff₀ power]
  refine lt_of_lt_of_le near ?_
  have significand := mul_le_mul_of_nonneg_right x.significand_lt power.le
  rw [magnitude]
  linarith only [significand, power]

/-- Below the doubles of its exponent a number is near to the least of these only. -/
theorem IsNear.significand_eq (near : x.IsNear value) (inner : x.exponent ≠ -1074)
    (less : value < 2 ^ 52 * 2 ^ x.exponent) : x.significand = twoTo 52 := by
  obtain ⟨-, -, -, least⟩ := x.inRange
  have atLeast : twoTo 52 ≤ x.significand := least.resolve_left inner
  by_contra differs
  have more : twoTo 52 + 1 ≤ x.significand := by omega
  have cast : ((twoTo 52 + 1 : Nat) : ℚ) ≤ x.significand := by exact_mod_cast more
  have power : (0 : ℚ) < 2 ^ x.exponent := by positivity
  rw [Nat.cast_add, cast_twoTo, Nat.cast_one] at cast
  have scaled := mul_le_mul_of_nonneg_right cast power.le
  have below := near.bounds.1
  rw [magnitude] at below
  linarith only [below, scaled, less, power]

/-- There the double is reached by rounding up at the exponent below. -/
theorem IsNear.scaled_below (near : x.IsNear value) (boundary : x.significand = twoTo 52)
    (less : value < 2 ^ 52 * 2 ^ x.exponent) :
    |value / 2 ^ (x.exponent - 1) - twoTo 53| < 1 / 2 := by
  have power : (0 : ℚ) < 2 ^ x.exponent := by positivity
  have below := near.bounds.1
  rw [magnitude, boundary, cast_twoTo] at below
  rw [cast_twoTo, zpow_sub_one₀ two_ne_zero, abs_lt, sub_lt_iff_lt_add, lt_sub_iff_add_lt,
    lt_div_iff₀ (by positivity), div_lt_iff₀ (by positivity)]
  constructor
  · linarith only [below, power]
  · linarith only [less, power]

end Finite

namespace Double

theorem ofScaled_self (x : Finite) : ofScaled x.negative x.significand x.exponent = .finite x := by
  rw [ofScaled, dif_pos x.inRange]

/-- A fraction near to a double is rounded to it. -/
theorem ofRatio_of_near {x : Finite} {num den : Nat} (positive : 0 < den)
    (near : x.IsNear (num / den)) : ofRatio x.negative num den = .finite x := by
  obtain ⟨small, least, -, -⟩ := x.inRange
  have numPositive : 0 < num := by
    refine Nat.pos_of_ne_zero ?_
    rintro rfl
    simpa using near.pos
  by_cases below : x.exponent = -1074 ∨ 2 ^ 52 * 2 ^ x.exponent ≤ (num : ℚ) / den
  · have rounded := roundDiv_eq_of_near (scaleDown_pos positive num x.exponent)
      (by rw [fractionValue_scaleDown]; exact near.scaled)
    rw [ofRatio_eq numPositive positive ⟨least, near.lt, below⟩]
    dsimp only
    rw [rounded, if_neg (Nat.ne_of_lt small), ofScaled_self]
  · -- the spacing of the doubles halves here, so the number has the exponent below
    rw [not_or, not_le] at below
    obtain ⟨inner, less⟩ := below
    have boundary := near.significand_eq inner less
    have isSpacing : IsSpacing ((num : ℚ) / den) (x.exponent - 1) := by
      refine ⟨by omega, ?_, .inr ?_⟩
      · rw [zpow_sub_one₀ two_ne_zero]
        linarith only [less]
      · have bound := near.bounds.1
        rw [Finite.magnitude, boundary, cast_twoTo] at bound
        have power : (0 : ℚ) < 2 ^ x.exponent := by positivity
        rw [zpow_sub_one₀ two_ne_zero]
        linarith only [bound, power]
    have rounded := roundDiv_eq_of_near (scaleDown_pos positive num (x.exponent - 1))
      (by rw [fractionValue_scaleDown]; exact near.scaled_below boundary less)
    rw [ofRatio_eq numPositive positive isSpacing]
    dsimp only
    rw [rounded, if_pos rfl, ← boundary, sub_add_cancel, ofScaled_self]

end Double

/-! ## Rounding decimals -/

/-- The number that a decimal denotes. -/
def decimalValue (digits : Nat) (exponent : Int) : ℚ := digits * 10 ^ exponent

/-- The decimal places before the point of a decimal that is not zero bound its value. -/
theorem decimalValue_bounds {digits : Nat} (positive : 0 < digits) (exponent : Int) :
    (10 : ℚ) ^ ((Nat.toDigits 10 digits).length + exponent - 1) ≤ decimalValue digits exponent ∧
      decimalValue digits exponent < 10 ^ ((Nat.toDigits 10 digits).length + exponent) := by
  have power : (0 : ℚ) < 10 ^ exponent := by positivity
  have count : 0 < (Nat.toDigits 10 digits).length := List.length_pos_iff.mpr Nat.toDigits_ne_nil
  generalize length : (Nat.toDigits 10 digits).length = places at count
  have high : digits < 10 ^ places := by
    rw [← Nat.length_toDigits_le_iff (by decide) count, length]
  have low : 10 ^ (places - 1) ≤ digits := by
    rcases Nat.eq_zero_or_pos (places - 1) with zero | more
    · rw [zero]
      exact positive
    · rw [← Nat.not_lt, ← Nat.length_toDigits_le_iff (by decide) more, length]
      omega
  have split : (places : Int) + exponent - 1 = ((places - 1 : Nat) : Int) + exponent := by omega
  rw [split, zpow_add₀ (by norm_num), zpow_add₀ (by norm_num), zpow_natCast, zpow_natCast,
    decimalValue]
  exact ⟨mul_le_mul_of_nonneg_right (by exact_mod_cast low) power.le,
    mul_lt_mul_of_pos_right (by exact_mod_cast high) power⟩

/-- Decimals of one value that is not zero have as many places before the point. -/
theorem places_congr {digits digits' : Nat} (positive : 0 < digits) (positive' : 0 < digits')
    {exponent exponent' : Int}
    (same : decimalValue digits exponent = decimalValue digits' exponent') :
    ((Nat.toDigits 10 digits).length : Int) + exponent =
      (Nat.toDigits 10 digits').length + exponent' := by
  have bounds := decimalValue_bounds positive exponent
  have bounds' := decimalValue_bounds positive' exponent'
  rw [← same] at bounds'
  have ten : (1 : ℚ) < 10 := by norm_num
  have first := (zpow_lt_zpow_iff_right₀ ten).mp (bounds.1.trans_lt bounds'.2)
  have second := (zpow_lt_zpow_iff_right₀ ten).mp (bounds'.1.trans_lt bounds.2)
  omega

/-- A decimal as a fraction. -/
def decimalFraction (digits : Nat) : Int → Nat × Nat
  | .ofNat e => (digits * tenTo e, 1)
  | .negSucc e => (digits, tenTo (e + 1))

theorem fractionValue_decimalFraction (digits : Nat) (exponent : Int) :
    fractionValue (decimalFraction digits exponent) = decimalValue digits exponent := by
  cases exponent with
  | ofNat e =>
      rw [decimalFraction, fractionValue, decimalValue, Nat.cast_mul, cast_tenTo, Nat.cast_one,
        div_one, Int.ofNat_eq_natCast, zpow_natCast]
  | negSucc e =>
      rw [decimalFraction, fractionValue, decimalValue, cast_tenTo, zpow_negSucc, div_eq_mul_inv]

theorem decimalFraction_pos (digits : Nat) (exponent : Int) :
    0 < (decimalFraction digits exponent).2 := by
  cases exponent with
  | ofNat e => exact Nat.one_pos
  | negSucc e => exact tenTo_pos (e + 1)

namespace Double

theorem ofDecimal_eq (negative : Bool) (digits : Nat) (exponent : Int) :
    ofDecimal negative digits exponent =
      let places : Int := (Nat.toDigits 10 digits).length + exponent
      let fraction := decimalFraction digits exponent
      if digits = 0 ∨ places < -330 then zero negative
      else if 330 < places then .infinite negative
      else ofRatio negative fraction.1 fraction.2 := by
  cases exponent <;> rfl

/-- Decimals of one value are read as one double. -/
theorem ofDecimal_congr {digits digits' : Nat} {exponent exponent' : Int}
    (same : decimalValue digits exponent = decimalValue digits' exponent') (negative : Bool) :
    ofDecimal negative digits exponent = ofDecimal negative digits' exponent' := by
  have zero_iff (n : Nat) (e : Int) : decimalValue n e = 0 ↔ n = 0 := by
    simp [decimalValue, zpow_ne_zero]
  rw [ofDecimal_eq, ofDecimal_eq]
  dsimp only
  rcases Nat.eq_zero_or_pos digits with rfl | positive
  · have zero : digits' = 0 := by rw [← zero_iff, ← same, zero_iff]
    rw [zero, if_pos (.inl rfl), if_pos (.inl rfl)]
  · have positive' : 0 < digits' := by
      refine Nat.pos_of_ne_zero fun zero => positive.ne' ?_
      rw [← zero_iff digits exponent, same, zero_iff, zero]
    have rounded : ofRatio negative (decimalFraction digits exponent).1
        (decimalFraction digits exponent).2 =
        ofRatio negative (decimalFraction digits' exponent').1
          (decimalFraction digits' exponent').2 := by
      refine ofRatio_congr (decimalFraction_pos ..) (decimalFraction_pos ..) ?_ negative
      change fractionValue _ = fractionValue _
      rw [fractionValue_decimalFraction, fractionValue_decimalFraction, same]
    simp only [places_congr positive positive' same, positive.ne', positive'.ne', rounded]

end Double

namespace Finite

variable {x : Finite} {value : ℚ}

theorem IsNear.significand_pos (near : x.IsNear value) : 1 ≤ x.significand := by
  refine Nat.pos_of_ne_zero fun zero => ?_
  have bounds := near.bounds
  rw [magnitude, zero, Nat.cast_zero, zero_mul, zero_mul, zero_mul] at bounds
  exact lt_irrefl 0 (bounds.1.trans bounds.2)

/-- What is near to a double is not below `10 ^ (-325)`. -/
theorem IsNear.low (near : x.IsNear value) : (10 : ℚ) ^ (-325 : Int) ≤ value := by
  have powers : ((2 : ℚ) ^ 43) ^ 25 ≤ (10 ^ 13) ^ 25 :=
    pow_le_pow_left₀ (by norm_num) (by norm_num) 25
  have tiny : (10 : ℚ) ^ (-325 : Int) ≤ 2 ^ (-1075 : Int) := by
    rw [← pow_mul, ← pow_mul] at powers
    rw [zpow_neg, zpow_neg]
    exact inv_anti₀ (by positivity) powers
  have half : (2 : ℚ) ^ (-1075 : Int) = 2 ^ (-1074 : Int) * 2⁻¹ := by
    rw [← zpow_sub_one₀ two_ne_zero, show (-1074 - 1 : Int) = -1075 by decide]
  have least : (2 : ℚ) ^ (-1074 : Int) ≤ x.magnitude := by
    refine (zpow_le_zpow_right₀ one_le_two x.inRange.2.1).trans ?_
    exact le_mul_of_one_le_left (by positivity) (by exact_mod_cast near.significand_pos)
  have part : x.magnitude * 2⁻¹ ≤ x.magnitude * (1 - 1 / 2 ^ 54) :=
    mul_le_mul_of_nonneg_left (by norm_num) ((by positivity : (0 : ℚ) ≤ _).trans least)
  have below := near.bounds.1
  linarith

/-- What is near to a double is below `10 ^ 325`. -/
theorem IsNear.high (near : x.IsNear value) : value < (10 : ℚ) ^ (325 : Int) := by
  have powers : ((2 : ℚ) ^ 41) ^ 25 ≤ (10 ^ 13) ^ 25 :=
    pow_le_pow_left₀ (by norm_num) (by norm_num) 25
  have huge : (2 : ℚ) ^ (1025 : Int) ≤ 10 ^ (325 : Int) := by
    rw [← pow_mul, ← pow_mul] at powers
    exact powers
  have bound := x.inRange.2.2.1
  refine (near.lt.trans_le ?_).trans_le huge
  rw [← zpow_natCast, ← zpow_add₀ two_ne_zero]
  exact zpow_le_zpow_right₀ one_le_two (by push_cast; omega)

/-- The decimals near to a double lie within the places at which they are not decided early. -/
theorem IsNear.places {digits : Nat} (positive : 0 < digits) {exponent : Int}
    (near : x.IsNear (decimalValue digits exponent)) :
    -330 ≤ ((Nat.toDigits 10 digits).length : Int) + exponent ∧
      ((Nat.toDigits 10 digits).length : Int) + exponent ≤ 330 := by
  have ten : (1 : ℚ) < 10 := by norm_num
  obtain ⟨low, high⟩ := decimalValue_bounds positive exponent
  have first := (zpow_lt_zpow_iff_right₀ ten).mp (near.low.trans_lt high)
  have second := (zpow_lt_zpow_iff_right₀ ten).mp (low.trans_lt near.high)
  omega

end Finite

/-- A decimal near to a double is read as it. -/
theorem Double.ofDecimal_of_near {x : Finite} {digits : Nat} {exponent : Int}
    (near : x.IsNear (decimalValue digits exponent)) :
    ofDecimal x.negative digits exponent = .finite x := by
  have positive : 0 < digits := by
    refine Nat.pos_of_ne_zero ?_
    rintro rfl
    simpa [decimalValue] using near.pos
  obtain ⟨low, high⟩ := near.places positive
  rw [ofDecimal_eq]
  dsimp only
  rw [if_neg (not_or.mpr ⟨positive.ne', not_lt.mpr low⟩), if_neg (not_lt.mpr high)]
  refine ofRatio_of_near (decimalFraction_pos digits exponent) ?_
  have same := fractionValue_decimalFraction digits exponent
  rw [fractionValue] at same
  rwa [same]

end Scim.Number
