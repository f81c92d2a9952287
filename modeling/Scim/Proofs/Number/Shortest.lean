import Scim.Proofs.Number.Rounding

/-!
# Seventeen digits suffice

The decimal that is shown for a double reads back to it.  The search for the shortest one
tests that a candidate reads back, so what remains is that it ends: with seventeen digits
the grid of decimals is so fine that the nearest one is near to the double.
-/

namespace Scim.Number

variable {x : Finite}

/-! ## Decimal places -/

/-- Powers of ten and of two are compared by a rational bound on the logarithm. -/
theorem tenPower_le_twoPower {places binary : Int} {p r : Nat} (nonzero : r ≠ 0)
    (ratio : r * places ≤ p * binary)
    (bases : ((10 : ℚ) ^ p) ^ binary ≤ (2 ^ r) ^ binary) :
    (10 : ℚ) ^ places ≤ 2 ^ binary := by
  rw [← pow_le_pow_iff_left₀ (by positivity) (by positivity) nonzero]
  calc ((10 : ℚ) ^ places) ^ r
    _ = 10 ^ (r * places) := by rw [← zpow_natCast, ← zpow_mul, Int.mul_comm]
    _ ≤ 10 ^ (p * binary) := zpow_le_zpow_right₀ (by norm_num) ratio
    _ = (10 ^ p) ^ binary := by rw [zpow_mul, zpow_natCast]
    _ ≤ (2 ^ r) ^ binary := bases
    _ = (2 ^ binary) ^ r := by
      rw [← zpow_natCast, ← zpow_natCast, ← zpow_mul, ← zpow_mul, Int.mul_comm]

/-- The estimate of the decimal places is below the true one for all doubles. -/
theorem estimate_le {binary : Int} (low : -1100 ≤ binary) (high : binary ≤ 1100) :
    (10 : ℚ) ^ (Int.fdiv (binary * 30103) 100000 - 1 - 1) ≤ 2 ^ binary := by
  have rounded : 100000 * Int.fdiv (binary * 30103) 100000 ≤ binary * 30103 := by
    rw [Int.fdiv_eq_ediv_of_nonneg _ (by decide)]
    exact Int.mul_ediv_self_le (by decide)
  generalize Int.fdiv (binary * 30103) 100000 = quotient at rounded
  rcases le_total 0 binary with up | down
  · refine tenPower_le_twoPower (p := 3) (r := 10) (by decide) (by push_cast; omega) ?_
    obtain ⟨n, rfl⟩ := Int.eq_ofNat_of_zero_le up
    rw [zpow_natCast, zpow_natCast]
    exact pow_le_pow_left₀ (by norm_num) (by norm_num) n
  · refine tenPower_le_twoPower (p := 28) (r := 93) (by decide) (by push_cast; omega) ?_
    obtain ⟨n, negated⟩ := Int.eq_ofNat_of_zero_le (Int.neg_nonneg.mpr down)
    obtain rfl : binary = -(n : Int) := by omega
    rw [zpow_neg, zpow_neg, zpow_natCast, zpow_natCast]
    exact inv_anti₀ (by positivity) (pow_le_pow_left₀ (by norm_num) (by norm_num) n)

theorem placesFrom_low (num : Nat) {den : Nat} (positive : 0 < den) (tries : Nat) {start : Int}
    (low : (10 : ℚ) ^ (start - 1) ≤ num / den) :
    (10 : ℚ) ^ (placesFrom num den tries start - 1) ≤ num / den := by
  induction tries generalizing start with
  | zero => exact low
  | succ tries ih =>
      have scaled := fractionValue_scaleDownTen num den start
      have scaledPositive := scaleDownTen_pos positive num start
      rw [placesFrom]
      generalize scaleDownTen num den start = fraction at scaled scaledPositive
      dsimp only
      split
      · exact low
      · next more =>
          refine ih ?_
          have denPositive : (0 : ℚ) < fraction.2 := by exact_mod_cast scaledPositive
          have one : (1 : ℚ) ≤ fractionValue fraction := by
            rw [fractionValue, one_le_div denPositive]
            exact_mod_cast Nat.not_lt.mp more
          rwa [scaled, one_le_div (by positivity), ← add_sub_cancel_right start 1] at one

theorem Finite.fractionValue_ratio (x : Finite) : fractionValue x.ratio = x.magnitude := by
  rw [ratio, fractionValue_scaleDown, magnitude, Nat.cast_one, div_one, zpow_neg, div_inv_eq_mul]

theorem Finite.ratio_pos (x : Finite) : 0 < x.ratio.2 := scaleDown_pos Nat.one_pos _ _

theorem Finite.magnitude_pos (nonzero : x.significand ≠ 0) : 0 < x.magnitude := by
  have positive : (0 : ℚ) < x.significand := by exact_mod_cast Nat.pos_of_ne_zero nonzero
  rw [magnitude]
  positivity

/-- A double that is not zero has at least as many decimal places as are found. -/
theorem Finite.places_low (nonzero : x.significand ≠ 0) :
    (10 : ℚ) ^ (places x.ratio.1 x.ratio.2 - 1) ≤ x.magnitude := by
  have value := x.fractionValue_ratio
  have denPositive := x.ratio_pos
  have positive := magnitude_pos nonzero
  have one : (1 : ℚ) ≤ x.significand := by exact_mod_cast Nat.pos_of_ne_zero nonzero
  have numPositive : 0 < x.ratio.1 := by
    refine Nat.pos_of_ne_zero fun zero => positive.ne' ?_
    rw [← value, fractionValue, zero, Nat.cast_zero, zero_div]
  obtain ⟨low, high⟩ := quotient_bounds numPositive denPositive
  rw [fractionValue] at value
  rw [value] at low high
  have size : (2 : ℚ) ^ (-1074 : Int) ≤ x.magnitude ∧ x.magnitude < 2 ^ (1024 : Int) := by
    constructor
    · refine (zpow_le_zpow_right₀ one_le_two x.inRange.2.1).trans ?_
      exact le_mul_of_one_le_left (by positivity) one
    · have power : (0 : ℚ) < 2 ^ x.exponent := by positivity
      have significand : (x.significand : ℚ) < 2 ^ (53 : Int) := by
        linarith [x.significand_lt]
      refine (mul_lt_mul_of_pos_right significand power).trans_le ?_
      rw [← zpow_add₀ two_ne_zero]
      exact zpow_le_zpow_right₀ one_le_two (by have := x.inRange.2.2.1; omega)
  have two : (1 : ℚ) < 2 := one_lt_two
  rw [places]
  generalize (x.ratio.1.log2 : Int) - x.ratio.2.log2 = length at low high
  have shorter : (2 : ℚ) ^ (length - 1) < x.magnitude := by
    rw [zpow_sub_one₀ two_ne_zero]
    linarith
  have lower : -1100 ≤ length - 1 := by
    have grown : (2 : ℚ) ^ (-1074 : Int) < 2 ^ (length + 1) := by
      rw [zpow_add_one₀ two_ne_zero]
      linarith
    have compared := (zpow_lt_zpow_iff_right₀ two).mp grown
    omega
  have upper : length - 1 ≤ 1100 := by
    have compared := (zpow_lt_zpow_iff_right₀ two).mp (shorter.trans size.2)
    omega
  have found := placesFrom_low x.ratio.1 denPositive 6
    (by rw [value]; exact (estimate_le lower upper).trans shorter.le)
  rwa [value] at found

/-! ## Candidates -/

theorem Decimal.readsBack_iff (decimal : Decimal) (x : Finite) :
    decimal.readsBack x = true ↔
      Double.ofDecimal x.negative decimal.digits decimal.exponent = .finite x := by
  rw [readsBack, beq_iff_eq]

theorem readsBack_of_neighbour? {exponent : Int} {decimal : Decimal}
    (found : neighbour? x exponent = some decimal) : decimal.readsBack x = true := by
  unfold neighbour? at found
  dsimp only at found
  split_ifs at found with near below above
  · exact Option.some.inj found ▸ near
  · exact Option.some.inj found ▸ below
  · exact Option.some.inj found ▸ above

/-- On a grid that is fine enough the nearest decimal is near to the double. -/
theorem Finite.isNear_of_grid {digits : Nat} {exponent : Int} (nonzero : x.significand ≠ 0)
    (fine : (10 : ℚ) ^ exponent * 10 ^ 16 ≤ x.magnitude)
    (nearest : |x.magnitude / 10 ^ exponent - digits| ≤ 1 / 2) :
    x.IsNear (decimalValue digits exponent) := by
  have size := magnitude_pos nonzero
  have power : (0 : ℚ) < 10 ^ exponent := by positivity
  have unscaled : decimalValue digits exponent - x.magnitude =
      -(x.magnitude / 10 ^ exponent - digits) * 10 ^ exponent := by
    rw [decimalValue, neg_sub, sub_mul, div_mul_cancel₀ _ power.ne']
  rw [IsNear, unscaled, abs_mul, abs_neg, abs_of_pos power]
  refine (mul_le_mul_of_nonneg_right nearest power.le).trans_lt ?_
  generalize (10 : ℚ) ^ exponent = grid at fine
  norm_num at fine ⊢
  linarith

/-- The nearest decimal on a grid is taken if it reads back. -/
theorem neighbour?_eq_nearest {exponent : Int} {fraction : Nat × Nat}
    (scaled : scaleDownTen x.ratio.1 x.ratio.2 exponent = fraction)
    (readsBack : (⟨roundDiv fraction.1 fraction.2, exponent⟩ : Decimal).readsBack x = true) :
    neighbour? x exponent = some ⟨roundDiv fraction.1 fraction.2, exponent⟩ := by
  subst scaled
  unfold neighbour?
  exact if_pos readsBack

/-- With seventeen digits there is a decimal that reads back. -/
theorem neighbour?_isSome {width exponent : Int} (seventeen : width = exponent + 17)
    (nonzero : x.significand ≠ 0) (low : (10 : ℚ) ^ (width - 1) ≤ x.magnitude) :
    (neighbour? x exponent).isSome = true := by
  have fine : (10 : ℚ) ^ exponent * 10 ^ 16 ≤ x.magnitude := by
    rwa [← zpow_natCast, ← zpow_add₀ (by norm_num),
      show exponent + (16 : Nat) = width - 1 by omega]
  have nearest := roundDiv_error (scaleDownTen_pos x.ratio_pos x.ratio.1 exponent)
  have value : (x.ratio.1 : ℚ) / x.ratio.2 = x.magnitude := x.fractionValue_ratio
  rw [fractionValue_scaleDownTen, value] at nearest
  have near := Finite.isNear_of_grid nonzero fine nearest
  rw [neighbour?_eq_nearest rfl ((Decimal.readsBack_iff _ x).mpr (Double.ofDecimal_of_near near)),
    Option.isSome_some]

/-- The search ends with a decimal that reads back, if there is one at its last count. -/
theorem shortestFrom_readsBack (width : Int) (more count : Nat)
    (last : (neighbour? x (width - (count + more : Nat))).isSome = true) :
    (shortestFrom x width more count).readsBack x = true := by
  induction more generalizing count with
  | zero =>
      obtain ⟨decimal, found⟩ := Option.isSome_iff_exists.mp last
      rw [Nat.add_zero] at found
      rw [shortestFrom, found]
      exact readsBack_of_neighbour? found
  | succ more ih =>
      rw [shortestFrom]
      cases found : neighbour? x (width - count) with
      | some decimal => exact readsBack_of_neighbour? found
      | none =>
          refine ih (count + 1) ?_
          rwa [Nat.add_assoc, Nat.add_comm 1]

/-! ## The shortest decimal -/

/-- Dropping zeros does not change the value. -/
theorem Decimal.strip_value (decimal : Decimal) (fuel : Nat) :
    decimalValue (decimal.strip fuel).digits (decimal.strip fuel).exponent =
      decimalValue decimal.digits decimal.exponent := by
  induction fuel generalizing decimal with
  | zero => rfl
  | succ fuel ih =>
      rw [strip]
      split
      · next tens =>
          have whole : decimal.digits = decimal.digits / 10 * 10 := by omega
          have cast : (decimal.digits : ℚ) = (decimal.digits / 10 : Nat) * 10 := by
            exact_mod_cast whole
          rw [ih, decimalValue, decimalValue, zpow_add_one₀ (by norm_num), cast]
          ring
      · rfl

/-- The decimal that is shown for a double reads back to it. -/
theorem Finite.shortest_readsBack (x : Finite) :
    Double.ofDecimal x.negative x.shortest.digits x.shortest.exponent = .finite x := by
  unfold shortest
  split
  · next zero =>
      obtain ⟨negative, significand, exponent, inRange⟩ := x
      obtain rfl : significand = 0 := zero
      obtain rfl : exponent = -1074 :=
        inRange.2.2.2.resolve_right (Nat.not_le.mpr (twoTo_pos 52))
      rfl
  · next nonzero =>
      have last : (neighbour? x (places x.ratio.1 x.ratio.2 - (1 + 16 : Nat))).isSome = true :=
        neighbour?_isSome (by omega) nonzero (places_low nonzero)
      have found := (Decimal.readsBack_iff _ x).mp (shortestFrom_readsBack _ 16 1 last)
      rw [← found]
      exact Double.ofDecimal_congr (Decimal.strip_value _ 17) x.negative

end Scim.Number
