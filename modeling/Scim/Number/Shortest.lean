import Scim.Number.Double

/-!
# Shortest decimals

The decimal text of a finite double has the fewest digits that read back to it, and among those the
digits nearest to it. On the grid of decimals with a given number of digits only the two neighbours
of the value can read back, so the search tests those for one digit, two digits and so on up to
seventeen, which always suffice.
-/

namespace Scim.Number

/-- A decimal `digits * 10 ^ exponent`. -/
structure Decimal where
  digits : Nat
  exponent : Int
  deriving DecidableEq, Inhabited

/-- The magnitude of a finite double as a fraction. -/
def Finite.ratio (x : Finite) : Nat × Nat :=
  scaleDown x.significand 1 (-x.exponent)

/-- A fraction divided by a power of ten, as a fraction. -/
def scaleDownTen (num den : Nat) (exponent : Int) : Nat × Nat :=
  match exponent with
  | .ofNat e => (num, den * tenTo e)
  | .negSucc e => (num * tenTo (e + 1), den)

/-- The number of decimal places before the point of a positive fraction: the least `p` for which it
is below `10 ^ p`, sought upward from a bound below it. -/
def placesFrom (num den : Nat) : Nat → Int → Int
  | 0, p => p
  | tries + 1, p =>
    let (n, d) := scaleDownTen num den p
    if n < d then p else placesFrom num den tries (p + 1)

/-- The number of decimal places before the point of a positive fraction. -/
def places (num den : Nat) : Int :=
  let binary : Int := (num.log2 : Int) - den.log2 - 1
  placesFrom num den 6 (Int.fdiv (binary * 30103) 100000 - 1)

/-- Whether a decimal reads back to a finite double. -/
def Decimal.readsBack (decimal : Decimal) (x : Finite) : Bool :=
  Double.ofDecimal x.negative decimal.digits decimal.exponent == .finite x

/-- The neighbour of a value on the grid `10 ^ exponent` that reads back; of two the nearer, and of
two at equal distance the one with an even last digit. -/
def neighbour? (x : Finite) (exponent : Int) : Option Decimal :=
  let (num, den) := x.ratio
  let (n, d) := scaleDownTen num den exponent
  let below : Decimal := ⟨n / d, exponent⟩
  let above : Decimal := ⟨n / d + 1, exponent⟩
  let near : Decimal := ⟨roundDiv n d, exponent⟩
  if near.readsBack x then some near
  else if below.readsBack x then some below
  else if above.readsBack x then some above
  else none

/-- The first decimal that reads back among those with `count`, `count + 1`, … digits. -/
def shortestFrom (x : Finite) (width : Int) : Nat → Nat → Decimal
  | 0, count => (neighbour? x (width - count)).getD default
  | more + 1, count => (neighbour? x (width - count)).getD (shortestFrom x width more (count + 1))

/-- Drops trailing zeros of the digits, at most `fuel` of them. -/
def Decimal.strip (decimal : Decimal) : Nat → Decimal
  | 0 => decimal
  | fuel + 1 =>
    if decimal.digits % 10 = 0 then strip ⟨decimal.digits / 10, decimal.exponent + 1⟩ fuel
    else decimal

/-- The shortest decimal of the magnitude of a finite double. -/
def Finite.shortest (x : Finite) : Decimal :=
  if x.significand = 0 then ⟨0, 0⟩
  else
    let (num, den) := x.ratio
    (shortestFrom x (places num den) 16 1).strip 17

end Scim.Number
