import Scim.Number.Power

/-!
# Double-precision numbers

A finite double is `significand * 2 ^ exponent` in a normal form that each value has once, so equal
numbers are equal data (apart from the two zeros). Reading a fraction rounds to nearest, a tie to
the even significand, and everything here is exact integer arithmetic.
-/

namespace Scim.Number

/-- Normal form of a binary significand and exponent: 53 bits, of which the first is set unless the
exponent is the least one. -/
def InRange (significand : Nat) (exponent : Int) : Prop :=
  significand < twoTo 53 ∧ -1074 ≤ exponent ∧ exponent ≤ 971 ∧
    (exponent = -1074 ∨ twoTo 52 ≤ significand)

instance (significand : Nat) (exponent : Int) : Decidable (InRange significand exponent) :=
  inferInstanceAs (Decidable (_ ∧ _))

/-- A finite double. -/
structure Finite where
  negative : Bool
  significand : Nat
  exponent : Int
  inRange : InRange significand exponent
  deriving DecidableEq

/-- A double-precision number. -/
inductive Double where
  | finite (x : Finite)
  | infinite (negative : Bool)
  | nan
  deriving DecidableEq

/-- The quotient of two numbers, rounded to nearest and from a tie to the even neighbour. -/
def roundDiv (num den : Nat) : Nat :=
  let q := num / den
  let r := num % den
  if 2 * r < den then q
  else if den < 2 * r then q + 1
  else if q % 2 = 0 then q else q + 1

/-- A fraction divided by a power of two, as a fraction. -/
def scaleDown (num den : Nat) (exponent : Int) : Nat × Nat :=
  match exponent with
  | .ofNat e => (num, den * twoTo e)
  | .negSucc e => (num * twoTo (e + 1), den)

namespace Double

instance : Inhabited Double := ⟨.nan⟩

/-- Zero with a sign. -/
def zero (negative : Bool) : Double :=
  .finite ⟨negative, 0, -1074, by decide⟩

/-- The double `significand * 2 ^ exponent`, infinite when it is too large for a finite one. -/
def ofScaled (negative : Bool) (significand : Nat) (exponent : Int) : Double :=
  if h : InRange significand exponent then .finite ⟨negative, significand, exponent, h⟩
  else .infinite negative

/-- The exponent at which a positive fraction has a significand of 53 bits, but not below the least
one. -/
def exponentOf (num den : Nat) : Int :=
  let e : Int := (num.log2 : Int) - den.log2 - 52
  let (n, d) := scaleDown num den e
  max (-1074) (if n < twoTo 52 * d then e - 1 else e)

/-- The double nearest to a fraction. -/
def ofRatio (negative : Bool) (num den : Nat) : Double :=
  if num = 0 then zero negative
  else
    let e := exponentOf num den
    let (n, d) := scaleDown num den e
    let significand := roundDiv n d
    if significand = twoTo 53 then ofScaled negative (twoTo 52) (e + 1)
    else ofScaled negative significand e

/-- The double nearest to `digits * 10 ^ exponent`. Numbers beyond the range of doubles by a whole
decimal place are decided without computing the power. -/
def ofDecimal (negative : Bool) (digits : Nat) (exponent : Int) : Double :=
  let places : Int := (Nat.toDigits 10 digits).length + exponent
  if digits = 0 ∨ places < -330 then zero negative
  else if 330 < places then .infinite negative
  else
    match exponent with
    | .ofNat e => ofRatio negative (digits * tenTo e) 1
    | .negSucc e => ofRatio negative digits (tenTo (e + 1))

/-- Whether the number is neither infinite nor a NaN. -/
def isFinite : Double → Bool
  | .finite _ => true
  | _ => false

/-- Whether the number is zero of either sign. -/
def isZero : Double → Bool
  | .finite x => x.significand == 0
  | _ => false

end Double

/-- The signed significand. -/
def Finite.signed (x : Finite) : Int :=
  if x.negative then -(x.significand : Int) else x.significand

/-- A number: an integer of any size or a double. -/
inductive Numeric where
  | int (n : Int)
  | double (d : Double)
  deriving DecidableEq

/-- Order of `m * 2 ^ e` and `n * 2 ^ f`. -/
def compareScaled (m : Int) (e : Int) (n : Int) (f : Int) : Ordering :=
  let low := min e f
  compare (m * twoTo (e - low).toNat) (n * twoTo (f - low).toNat)

namespace Numeric

/-- Exact order of two numbers; a NaN is ordered with nothing. -/
def order? : Numeric → Numeric → Option Ordering
  | .double .nan, _ => none
  | _, .double .nan => none
  | .double (.infinite s), .double (.infinite t) =>
    some (if s = t then .eq else if s then .lt else .gt)
  | .double (.infinite s), _ => some (if s then .lt else .gt)
  | _, .double (.infinite t) => some (if t then .gt else .lt)
  | .int m, .int n => some (compare m n)
  | .int m, .double (.finite y) => some (compareScaled m 0 y.signed y.exponent)
  | .double (.finite x), .int n => some (compareScaled x.signed x.exponent n 0)
  | .double (.finite x), .double (.finite y) =>
    some (compareScaled x.signed x.exponent y.signed y.exponent)

/-- Whether two numbers have the same value. -/
def same (a b : Numeric) : Bool := order? a b == some .eq

end Numeric

end Scim.Number
