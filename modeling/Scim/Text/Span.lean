/-!
# Runs of code points

Character classes and case mappings are given as lists of runs. This module holds the two shapes of
run, membership in a list of runs, and the action of a case mapping on one character.
-/

namespace Scim.Text

/-- A run of consecutive code points, both ends included. -/
structure Span where
  first : Nat
  last : Nat

/-- Membership in one run. -/
def Span.contains (span : Span) (code : Nat) : Bool :=
  span.first ≤ code && code ≤ span.last

/-- Membership in one of several runs. -/
def inSpans (spans : List Span) (code : Nat) : Bool :=
  spans.any (·.contains code)

/-- Every `step`-th code point from `first` to `last` moves by `offset`. -/
structure Shift where
  first : Nat
  last : Nat
  step : Nat
  offset : Int

/-- Whether the run moves a code point. -/
def Shift.moves (shift : Shift) (code : Nat) : Bool :=
  shift.first ≤ code && code ≤ shift.last && (code - shift.first) % shift.step == 0

/-- The image of a character under a mapping given by expansions and shifts; a character that
neither lists stays as it is. -/
def applyMapping (expansions : List (Nat × List Nat)) (shifts : List Shift) (c : Char) :
    List Char :=
  match expansions.find? (·.1 == c.toNat) with
  | some (_, codes) => codes.map Char.ofNat
  | none =>
    match shifts.find? (·.moves c.toNat) with
    | some shift => [Char.ofNat (c.toNat + shift.offset).toNat]
    | none => [c]

end Scim.Text
