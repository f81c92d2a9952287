import Scim.Json.Equality
import Scim.Text.Case
import Scim.Timestamp

/-!
# Comparing attribute values

Numbers are ordered by value, two timestamps by their instants, and other texts by code points,
after case folding where letter case does not matter. All other pairs are unordered.
-/

namespace Scim

open Number (Numeric)

namespace Json

/-- A value that is a number; truth values are none. -/
def number? : Json → Option Numeric
  | .int n => some (.int n)
  | .double d => some (.double d)
  | _ => none

/-- A text in the form that is compared. -/
def comparable (caseExact : Bool) (s : String) : String :=
  if caseExact then s else Text.fold s

/-- The order of two texts. -/
def compareTexts (caseExact : Bool) (s t : String) : Ordering :=
  match Timestamp.parse? s, Timestamp.parse? t with
  | some x, some y => compare x.instant y.instant
  | _, _ => compare (comparable caseExact s) (comparable caseExact t)

/-- The order of two values, if they have one. A NaN counts as level with every number. -/
def order? (caseExact : Bool) (a b : Json) : Option Ordering :=
  match a.number?, b.number? with
  | some x, some y => some ((x.order? y).getD .eq)
  | _, _ =>
    match a, b with
    | .str s, .str t => some (compareTexts caseExact s t)
    | _, _ => none

/-- Whether two values are equal as attribute values. Truth values equal truth values only, and
lists equal nothing. -/
def matchesValue (caseExact : Bool) (a b : Json) : Bool :=
  match a, b with
  | .bool x, .bool y => x == y
  | .str s, .str t => compareTexts caseExact s t == .eq
  | .obj _, .obj _ => a.equal b
  | _, _ =>
    match a.number?, b.number? with
    | some x, some y => x.same y
    | _, _ => false

end Json

end Scim
