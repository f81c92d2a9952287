import Scim.Json.Equality
import Scim.Resource

/-!
# Sets of ids

A set of ids, in the order in which they were first put in, without repetition. Ids can be put in
ascending order if they are all texts or all numbers.
-/

namespace Scim

/-- A set of ids. -/
abbrev IdSet := List Json

namespace IdSet

/-- Whether a set holds an id. -/
def has (ids : IdSet) (id : Json) : Bool := Json.containedIn id ids

/-- Puts an id into a set. -/
def insert (ids : IdSet) (id : Json) : Except Failure IdSet :=
  if !id.isKey then failWith .wrongType
  else if ids.has id then .ok ids
  else .ok (ids ++ [id])

/-- Puts the ids of some resources into a set; resources without an id are passed over. -/
def insertAll (ids : IdSet) : List Json → Except Failure IdSet
  | [] => .ok ids
  | resource :: rest => do
    let id ← resource.attrOf "id"
    if id.isVoid then insertAll ids rest else insertAll (← ids.insert id) rest

/-- The ids that another set lacks. -/
def without (ids others : IdSet) : IdSet := ids.filter (!others.has ·)

/-- Whether an id comes before another one in ascending order, or at its place. -/
def comesFirst (a b : Json) : Bool :=
  match a, b with
  | .str s, .str t => !(t < s)
  | a, b =>
    match a.num?, b.num? with
    | some m, some n => Number.Numeric.order? m n != some .gt
    | _, _ => true

/-- The ids of a set in ascending order. Texts and numbers cannot be compared. -/
def sorted (ids : IdSet) : Except Failure (List Json) :=
  if ids.all Json.isStr || ids.all (!·.isStr) then .ok (ids.mergeSort comesFirst)
  else failWith .wrongType

end IdSet

end Scim
