import Scim.Filter.Evaluation
import Scim.Filter.Parser
import Scim.Json.Display
import Scim.Query.Spec
import Scim.Sorting.Schedule

/-!
# Sorting resources

Resources are sorted by a value each, and those without one come last in either direction. The sort
is stable, so resources with equal values stay in their order. The order of values need not be
transitive: a text that is a timestamp is compared with another timestamp as such, and with other
texts as a text. The result then depends on which values are compared, as laid down by
`Sorting.sort`.
-/

namespace Scim

/-- The rank of a value among values that have no order: truth values before numbers, numbers before
texts, texts before all others. -/
def Json.rank : Json → Nat
  | .bool _ => 0
  | .int _ | .double _ => 1
  | .str _ => 2
  | _ => 3

/-- The order of two values in a sort. Values that have no order are ordered by rank, and within a
rank as a message shows them. -/
def Json.sortOrder (caseExact : Bool) (a b : Json) : Ordering :=
  match Json.order? caseExact a b with
  | some order => order
  | none =>
    match compare a.rank b.rank with
    | .eq => if a.equal b then .eq else compare a.plain b.plain
    | order => order

/-- The order of two values in a sort, or of missing ones, which come last. -/
def compareKeys (caseExact : Bool) (order : SortOrder) (a b : Json) : Ordering :=
  match a, b with
  | .null, .null => .eq
  | .null, _ => .gt
  | _, .null => .lt
  | a, b =>
    match order with
    | .ascending => Json.sortOrder caseExact a b
    | .descending => (Json.sortOrder caseExact a b).swap

/-- The value that a resource is sorted by, null if it has none: of several values the primary one
or else the first, and of an object its `value`. -/
def sortValue (resource : Json) (path : AttributePath) : Except Failure Json := do
  let item := Json.primaryOrFirst (← attributeValues resource path.whole)
  let value := match path.sub, item with
    | some sub, .obj element => Members.attr element sub
    | some _, _ => .null
    | none, .obj element => Members.attr element "value"
    | none, item => item
  return if value.hasValue then value else .null

/-- Whether letter case matters in a sort by a path. The object of an extension known to the schema
is no attribute and has no such characteristic. -/
def sortCaseExact (schema : Option ResourceSchema) (path : AttributePath) :
    Except Failure Bool :=
  match schema with
  | none => .ok true
  | some schema =>
    match path.attr with
    | some attr => .ok (schema.isCaseExact attr path.sub path.uri)
    | none => if (schema.schemaFor? path.uri).isSome then failWith .noSuchMember else .ok true

/-- Items sorted by the values that their resources have at a path. -/
def sortOn {α : Type} (resource : α → Json) (items : List α) (sortBy : String)
    (order : SortOrder) (schema : Option ResourceSchema) : Except Failure (List α) := do
  let path ← PathOf.parse sortBy
  let caseExact ← sortCaseExact schema path
  let keyed ← items.mapM fun item => return (← sortValue (resource item) path, item)
  return (Sorting.sort (fun a b => compareKeys caseExact order a.1 b.1 == .lt) keyed).map (·.2)

/-- Resources sorted by the values at a path. -/
def sortResources (resources : List Json) (sortBy : String) (order : SortOrder)
    (schema : Option ResourceSchema) : Except Failure (List Json) :=
  sortOn id resources sortBy order schema

end Scim
