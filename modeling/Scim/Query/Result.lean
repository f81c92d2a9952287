import Scim.Query.Projection
import Scim.Query.Sorting
import Scim.Store.Adapter

/-!
# Results of list queries

A query is answered in stages: filter, sort, count, cut out the page, project. An adapter may apply
stages itself and say so; `complete` applies the others, in this order.
-/

namespace Scim

/-- A page of the resources that a query matches. -/
structure QueryResult where
  resources : List Json
  total : Total
  startIndex : Int := 1
  itemsPerPage : Nat := 0

namespace QueryResult

/-- The schema of a list response. -/
def urn : String := "urn:ietf:params:scim:api:messages:2.0:ListResponse"

/-- The message body of a result. -/
def toMembers (result : QueryResult) : Members :=
  [("schemas", .arr [.str urn]), ("totalResults", result.total.toJson),
    ("startIndex", .int result.startIndex), ("itemsPerPage", .int result.itemsPerPage),
    ("Resources", .arr result.resources)]

end QueryResult

/-- A page of a list: at most `count` items from an index on. The first item has index 1, and lower
indexes count as 1. -/
def paginate {α : Type} (items : List α) (startIndex : Int) (count : Option Int) : List α :=
  let rest := items.drop (max 1 startIndex - 1).toNat
  match count with
  | none => rest
  | some count => rest.take count.toNat

/-- The resources that satisfy a filter. -/
def filterResources (resources : List Json) (filter : Filter) (schema : Option ResourceSchema) :
    Except Failure (List Json) :=
  resources.filterM (filter.holds · schema)

namespace Listing

/-- Whether the filter of a query is still to be applied. -/
def needsFilter (listing : Listing) (spec : QuerySpec) : Bool :=
  spec.filter.isSome && !listing.filtered

/-- Whether the sort of a query is still to be applied. -/
def needsSort (listing : Listing) (spec : QuerySpec) : Bool :=
  spec.sortBy.any (· ≠ "") && !listing.sorted

/-- What an adapter is told that cut out a page before all filtering and sorting was done. -/
def prematurePage : String :=
  "Adapter paginated a query it did not fully filter and sort; results may be incomplete"

/-- The warnings about a listing. -/
def warnings (listing : Listing) (spec : QuerySpec) : List String :=
  if listing.paginated && (listing.needsFilter spec || listing.needsSort spec) then
    [prematurePage]
  else []

/-- The resources of a listing after the filter of a query. -/
def filterStage (listing : Listing) (spec : QuerySpec) (schema : Option ResourceSchema) :
    Except Failure (List Json) :=
  match spec.filter with
  | some filter =>
    if listing.filtered then .ok listing.resources
    else filterResources listing.resources filter schema
  | none => .ok listing.resources

/-- Resources in the order of a query, unless a listing has it already. -/
def sortStage (listing : Listing) (spec : QuerySpec) (schema : Option ResourceSchema)
    (resources : List Json) : Except Failure (List Json) :=
  match spec.sortBy with
  | some path =>
    if listing.needsSort spec then sortResources resources path spec.sortOrder schema
    else .ok resources
  | none => .ok resources

/-- The page of a query and the number of matches. -/
def pageStage (listing : Listing) (spec : QuerySpec) (schema : Option ResourceSchema) :
    Except Failure (List Json × Total) := do
  if listing.paginated then
    return (listing.resources, listing.total.getD (.count listing.resources.length))
  else
    let matching ← listing.sortStage spec schema (← listing.filterStage spec schema)
    return (paginate matching spec.startIndex spec.count, .count matching.length)

/-- The result of a query: the stages that a listing lacks, applied to it. -/
def complete (listing : Listing) (spec : QuerySpec) (schema : Option ResourceSchema) :
    Except Failure QueryResult := do
  let (page, total) ← listing.pageStage spec schema
  let resources ← if listing.projected then pure page
    else page.mapM fun resource => resource.project spec.attributes spec.excluded schema
  return ⟨resources, total, spec.startIndex, resources.length⟩

end Listing

/-- Answers a query from an adapter. -/
def query {σ : Type} (adapter : Adapter σ) (spec : QuerySpec) (schema : Option ResourceSchema) :
    Action σ QueryResult := do
  let listing ← adapter.list spec
  Action.ofExcept (listing.complete spec schema)

end Scim
