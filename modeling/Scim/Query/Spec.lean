import Scim.Filter.Parser
import Scim.Filter.Printer

/-!
# List queries

A query states what to filter and sort by, which page to return and which attributes to show. It is
read from the parameters of a request and written back as such; parameters that make no difference
are not written.
-/

namespace Scim

/-- The directions of a sort. -/
inductive SortOrder where
  | ascending | descending
  deriving DecidableEq

/-- The word for a direction. -/
def SortOrder.word : SortOrder → String
  | .ascending => "ascending"
  | .descending => "descending"

/-- A list query. Pages start at index 1; without a count the page goes to the end. -/
structure QuerySpec where
  filter : Option Filter := none
  sortBy : Option String := none
  sortOrder : SortOrder := .ascending
  startIndex : Int := 1
  count : Option Int := none
  attributes : List String := []
  excluded : List String := []
  deriving Inhabited

namespace QuerySpec

/-- The text of a parameter, if it has one: the first of several values, without blanks around it.
-/
def param (params : Members) (name : String) : Option String :=
  let value := match Members.attr params name with
    | .arr items => items.head?.getD .null
    | value => value
  if value.isNull then none
  else
    let text := Text.trim value.plain
    if text = "" then none else some text

/-- Reads a direction. -/
def readOrder (word : Option String) : Except Failure SortOrder :=
  match word with
  | none => .ok .ascending
  | some word =>
    match [SortOrder.ascending, .descending].find? (·.word = Text.lower word) with
    | some order => .ok order
    | none => refuse (.invalidValue "sortOrder must be 'ascending' or 'descending'")

/-- Reads a whole number. -/
def readInteger (name : String) (text : Option String) : Except Failure (Option Int) :=
  match text with
  | none => .ok none
  | some text =>
    match Number.readInt? text with
    | some n => .ok (some n)
    | none => refuse (.invalidValue (name ++ " must be an integer, got " ++ Text.quoted text))

/-- The names in a list separated by commas, without blanks around them and without empty ones. -/
def splitList (text : Option String) : List String :=
  ((Text.splitAt ',' (text.getD "").toList).map fun item =>
    Text.trim (String.ofList item)).filter (· ≠ "")

/-- Reads a query from the parameters of a request. Their names are matched without regard to letter
case; paging values below the least sensible one are raised to it. -/
def ofParams (params : Members) : Except Failure QuerySpec := do
  let filter ← (param params "filter").mapM Filter.parse
  let sortOrder ← readOrder (param params "sortOrder")
  let startIndex ← readInteger "startIndex" (param params "startIndex")
  let count ← readInteger "count" (param params "count")
  return {
    filter
    sortBy := param params "sortBy"
    sortOrder
    startIndex := max 1 (startIndex.getD 1)
    count := count.map (max 0)
    attributes := splitList (param params "attributes")
    excluded := splitList (param params "excludedAttributes") }

/-- A parameter with a list of names, left out if there is none. -/
def listParam (name : String) (items : List String) : Members :=
  if items.isEmpty then [] else [(name, .str (",".intercalate items))]

/-- Writes a query as parameters of a request. -/
def toParams (spec : QuerySpec) : Members :=
  (match spec.filter with
    | some filter => [("filter", .str filter.text)]
    | none => []) ++
  (match spec.sortBy with
    | none | some "" => []
    | some path => [("sortBy", .str path), ("sortOrder", .str spec.sortOrder.word)]) ++
  (if spec.startIndex = 1 then [] else [("startIndex", .str (toString spec.startIndex))]) ++
  (match spec.count with
    | some count => [("count", .str (toString count))]
    | none => []) ++
  if spec.attributes.isEmpty then listParam "excludedAttributes" spec.excluded
  else listParam "attributes" spec.attributes

/-- Whether two queries are the same, with filters compared as trees. -/
def same (a b : QuerySpec) : Bool :=
  (match a.filter, b.filter with
    | none, none => true
    | some f, some g => f.same g
    | _, _ => false) &&
  a.sortBy == b.sortBy && a.sortOrder == b.sortOrder && a.startIndex == b.startIndex &&
    a.count == b.count && a.attributes == b.attributes && a.excluded == b.excluded

end QuerySpec

end Scim
