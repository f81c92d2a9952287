import Scim.Service

/-!
# Walking through pages

The resources of a service are visited page by page. The walk asks for the page that starts where
the last one ended, and stops at an empty page or when the stated total is reached. Against a server
that states ever larger totals a walk would not end, so it has a budget of list requests.
-/

namespace Scim

namespace Walk

variable {σ : Type}

/-- The page of a query that starts at an index. -/
def page (service : Service σ) (spec : QuerySpec) (size start : Int) : Action σ QueryResult :=
  service.list { spec with startIndex := start, count := some size }

/-- Visits the pages from an index on with at most a number of list requests. -/
def fromIndex (service : Service σ) (spec : QuerySpec) (size : Int)
    (visit : List Json → Action σ Unit) : Nat → Int → Action σ Unit
  | 0, _ => Action.failWith .exhausted
  | budget + 1, start => do
    let result ← page service spec size start
    if result.resources.isEmpty then return
    visit result.resources
    let next := start + result.resources.length
    if result.total.value < next then return
    fromIndex service spec size visit budget next

/-- Visits all pages of a query. A page holds at least one resource. -/
def pages (service : Service σ) (spec : QuerySpec) (size : Int)
    (visit : List Json → Action σ Unit) (budget : Nat) : Action σ Unit := do
  if size < 1 then Action.failWith .badArgument
  fromIndex service spec size visit budget 1

end Walk

end Scim
