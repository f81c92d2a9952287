import Scim.Action
import Scim.Query.Spec

/-!
# Adapters

The engine stores no resources itself. Each resource type is backed by an adapter, which creates,
reads, replaces, deletes and lists the resources of one type in a state of its own. Ids, versions
and resources are JSON values here, because what a client or a server sends as one may be anything;
an adapter fails on those it cannot use.
-/

namespace Scim

/-- How many resources a query matches on all pages: a number, or the truth value that a server may
state in place of one. -/
inductive Total where
  | count (n : Int)
  | flag (b : Bool)
  deriving DecidableEq

namespace Total

/-- The number that a total stands for. -/
def value : Total → Int
  | .count n => n
  | .flag b => if b then 1 else 0

/-- A total as a JSON value. -/
def toJson : Total → Json
  | .count n => .int n
  | .flag b => .bool b

end Total

/-- An adapter's answer to a list query. The flags say which stages of the query the adapter applied
already; the engine applies the others. An adapter that applied only a part of a filter leaves
`filtered` false. -/
structure Listing where
  resources : List Json
  total : Option Total := none
  filtered : Bool := false
  sorted : Bool := false
  paginated : Bool := false
  projected : Bool := false

/-- Storage for the resources of one type, as actions on a state of type `σ`. -/
structure Adapter (σ : Type) where
  /-- Stores a new resource; the result is the resource as stored. -/
  create (resource : Json) : Action σ Json
  /-- The resource with an id. -/
  read (id : Json) : Action σ Json
  /-- Overwrites the resource with an id; if a version is given that is not null, only if the stored
  resource still has it. The result is the resource as stored. -/
  replace (id resource version : Json) : Action σ Json
  /-- Removes the resource with an id, under the same condition. -/
  delete (id version : Json) : Action σ Unit
  /-- Candidates for a query. -/
  list (spec : QuerySpec) : Action σ Listing

/-- An adapter on a part of a state. -/
def Adapter.zoom {σ τ : Type} (slot : Slot τ σ) (adapter : Adapter σ) : Adapter τ where
  create resource := (adapter.create resource).zoom slot
  read id := (adapter.read id).zoom slot
  replace id resource version := (adapter.replace id resource version).zoom slot
  delete id version := (adapter.delete id version).zoom slot
  list spec := (adapter.list spec).zoom slot

end Scim
