import Scim.Patch.Probe
import Scim.Query.Result

/-!
# Services

A service offers the operations of one resource type, which an HTTP server would expose at one
endpoint: it joins an adapter with queries, changes and projection. Everything it returns is
projected, so that attributes that are never returned stay inside.

A change reads the resource and writes the changed one back under the condition that its version is
still the one that was read. Another writer in between is therefore noticed and not overwritten.
-/

namespace Scim

/-- Settings that the services of an installation share. -/
structure ServiceOptions where
  /-- The public address, with which locations start. -/
  baseUrl : String := ""
  /-- Whether at most one element of each list stays marked as primary on a write. -/
  ensureSinglePrimary : Bool := false
  bulkEnabled : Bool := true
  maxBulkOperations : Int := 1000
  /-- The largest number of resources in a list response. -/
  maxResults : Option Int := none

/-- The operations on the resources of one type. -/
structure Service (σ : Type) where
  adapter : Adapter σ
  schema : Option ResourceSchema
  endpoint : String
  options : ServiceOptions

namespace Service

variable {σ : Type}

/-- A service. Its endpoint is that of its schema unless one is given. -/
def of (adapter : Adapter σ) (schema : Option ResourceSchema) (endpoint : Option String)
    (options : ServiceOptions) : Service σ where
  adapter := adapter
  schema := schema
  endpoint :=
    ((endpoint.filter (· ≠ "")).or
      ((schema.bind (·.core.endpoint)).filter (· ≠ ""))).getD "Resources"
  options := options

/-- A service on a part of a state. -/
def zoom {τ : Type} (slot : Slot τ σ) (service : Service σ) : Service τ :=
  { service with adapter := service.adapter.zoom slot }

/-- The public address of the resource with an id. -/
def location (service : Service σ) (id : Json) : String :=
  Text.trimEnd (· == '/') service.options.baseUrl ++ "/" ++ service.endpoint ++ "/" ++ id.plain

/-- A resource as it is written. -/
def prepare (service : Service σ) (resource : Json) : Except Failure Json :=
  if service.options.ensureSinglePrimary then
    match resource with
    | .obj members => .ok (.obj (Members.singlePrimary members))
    | _ => failWith .noSuchMember
  else .ok resource

/-- A resource as it is returned. -/
def present (service : Service σ) (resource : Json) (attributes excluded : List String := []) :
    Except Failure Json :=
  resource.project attributes excluded service.schema

/-- Reads a resource. -/
def get (service : Service σ) (id : Json) (attributes excluded : List String := []) :
    Action σ Json := do
  let stored ← service.adapter.read id
  Action.ofExcept (service.present stored attributes excluded)

/-- A query with its page cut to the largest number of resources in a response. -/
def capped (service : Service σ) (spec : QuerySpec) : QuerySpec :=
  match service.options.maxResults with
  | none => spec
  | some limit =>
    match spec.count with
    | none => { spec with count := some limit }
    | some count => if limit < count then { spec with count := some limit } else spec

/-- Answers a query. -/
def list (service : Service σ) (spec : QuerySpec := {}) : Action σ QueryResult :=
  query service.adapter (service.capped spec) service.schema

/-- Creates a resource. -/
def create (service : Service σ) (resource : Json) : Action σ Json := do
  let created ← service.adapter.create (← Action.ofExcept (service.prepare resource))
  Action.ofExcept (service.present created)

/-- Writes a resource in the place of another, if that has the expected version. -/
def replace (service : Service σ) (id resource : Json) (version : Json := .null) :
    Action σ Json := do
  let resource ← Action.ofExcept (service.prepare resource)
  let replaced ← service.adapter.replace id resource version
  Action.ofExcept (service.present replaced)

/-- Removes a resource, if it has the expected version. -/
def delete (service : Service σ) (id : Json) (version : Json := .null) : Action σ Unit :=
  service.adapter.delete id version

/-- A change of a resource that was read and is still to be written. -/
structure PendingChange where
  id : Json
  /-- The resource as it was read. -/
  current : Json
  /-- The version that the write expects; null if it is the one that was read. -/
  version : Json
  /-- What to apply; none if the request was no list of operations. -/
  entries : Option (List PatchEntry)

/-- The version of something that should be a resource. -/
def versionOf (resource : Json) : Except Failure Json := do
  match ← resource.attrOf "meta" with
  | .obj info => return Members.attr info "version"
  | _ => return .null

/-- The first step of a change: checks a message body and reads the resource. -/
def beginChange (service : Service σ) (id request : Json) (version : Json := .null) :
    Action σ PendingChange := do
  let entries ← Action.ofExcept (PatchEntry.ofRequest request)
  let current ← service.adapter.read id
  return { id, current, version, entries }

/-- The version that the write of a change expects: the one that was read unless another one was
given. -/
def PendingChange.expected (change : PendingChange) : Except Failure Json :=
  if change.version.isNull then versionOf change.current else .ok change.version

/-- The changed resource of a change. -/
def PendingChange.changed (change : PendingChange) (schema : Option ResourceSchema) :
    Except Failure Json := do
  let schema ← effectiveSchema change.current schema
  match change.entries with
  | some entries => change.current.applyPatch entries schema
  | none => failWith .wrongType

/-- The second step of a change: applies it to the resource that was read and writes the result. -/
def finishChange (service : Service σ) (change : PendingChange) : Action σ Json := do
  let expected ← Action.ofExcept change.expected
  let changed ← Action.ofExcept (change.changed service.schema)
  service.replace change.id changed expected

/-- Changes a resource. -/
def patch (service : Service σ) (id request : Json) (version : Json := .null) : Action σ Json := do
  service.finishChange (← service.beginChange id request version)

end Service

end Scim
