import Scim.Filter.Evaluation
import Scim.Filter.Parser
import Scim.Filter.Printer

/-!
# Locations in a resource

A location is a slot of a resource: a member of the resource or of an extension object, an element
of a list there, or a member of such an element. `resolve` finds the slots that hold a value for a
path, and a slot can be read, overwritten or removed.
-/

namespace Scim

/-- The object that holds an attribute: the resource itself, or the extension object under a key. -/
inductive Home where
  | core
  | extension (key : String)
  deriving DecidableEq

namespace Home

/-- The members of the object. -/
def members (home : Home) (resource : Members) : Members :=
  match home with
  | .core => resource
  | .extension key =>
    match Members.get? resource key with
    | some (.obj members) => members
    | _ => []

/-- Replaces the members of the object by a function of them. -/
def update (home : Home) (resource : Members) (f : Members → Members) : Members :=
  match home with
  | .core => f resource
  | .extension key =>
    Members.modify resource key fun value =>
      match value with
      | .obj members => .obj (f members)
      | value => value

end Home

/-- A slot of a resource: a member `key` of its home, the element `index` of the list there, or the
member `sub` of that element or of the object under the key. -/
structure Location where
  home : Home
  key : String
  index : Option Nat
  sub : Option String
  deriving DecidableEq

namespace Location

/-- The element or value that holds the sub-attribute of a location. -/
def holder (location : Location) (resource : Members) : Json :=
  let value := Members.attr (location.home.members resource) location.key
  match location.index with
  | none => value
  | some index =>
    match value with
    | .arr items => items[index]?.getD .null
    | _ => .null

/-- The value at a location, null if there is none. -/
def get (location : Location) (resource : Members) : Json :=
  match location.sub with
  | none => location.holder resource
  | some sub =>
    match location.holder resource with
    | .obj element => Members.attr element sub
    | _ => .null

/-- Replaces the value at a location by a function of it. -/
def updateElement (location : Location) (resource : Members) (f : Json → Json) : Members :=
  location.home.update resource fun members =>
    let value := Members.attr members location.key
    match location.index with
    | none => Members.setAttr members location.key (f value)
    | some index =>
      match value with
      | .arr items => Members.setAttr members location.key (.arr (items.modify index f))
      | _ => members

/-- Overwrites the value at a location. -/
def set (location : Location) (resource : Members) (value : Json) : Members :=
  match location.sub with
  | none => location.updateElement resource fun _ => value
  | some sub =>
    location.updateElement resource fun holder =>
      match holder with
      | .obj element => .obj (Members.setAttr element sub value)
      | holder => holder

/-- Removes the value at a location; the elements behind a removed element move up. -/
def delete (location : Location) (resource : Members) : Members :=
  match location.sub, location.index with
  | some sub, _ =>
    location.updateElement resource fun holder =>
      match holder with
      | .obj element => .obj (Members.delAttr element sub)
      | holder => holder
  | none, some index =>
    location.home.update resource fun members =>
      match Members.attr members location.key with
      | .arr items => Members.setAttr members location.key (.arr (items.eraseIdx index))
      | _ => members
  | none, none =>
    location.home.update resource fun members => Members.delAttr members location.key

/-- The last step to a location: the name of a member or the index of an element. -/
def lastStep (location : Location) : Json :=
  match location.sub, location.index with
  | some sub, _ => .str sub
  | none, some index => .int index
  | none, none => .str location.key

end Location

/-- Refuses a URN that neither the schema, the registry nor the resource knows. -/
def checkUri (resource : Members) (uri : String) (schema : Option ResourceSchema) :
    Except Failure Unit := do
  if schema.any (·.knowsUri uri) || (Schema.find? uri).isSome then return
  if ← Members.declares resource uri then return
  refuse (.invalidPath "Unknown schema URI" uri)

/-- The object that holds the attribute of a path; none if it is an extension object that is not
there yet. -/
def homeFor {φ : Type} (resource : Members) (path : PathOf φ) (schema : Option ResourceSchema) :
    Except Failure (Option Home) := do
  match path.uri with
  | none => return some .core
  | some uri =>
    checkUri resource uri schema
    if schema.any (sameName ·.urn uri) then return some .core
    match Members.key? resource uri, Members.attr resource uri with
    | some key, .obj _ => return some (.extension key)
    | _, _ =>
      if schema.isNone then
        if ← Members.isCoreUri resource uri then return some .core else return none
      else return none

/-- The indexes of the objects of a list that satisfy a filter, counted from a first index. -/
def matchingIndexes (scope : Scope) (filter : Filter) :
    Nat → List Json → Except Failure (List (Nat × Members))
  | _, [] => return []
  | index, .obj element :: rest => do
    let found ← Filter.eval scope (.obj element) filter
    let others ← matchingIndexes scope filter (index + 1) rest
    return if found then (index, element) :: others else others
  | index, _ :: rest => matchingIndexes scope filter (index + 1) rest

/-- Whether an object has a sub-attribute that is not null. -/
def hasSub (sub : String) : Json → Bool
  | .obj element => !(Members.attr element sub).isNull
  | _ => false

/-- The indexes of the elements of a list that have a sub-attribute, counted from a first index. -/
def indexesWithSub (sub : String) : Nat → List Json → List Nat
  | _, [] => []
  | index, item :: rest =>
    if hasSub sub item then index :: indexesWithSub sub (index + 1) rest
    else indexesWithSub sub (index + 1) rest

/-- The slots that hold a value for a path in its home, under the key of its attribute. -/
def locationsUnder (home : Home) (key : String) (value : Json) (path : AttributePath)
    (schema : Option ResourceSchema) : Except Failure (List Location) := do
  match path.restriction, path.sub with
  | some filter, sub =>
    let items := match value with
      | .arr items => items
      | _ => []
    let found ← matchingIndexes (.within schema path) filter 0 items
    match sub with
    | none => return found.map fun (index, _) => ⟨home, key, some index, none⟩
    | some sub =>
      return (found.filter fun (_, element) => hasSub sub (.obj element)).map fun (index, _) =>
        ⟨home, key, some index, some sub⟩
  | none, some sub =>
    match value with
    | .arr items => return (indexesWithSub sub 0 items).map fun i => ⟨home, key, some i, some sub⟩
    | value => return if hasSub sub value then [⟨home, key, none, some sub⟩] else []
  | none, none => return [⟨home, key, none, none⟩]

/-- The slots that currently hold a value for a path, in order. -/
def resolve (resource : Members) (path : AttributePath) (schema : Option ResourceSchema) :
    Except Failure (List Location) := do
  match ← homeFor resource path schema with
  | none => return []
  | some home =>
    match path.attr with
    | none =>
      match Members.key? resource (path.uri.getD "") with
      | none => return []
      | some key => return [⟨.core, key, none, none⟩]
    | some attr =>
      let members := home.members resource
      match Members.key? members attr with
      | none => return []
      | some key =>
        match (Members.get? members key).getD .null with
        | .null => return []
        | value => locationsUnder home key value path schema

/-- Whether something that is no object stands for the resource that holds the attributes under a
URN, or those without one. Null stands for nothing, and an extension is never there. -/
def isHome (value : Json) (uri : Option String) (schema : Option ResourceSchema) :
    Except Failure Bool := do
  match uri with
  | none => return !value.isNull
  | some uri =>
    if !schema.any (·.knowsUri uri) && (Schema.find? uri).isNone then failWith .noSuchMember
    if schema.any (sameName ·.urn uri) then return !value.isNull
    let _ ← value.attrOf uri
    if schema.isNone then value.isCoreUri uri else return false

/-- The slots that currently hold a value for a path in something that should be a resource. What is
no object has no slots, but looking for them may fail. -/
def Json.resolve (value : Json) (path : AttributePath) (schema : Option ResourceSchema) :
    Except Failure (List Location) := do
  match value with
  | .obj resource => Scim.resolve resource path schema
  | other =>
    if ← isHome other path.uri schema then
      let _ ← other.attrOf (path.attr.getD (path.uri.getD ""))
    return []

/-- The slots that currently hold a value for a path, of which there must be one. -/
def resolveRequired (resource : Json) (path : AttributePath) (schema : Option ResourceSchema) :
    Except Failure (List Location) := do
  match ← resource.resolve path schema with
  | [] => refuse (.noSuchAttribute path.text)
  | locations => return locations

/-- The values at a path, those of lists one by one, without nulls. -/
def resolveValues (resource : Json) (path : AttributePath) (schema : Option ResourceSchema) :
    Except Failure (List Json) := do
  let locations ← resource.resolve path schema
  let members := resource.members?.getD []
  return locations.flatMap fun location => (location.get members).valuesOf

end Scim
