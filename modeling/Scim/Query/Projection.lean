import Scim.Filter.Evaluation
import Scim.Filter.Parser

/-!
# Projecting resources

A client may ask for some attributes of a resource, or for all but some. The id, the declared URNs
and what the schema always returns are kept in any case, and what it never returns is dropped in any
case.
-/

namespace Scim

namespace Projection

/-- The object that holds the attribute of a path, with the key of the extension if it is one; none
if it is not there. -/
def source? {φ : Type} (resource : Members) (path : PathOf φ) :
    Except Failure (Option (Members × Option String)) := do
  match path.uri with
  | none => return some (resource, none)
  | some uri =>
    if ← Members.isCoreUri resource uri then return some (resource, none)
    match Members.key? resource uri with
    | none => return none
    | some key =>
      match Members.get? resource key with
      | some (.obj extension) => return some (extension, some key)
      | _ => return none

/-- Changes the object under a key, or an empty one if there is none. -/
def updateObject (members : Members) (key : String) (f : Members → Members) : Members :=
  match Members.get? members key with
  | some (.obj object) => Members.set members key (.obj (f object))
  | some other => Members.set members key other
  | none => Members.set members key (.obj (f []))

/-- Copies a sub-attribute from one object to another. -/
def copySub (sub : String) (element projected : Members) : Members :=
  match Members.key? element sub with
  | some key => Members.set projected key ((Members.get? element key).getD .null)
  | none => projected

/-- Copies a sub-attribute from an element of a list to the projection of the element. -/
def copySubIn (sub : String) (element projected : Json) : Json :=
  match element, projected with
  | .obj element, .obj projected => .obj (copySub sub element projected)
  | _, projected => projected

/-- Copies a sub-attribute of each element of a list to the projections of the elements, which are
empty objects if there are none yet. -/
def copySubs (sub : String) (elements : List Json) (existing : Option Json) : List Json :=
  let projections := match existing with
    | some (.arr items) =>
      if items.length = elements.length then items else elements.map fun _ => .obj []
    | _ => elements.map fun _ => .obj []
  List.zipWith (copySubIn sub) elements projections

/-- Copies an attribute, or a sub-attribute of it, from one object to another. -/
def copyAttr (source : Members) (attr : String) (sub : Option String) (target : Members) :
    Members :=
  match Members.key? source attr with
  | none => target
  | some key =>
    let value := (Members.get? source key).getD .null
    match sub with
    | none => Members.set target key value
    | some sub =>
      match value with
      | .arr elements =>
        Members.set target key (.arr (copySubs sub elements (Members.get? target key)))
      | .obj element =>
        if (Members.key? element sub).isNone then target
        else updateObject target key (copySub sub element)
      | _ => target

/-- Copies what a path names from a resource to its projection. -/
def copyPath (resource target : Members) (path : AttributePath) : Except Failure Members := do
  match ← source? resource path with
  | none => return target
  | some (source, extension) =>
    match path.attr, extension with
    | none, some key => return Members.set target key (.obj source)
    | none, none => return target
    | some attr, none => return copyAttr source attr path.sub target
    | some attr, some key =>
      if (Members.key? source attr).isNone then return target
      else return updateObject target key (copyAttr source attr path.sub)

/-- Removes an attribute, or a sub-attribute from its value or from each of its elements. -/
def dropAttr (attr : String) (sub : Option String) (members : Members) : Members :=
  let dropSub (sub : String) : Json → Json
    | .obj element => .obj (Members.delAttr element sub)
    | value => value
  match sub with
  | none => Members.delAttr members attr
  | some sub =>
    match Members.key? members attr with
    | none => members
    | some key =>
      Members.modify members key fun value =>
        match value with
        | .arr items => .arr (items.map (dropSub sub))
        | value => dropSub sub value

/-- Removes what a path names from a resource. -/
def dropPath {φ : Type} (resource : Members) (path : PathOf φ) : Except Failure Members := do
  match ← source? resource path with
  | none => return resource
  | some (_, extension) =>
    match path.attr, extension with
    | none, some key => return Members.erase resource key
    | none, none => return resource
    | some attr, none => return dropAttr attr path.sub resource
    | some attr, some key => return updateObject resource key (dropAttr attr path.sub)

/-- Whether an attribute may not be left out. -/
def isKept (schema : Option ResourceSchema) (path : AttributePath) : Bool :=
  match path.attr with
  | none => false
  | some attr =>
    (path.sub.isNone && path.uri.isNone && Text.lower attr ∈ ["id", "schemas"]) ||
      schema.any fun schema => (schema.returned attr path.sub path.uri).text? == some "always"

/-- The names of the attributes that every projection has. -/
def requiredNames (schema : Option ResourceSchema) : List String :=
  ["schemas", "id"] ++
    match schema with
    | none => []
    | some schema =>
      ((schema.attributesReturned "always").filter (·.1.isNone)).map (·.2)

/-- The required attributes of a resource. -/
def required (resource : Members) (schema : Option ResourceSchema) : Members :=
  (requiredNames schema).foldl (fun result name => copyAttr resource name none result) []

/-- The required attributes and those that some paths name. -/
def only (resource : Members) (schema : Option ResourceSchema) (attributes : List String) :
    Except Failure Members :=
  attributes.foldlM (fun result text => do copyPath resource result (← PathOf.parse text))
    (required resource schema)

/-- A resource without the attributes that some paths name. -/
def allBut (resource : Members) (schema : Option ResourceSchema) (excluded : List String) :
    Except Failure Members :=
  excluded.foldlM (fun result text => do
    let path ← PathOf.parse text
    if isKept schema path then return result else dropPath result path) resource

/-- A resource without the attributes that are never returned. -/
def dropHidden (schema : Option ResourceSchema) (resource : Members) : Except Failure Members :=
  match schema with
  | none => .ok resource
  | some schema =>
    (schema.attributesReturned "never").foldlM (fun result (uri, name) =>
      dropPath result (⟨uri, some name, none, none⟩ : AttributePath)) resource

/-- Looks up what a path names in a value that is no object. The value holds nothing, but the
look-up may fail; null is not examined for an attribute of its own. -/
def probe {φ : Type} (value : Json) (path : PathOf φ) : Except Failure Unit := do
  let extension ← path.uri.filterM fun uri => return !(← value.isCoreUri uri)
  match extension, path.attr with
  | some uri, _ => let _ ← value.attrOf uri
  | none, some attr => if !value.isNull then let _ ← value.attrOf attr
  | none, none => return

/-- The projection of a value that is no object: it keeps its form if nothing is asked for, and has
no attribute that is. -/
def ofOther (value : Json) (attributes excluded : List String) (schema : Option ResourceSchema) :
    Except Failure Json := do
  let some schema := schema | failWith .noSuchMember
  if attributes.isEmpty then
    for text in excluded do
      let path ← PathOf.parse text
      if !isKept schema path then probe value path
    for (uri, name) in schema.attributesReturned "never" do
      probe value (⟨uri, some name, none, none⟩ : AttributePath)
    return value
  else
    for name in requiredNames schema do
      let _ ← value.attrOf name
    for text in attributes do
      probe value (← PathOf.parse text)
    return .obj []

end Projection

/-- The projection of a resource: the attributes asked for, or all but the excluded ones if none are
asked for. Without a schema that of the resource's declared URN is used. -/
def project (resource : Members) (attributes excluded : List String)
    (schema : Option ResourceSchema) : Except Failure Members := do
  let schema ← match schema with
    | some schema => pure (some schema)
    | none => Members.schema? resource
  let projected ← if attributes.isEmpty then Projection.allBut resource schema excluded
    else Projection.only resource schema attributes
  Projection.dropHidden schema projected

/-- The projection of something that should be a resource. -/
def Json.project (value : Json) (attributes excluded : List String)
    (schema : Option ResourceSchema) : Except Failure Json :=
  match value with
  | .obj resource => (Scim.project resource attributes excluded schema).map .obj
  | other => Projection.ofOther other attributes excluded schema

end Scim
