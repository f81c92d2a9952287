import Scim.Patch.Apply

/-!
# Changes of something that is no object

A server may answer a read with a value that is no object and so has no attributes. Such a value
never changes: each operation on it either finds nothing to do or fails. The functions here tell
which, and `Json.applyPatch` applies a change request to a value of any form.
-/

namespace Scim

namespace Patch

/-- Sets an attribute of what is no object, which fails: in the search for the attribute or else in
the assignment. -/
def probeSet (value : Json) (attr : String) : Except Failure Unit := do
  let _ ← value.attrOf attr
  failWith .wrongType

/-- Sets each of some attributes. -/
def probeMerge (value : Json) : Members → Except Failure Unit
  | [] => .ok ()
  | (attr, _) :: _ => probeSet value attr

/-- Finds the object that holds the attribute of a path, or creates it, which fails. -/
def probeHome (schema : Option ResourceSchema) (uri : Option String) (value : Json) :
    Except Failure Unit := do
  if !(← isHome value uri schema) then probeSet value (uri.getD "")

/-- Merges members into an extension, or into the value itself if the URN is that of the core
schema. -/
def probeExtension (schema : Option ResourceSchema) (uri : String) (members : Members)
    (value : Json) : Except Failure Unit := do
  checkExtension schema uri
  probeHome schema (some uri) value
  probeMerge value members

/-- Applies one member of a value without a path. -/
def probeMember (schema : Option ResourceSchema) (op : PatchOp) (key : String)
    (item value : Json) : Except Failure Unit := do
  if Text.lower key = "schemas" then
    let urns ← listedUrns item
    if !urns.isEmpty then failWith .noSuchMember
  else if key.toList.contains ':' && item.isObj then
    probeExtension schema key ((item.members?).getD []) value
  else if schema.any (·.isFixed key none none) then
    if !Json.equal (← value.attrOf key) item then notModifiable (Text.quoted key)
  else
    let current ← if op = .add && item.isArr then value.attrOf key else pure .null
    if !(op = .add && item.isArr && isMultiValued schema key none current item) then
      let _ ← coerce schema key none none item
    probeSet value key

/-- Applies the members of a value without a path, in order. -/
def probeMembers (schema : Option ResourceSchema) (op : PatchOp) (value : Json) :
    Members → Except Failure Unit
  | [] => .ok ()
  | (key, item) :: rest => do
    probeMember schema op key item value
    probeMembers schema op value rest

/-- Sets an attribute, a sub-attribute of it, or the elements that a restriction selects, of which
there are none. -/
def probeAttr (schema : Option ResourceSchema) (op : PatchOp) (path : AttributePath)
    (attr : String) (item value : Json) : Except Failure Unit := do
  let current ← value.attrOf attr
  match path.restriction, path.sub with
  | some _, some _ => noMatch path
  | some _, none => if op = .replace then noMatch path else probeSet value attr
  | none, some sub =>
    let _ ← coerce schema attr (some sub) path.uri item
    probeSet value attr
  | none, none =>
    if !isMultiValued schema attr path.uri current item then
      let _ ← coerce schema attr none path.uri item
    probeSet value attr

/-- Adds or replaces a value at a path. -/
def probePut (schema : Option ResourceSchema) (op : PatchOp) (path : AttributePath)
    (item value : Json) : Except Failure Unit := do
  probeHome schema path.uri value
  match path.attr with
  | none =>
    let uri := path.uri.getD ""
    probeExtension schema uri (← extensionMembers uri item) value
  | some attr => probeAttr schema op path attr item value

/-- Removes the value at a path. There is none, but a whole core schema cannot be withdrawn from
what is no object. -/
def probeRemove (schema : Option ResourceSchema) (path : AttributePath) (value : Json) :
    Except Failure Unit := do
  if ← isHome value path.uri schema then
    match path.attr with
    | some attr => let _ ← value.attrOf attr
    | none =>
      let _ ← value.attrOf (path.uri.getD "")
      failWith .noSuchMember

end Patch

namespace PatchOperation

/-- Applies an operation to what is no object. -/
def probe (operation : PatchOperation) (schema : Option ResourceSchema) (value : Json) :
    Except Failure Unit := do
  match operation.path with
  | none =>
    Patch.probeMembers schema operation.op value
      (← Patch.rootMembers operation.op operation.value)
  | some text =>
    let path ← target schema text
    match operation.op with
    | .remove => Patch.probeRemove schema path value
    | op => Patch.probePut schema op path operation.value value

end PatchOperation

/-- Applies entries in their places from an index on to what is no object. -/
def probeEntries (schema : Option ResourceSchema) (value : Json) (index : Int) :
    List PatchEntry → Except Failure Unit
  | [] => .ok ()
  | entry :: rest => do
    (← entry.read index).probe schema value
    probeEntries schema value (index + 1) rest

/-- Something that should be a resource after all entries of a change request. -/
def Json.applyPatch (value : Json) (entries : List PatchEntry) (schema : Option ResourceSchema) :
    Except Failure Json := do
  match value with
  | .obj resource => return .obj (← Scim.applyPatch resource entries schema)
  | other =>
    probeEntries (← effectiveSchema other schema) other 0 entries
    return other

end Scim
