import Scim.Patch.Change
import Scim.Patch.Edit

/-!
# Applying change requests

Operations change a resource one after the other. A change request applies as a whole or not at all:
`applyPatch` has no result if one operation fails. A single operation that fails may have created
the object of an extension, or merged some members, before it did; `PatchOperation.apply` shows that
state.
-/

namespace Scim

namespace Patch

/-- The slots of the elements that the restriction of a path selects. -/
def matching (schema : Option ResourceSchema) (path : AttributePath) (resource : Members) :
    Except Failure (List Location) :=
  resolve resource { path with sub := none } schema

/-- Sets a sub-attribute to a value of its stated type in each of some elements. -/
def setSubAt (schema : Option ResourceSchema) (path : AttributePath) (attr sub : String)
    (value : Json) (locations : List Location) (resource : Members) : Except Failure Members := do
  let value ← coerce schema attr (some sub) path.uri value
  return locations.foldl (fun resource location =>
    location.updateElement resource (setSubIn sub value)) resource

/-- Sets each of some members of an extension to a value of its stated type. -/
def setExtension (schema : Option ResourceSchema) (uri : String) (home : Home) :
    List (String × Json) → Change Unit
  | [] => return
  | (name, value) :: rest => do
    updateHome home fun members => setChecked schema (some uri) members name value
    setExtension schema uri home rest

/-- Refuses a URN that a given schema does not know and that is no standard one. -/
def checkExtension (schema : Option ResourceSchema) (uri : String) : Except Failure Unit := do
  if schema.any (!·.knowsUri uri) && (Schema.find? uri).isNone then
    refuse (.invalidPath "Unknown schema URI" uri)

/-- Merges members into the object of an extension, or into the resource if the URN is that of its
core schema. -/
def mergeExtension (schema : Option ResourceSchema) (uri : String) (values : Members) :
    Change Unit := do
  Action.ofExcept (checkExtension schema uri)
  match ← ensureHome schema ⟨some uri, none, none, none⟩ with
  | .core => modify (Members.merge · values)
  | home => setExtension schema uri home values

/-- The members of a value for a whole extension. -/
def extensionMembers (uri : String) : Json → Except Failure Members
  | .obj values => .ok values
  | _ => refuse (.patchInvalidValue ("Value for " ++ Text.quoted uri ++ " must be an object"))

/-- Merges an object into a whole extension. -/
def mergeWhole (schema : Option ResourceSchema) (uri : String) (value : Json) : Change Unit := do
  mergeExtension schema uri (← Action.ofExcept (extensionMembers uri value))

/-- Declares each of some URNs. -/
def declareAll : List String → Change Unit
  | [] => return
  | uri :: rest => do
    declareSchema uri
    declareAll rest

/-- The URNs that a value for the declared URNs lists; null lists none. -/
def listedUrns (value : Json) : Except Failure (List String) :=
  let urns := match value with
    | .null => some []
    | .arr items => items.mapM (·.text?)
    | _ => none
  match urns with
  | some urns => .ok urns
  | none => refuse (.patchInvalidValue "'schemas' must be an array of URIs")

/-- Applies one member of a value without a path: URNs are declared, an object under a URN is merged
into its extension, and an attribute that may not be changed is passed over if it has the value
already. -/
def mergeMember (schema : Option ResourceSchema) (op : PatchOp) (key : String) (value : Json) :
    Change Unit := do
  if Text.lower key = "schemas" then
    declareAll (← Action.ofExcept (listedUrns value))
  else if key.toList.contains ':' && value.isObj then
    mergeExtension schema key ((value.members?).getD [])
  else if schema.any (·.isFixed key none none) then
    let resource ← get
    if Json.equal (Members.attr resource key) value then return
    Action.ofExcept (notModifiable (Text.quoted key))
  else
    Action.update fun resource =>
      if op = .add && value.isArr &&
          isMultiValued schema key none (Members.attr resource key) value then
        return append resource key value
      else setChecked schema none resource key value

/-- Applies the members of a value without a path, in order. -/
def mergeMembers (schema : Option ResourceSchema) (op : PatchOp) :
    List (String × Json) → Change Unit
  | [] => return
  | (key, value) :: rest => do
    mergeMember schema op key value
    mergeMembers schema op rest

/-- The members of the value of an operation without a path. -/
def rootMembers (op : PatchOp) (value : Json) : Except Failure Members :=
  match op, value with
  | .remove, _ => refuse (.patchInvalidValue "'remove' operation requires 'path'")
  | _, .obj values => .ok values
  | op, _ =>
    refuse (.patchInvalidValue ("'" ++ op.word ++ "' without 'path' requires an object value"))

/-- Applies an operation without a path. -/
def mergeRoot (schema : Option ResourceSchema) (op : PatchOp) (value : Json) : Change Unit := do
  mergeMembers schema op (← Action.ofExcept (rootMembers op value))

/-- The refusal of a restriction that selects nothing. -/
def noMatch {α : Type} (path : AttributePath) : Except Failure α :=
  refuse (.noTarget ("No values match " ++ path.text))

/-- The elements that a restriction selects; none if the list is absent or empty. -/
def selected (schema : Option ResourceSchema) (path : AttributePath) (attr : String) (home : Home)
    (resource : Members) : Except Failure (List Location) := do
  match ← restrictedList (home.members resource) attr path with
  | .arr (_ :: _) => matching schema path resource
  | _ => return []

/-- Adds a value at a path. -/
def add (schema : Option ResourceSchema) (path : AttributePath) (value : Json) : Change Unit := do
  let home ← ensureHome schema path
  match path.attr with
  | none => mergeWhole schema (path.uri.getD "") value
  | some attr =>
    match path.restriction, path.sub with
    | some _, some sub =>
      Action.update fun resource => do
        match ← selected schema path attr home resource with
        | [] => noMatch path
        | locations => setSubAt schema path attr sub value locations resource
    | some _, none =>
      Action.update fun resource => do
        match ← selected schema path attr home resource with
        | [] => return home.update resource (append · attr value)
        | _ => return resource
    | none, some sub => updateHome home (setSub schema path attr sub true value)
    | none, none =>
      updateHome home fun members =>
        if isMultiValued schema attr path.uri (Members.attr members attr) value then
          return append members attr value
        else putSingle schema path.uri members attr value

/-- Replaces the value at a path. -/
def replace (schema : Option ResourceSchema) (path : AttributePath) (value : Json) :
    Change Unit := do
  let home ← ensureHome schema path
  match path.attr with
  | none => mergeWhole schema (path.uri.getD "") value
  | some attr =>
    match path.restriction, path.sub with
    | some _, sub =>
      Action.update fun resource => do
        match ← selected schema path attr home resource, sub with
        | [], _ => noMatch path
        | locations, some sub => setSubAt schema path attr sub value locations resource
        | locations, none =>
          return locations.foldl (fun resource location =>
            location.updateElement resource (replaceElement value)) resource
    | none, some sub => updateHome home (setSub schema path attr sub false value)
    | none, none =>
      updateHome home fun members =>
        if isMultiValued schema attr path.uri (Members.attr members attr) value then
          return Members.setAttr members attr (.arr (asItems value))
        else putSingle schema path.uri members attr value

/-- Removes the elements that a restriction selects, or a sub-attribute of each. An attribute of
which all elements are gone goes too. -/
def removeSelected (schema : Option ResourceSchema) (path : AttributePath) (attr : String)
    (home : Home) (resource : Members) : Except Failure Members := do
  let _ ← restrictedList (home.members resource) attr path
  let locations ← matching schema path resource
  match path.sub with
  | some sub =>
    return locations.foldl (fun resource location =>
      location.updateElement resource (deleteSubIn sub)) resource
  | none =>
    let remaining := locations.foldr (fun location resource => location.delete resource) resource
    return if locations.isEmpty then remaining else home.update remaining (dropEmpty · attr)

/-- Removes a whole extension and withdraws the declaration of its URN. -/
def removeExtension (uri : String) : Change Unit := do
  modify (Members.delAttr · uri)
  Action.update fun resource => do
    let urns ← Members.declared resource
    if urns.all (·.isStr) then
      let others := urns.filter fun u => !u.text?.any (sameName · uri)
      return Members.set resource "schemas" (.arr others)
    else failWith .noSuchMember

/-- Removes the value at a path. -/
def remove (schema : Option ResourceSchema) (path : AttributePath) (value : Json) :
    Change Unit := do
  match ← Action.examine (homeFor · path schema) with
  | none => return
  | some home =>
    match path.attr with
    | none => removeExtension (path.uri.getD "")
    | some attr =>
      Action.update fun resource => do
        if (Members.attr (home.members resource) attr).isNull then return resource
        match path.restriction, path.sub with
        | some _, _ => removeSelected schema path attr home resource
        | none, some sub => return home.update resource (removeSub attr sub)
        | none, none => return home.update resource (removeValue attr value)

end Patch

namespace PatchOperation

/-- The place that an operation with a path changes, if a client may change it. -/
def target (schema : Option ResourceSchema) (text : String) : Except Failure AttributePath := do
  let path ← PathOf.parse text
  Patch.checkMutable schema path
  return path

/-- Applies an operation. -/
def apply (operation : PatchOperation) (schema : Option ResourceSchema) : Change Unit := do
  match operation.path with
  | none => Patch.mergeRoot schema operation.op operation.value
  | some text =>
    let path ← Action.ofExcept (target schema text)
    match operation.op with
    | .add => Patch.add schema path operation.value
    | .replace => Patch.replace schema path operation.value
    | .remove => Patch.remove schema path operation.value

end PatchOperation

/-- An entry of a change request: an operation, or data still to be read as one. -/
inductive PatchEntry where
  | ready (operation : PatchOperation)
  | data (value : Json)

/-- The operation of an entry; `index` is its place in the request. -/
def PatchEntry.read (index : Int) : PatchEntry → Except Failure PatchOperation
  | .ready operation => .ok operation
  | .data value => PatchOperation.ofJson value index

/-- The entries of a change request: those of a message body, or the items of a list, of which a
text is one of characters. Anything else lists no entries. -/
def PatchEntry.ofRequest (request : Json) : Except Failure (Option (List PatchEntry)) :=
  match request with
  | .obj _ => (PatchOperation.ofRequest request).map fun operations => some (operations.map .ready)
  | .arr items => .ok (some (items.map .data))
  | .str s => .ok (some (s.toList.map fun c => .data (.str (String.singleton c))))
  | _ => .ok none

/-- Applies entries in their places from an index on. -/
def applyEntries (schema : Option ResourceSchema) (index : Int) : List PatchEntry → Change Unit
  | [] => return
  | entry :: rest => do
    let operation ← Action.ofExcept (entry.read index)
    operation.apply schema
    applyEntries schema (index + 1) rest

/-- The schema to apply a change under: the given one, or else the standard one that the resource
declares. -/
def effectiveSchema (resource : Json) (schema : Option ResourceSchema) :
    Except Failure (Option ResourceSchema) :=
  match schema with
  | some schema => .ok (some schema)
  | none => resource.schema?

/-- The resource after all entries of a change request. -/
def applyPatch (resource : Members) (entries : List PatchEntry) (schema : Option ResourceSchema) :
    Except Failure Members := do
  let schema ← effectiveSchema (.obj resource) schema
  match (applyEntries schema 0 entries).run resource with
  | (.ok (), changed) => return changed
  | (.error failure, _) => .error failure

end Scim
