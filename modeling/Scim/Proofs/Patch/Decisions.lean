import Scim.Patch.Apply
import Scim.Proofs.Action
import Scim.Proofs.Resource.Places

/-!
# What an operation decides

An operation whose path has an attribute looks at the current value of this attribute in
its home and at nothing else there.  From this value it decides whether it is refused, and
if not, what becomes of the attribute.  Here the decision is stated apart from the resource.
-/

namespace Scim

open Members

/-! ## Edits of an attribute -/

/-- What becomes of an attribute: it stays as it is, gets a value, or goes. -/
inductive AttrEdit where
  | keep
  | put (value : Json)
  | drop

namespace AttrEdit

/-- The members after an edit of an attribute. -/
def on (edit : AttrEdit) (attr : String) (members : Members) : Members :=
  match edit with
  | keep => members
  | put value => setAttr members attr value
  | drop => delAttr members attr

/-- A list or object that is empty goes; another value is put in place. -/
def unlessEmpty : Json → AttrEdit
  | .arr [] | .obj [] => drop
  | value => put value

end AttrEdit

/-! ## Decisions -/

namespace Patch

/-- The indexes of the elements that a filter selects in a list, which may be absent. -/
def selection (schema : Option ResourceSchema) (path : AttributePath) (filter : Filter) :
    Json → Except Failure (List Nat)
  | .null => .ok []
  | .arr items => (matchingIndexes (.within schema path) filter 0 items).map (·.map Prod.fst)
  | _ => refuse (.invalidPath "Value filter applied to a single-valued attribute" path.text)

/-- The items of a list after a change of those at some indexes, one after the other. -/
def changeAt (f : Json → Json) (indexes : List Nat) (items : List Json) : List Json :=
  indexes.foldl (fun items index => items.modify index f) items

/-- The items of a list without those at some indexes, of which the last goes first. -/
def removeAt (indexes : List Nat) (items : List Json) : List Json :=
  indexes.foldr (fun index items => items.eraseIdx index) items

/-- Setting a sub-attribute of some elements of a list. -/
def settingAt (schema : Option ResourceSchema) (path : AttributePath) (attr sub : String)
    (value : Json) (indexes : List Nat) (current : Json) : Except Failure AttrEdit := do
  let typed ← coerce schema attr (some sub) path.uri value
  return .put (.arr (changeAt (setSubIn sub typed) indexes (itemsOf current)))

/-- Setting a sub-attribute of a value, or of each element of a list. -/
def settingSub (schema : Option ResourceSchema) (path : AttributePath) (attr sub : String)
    (merge : Bool) (value current : Json) : Except Failure AttrEdit := do
  let typed ← coerce schema attr (some sub) path.uri value
  match current with
  | .arr items => return .put (.arr (items.map (setSubIn sub typed)))
  | .obj element =>
    let typed := match merge, Members.attr element sub, typed with
      | true, .obj existing, .obj values => .obj (Members.merge existing values)
      | _, _, _ => typed
    return .put (.obj (setAttr element sub typed))
  | .null => return .put (.obj [(sub, typed)])
  | _ => refuse (.invalidPath "Sub-attribute of a simple attribute" path.text)

/-- Setting an attribute that has one value. -/
def settingSingle (schema : Option ResourceSchema) (uri : Option String) (attr : String)
    (value current : Json) : Except Failure AttrEdit :=
  match current, value with
  | .obj current, .obj values => return .put (.obj (Members.merge current values))
  | _, _ => return .put (← coerce schema attr none uri value)

/-- Adding to an attribute that is treated as a list. -/
def appending (value current : Json) : AttrEdit :=
  .put (.arr (addMissing (itemsOf current) (asItems value)))

/-- What adding a value at a path decides. -/
def addition (schema : Option ResourceSchema) (path : AttributePath) (attr : String)
    (value current : Json) : Except Failure AttrEdit :=
  match path.restriction, path.sub with
  | some filter, some sub => do
    match ← selection schema path filter current with
    | [] => noMatch path
    | indexes => settingAt schema path attr sub value indexes current
  | some filter, none => do
    match ← selection schema path filter current with
    | [] => return appending value current
    | _ => return .keep
  | none, some sub => settingSub schema path attr sub true value current
  | none, none =>
    if isMultiValued schema attr path.uri current value then return appending value current
    else settingSingle schema path.uri attr value current

/-- What replacing the value at a path decides. -/
def replacement (schema : Option ResourceSchema) (path : AttributePath) (attr : String)
    (value current : Json) : Except Failure AttrEdit :=
  match path.restriction, path.sub with
  | some filter, sub => do
    match ← selection schema path filter current, sub with
    | [], _ => noMatch path
    | indexes, some sub => settingAt schema path attr sub value indexes current
    | indexes, none => return .put (.arr (changeAt (replaceElement value) indexes (itemsOf current)))
  | none, some sub => settingSub schema path attr sub false value current
  | none, none =>
    if isMultiValued schema attr path.uri current value then return .put (.arr (asItems value))
    else settingSingle schema path.uri attr value current

/-- Removing a sub-attribute of a value, or of each element of a list. -/
def droppingSub (sub : String) : Json → AttrEdit
  | .arr items => .put (.arr (items.map (deleteSubIn sub)))
  | .obj element => .unlessEmpty (.obj (delAttr element sub))
  | _ => .keep

/-- Removing a value, or the items of a list that are named. -/
def dropping (value : Json) : Json → AttrEdit
  | .arr items =>
    if value.isNull then .drop
    else .unlessEmpty (.arr (items.filter fun item => !(asItems value).any (isMeant item)))
  | _ => .drop

/-- What removing the value at a path decides. -/
def removal (schema : Option ResourceSchema) (path : AttributePath) (value current : Json) :
    Except Failure AttrEdit :=
  if current.isNull then .ok .keep
  else
    match path.restriction, path.sub with
    | some filter, sub => do
      let indexes ← selection schema path filter current
      match sub with
      | some sub => return .put (.arr (changeAt (deleteSubIn sub) indexes (itemsOf current)))
      | none =>
        return if indexes.isEmpty then .keep
          else .unlessEmpty (.arr (removeAt indexes (itemsOf current)))
    | none, some sub => .ok (droppingSub sub current)
    | none, none => .ok (dropping value current)

end Patch

/-- What an operation at a path decides from the current value of the attribute. -/
def PatchOperation.decision (operation : PatchOperation) (schema : Option ResourceSchema)
    (path : AttributePath) (attr : String) (current : Json) : Except Failure AttrEdit :=
  match operation.op with
  | .add => Patch.addition schema path attr operation.value current
  | .replace => Patch.replacement schema path attr operation.value current
  | .remove => Patch.removal schema path operation.value current

/-! ## Edits of an object decide -/

namespace Patch

variable {schema : Option ResourceSchema} {path : AttributePath} {attr sub : String}
  {value : Json} {members : Members}

theorem on_unlessEmpty (value : Json) :
    (AttrEdit.unlessEmpty value).on attr members =
      dropEmpty (setAttr members attr value) attr := by
  have removed : AttrEdit.drop.on attr members = delAttr (setAttr members attr value) attr :=
    (delAttr_setAttr members attr value).symm
  rw [dropEmpty, attr_setAttr_self]
  cases value with
  | arr items =>
      cases items with
      | nil => exact removed
      | cons => rfl
  | obj items =>
      cases items with
      | nil => exact removed
      | cons => rfl
  | _ => rfl

theorem append_eq :
    append members attr value = (appending value (Members.attr members attr)).on attr members := rfl

theorem setSub_eq (merge : Bool) :
    setSub schema path attr sub merge value members =
      (settingSub schema path attr sub merge value (Members.attr members attr)).map
        (·.on attr members) := by
  unfold setSub settingSub
  cases coerce schema attr (some sub) path.uri value with
  | error failure => rfl
  | ok typed => cases Members.attr members attr <;> rfl

theorem setChecked_eq (uri : Option String) :
    setChecked schema uri members attr value =
      (coerce schema attr none uri value >>= fun typed => Except.ok (AttrEdit.put typed)).map
        (·.on attr members) := by
  unfold setChecked
  cases coerce schema attr none uri value <;> rfl

theorem putSingle_eq (uri : Option String) :
    putSingle schema uri members attr value =
      (settingSingle schema uri attr value (Members.attr members attr)).map
        (·.on attr members) := by
  unfold putSingle
  cases Members.attr members attr with
  | obj current =>
      cases value with
      | obj values => rfl
      | _ => exact setChecked_eq uri
  | _ => exact setChecked_eq uri

theorem removeSub_eq :
    removeSub attr sub members = (droppingSub sub (Members.attr members attr)).on attr members := by
  unfold removeSub
  cases Members.attr members attr with
  | obj element => exact (on_unlessEmpty _).symm
  | _ => rfl

theorem removeValue_eq :
    removeValue attr value members = (dropping value (Members.attr members attr)).on attr members := by
  unfold removeValue
  cases Members.attr members attr with
  | arr items =>
      unfold dropping
      dsimp only
      split
      · rfl
      · cases items.filter fun item => !(asItems value).any (isMeant item) <;> rfl
  | _ => rfl

end Patch

end Scim
