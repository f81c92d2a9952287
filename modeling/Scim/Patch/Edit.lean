import Scim.Patch.Operation
import Scim.Path.Location

/-!
# Edits of an object

The edits that operations make in the object that holds an attribute: checking a value against its
stated type, adding to a list, merging objects, setting and removing sub-attributes and items.
-/

namespace Scim.Patch

/-- The refusal to change an attribute that a client may not change. -/
def notModifiable {α : Type} (attr : String) : Except Failure α :=
  refuse (.mutateImmutable ("Attribute " ++ attr ++ " is not modifiable"))

/-- Refuses an operation that would change an attribute which a client may not change. -/
def checkMutable (schema : Option ResourceSchema) (path : AttributePath) : Except Failure Unit :=
  match schema, path.attr with
  | some schema, some attr => do
    if schema.isFixed attr none path.uri then
      notModifiable (Text.quoted attr)
    match path.sub with
    | none | some "" => return
    | some sub =>
      if schema.isFixed attr (some sub) path.uri then
        notModifiable (attr ++ "." ++ sub)
  | _, _ => return

/-- Whether an attribute is treated as a list: it is one, or the schema says so, or, if the schema
does not describe it, the new value is one. -/
def isMultiValued (schema : Option ResourceSchema) (attr : String) (uri : Option String)
    (current value : Json) : Bool :=
  current.isArr ||
    match schema.bind (·.isMultiValued? attr uri) with
    | some known => known
    | none => value.isArr

/-- The refusal of a value of the wrong type. -/
def typeError {α : Type} (name wanted : String) : Except Failure α :=
  refuse (.patchInvalidValue ("Invalid value for " ++ Text.quoted name ++ ": expected " ++ wanted))

/-- The type that a schema states for an attribute or sub-attribute. -/
def statedType (schema : Option ResourceSchema) (attr : String) (sub uri : Option String) :
    Option String :=
  schema.bind fun schema => (schema.attribute? attr sub uri).bind (·.type?)

/-- Checks a single value against the stated type of an attribute. A truth value may be spelled as a
text; null and values of attributes that no schema describes pass. -/
def coerce (schema : Option ResourceSchema) (attr : String) (sub uri : Option String)
    (value : Json) : Except Failure Json :=
  let name := match sub with
    | none | some "" => attr
    | some sub => attr ++ "." ++ sub
  if value.isNull then .ok value
  else
    match statedType schema attr sub uri with
    | some "boolean" =>
      match value with
      | .bool _ => .ok value
      | .str s =>
        if Text.lower s = "true" then .ok (.bool true)
        else if Text.lower s = "false" then .ok (.bool false)
        else typeError name "boolean"
      | _ => typeError name "boolean"
    | some "complex" => if value.isObj then .ok value else typeError name "complex object"
    | some kind =>
      if kind ∈ ["string", "reference", "dateTime", "binary"] then
        match value with
        | .str s =>
          if Text.lower name = "username" ∧ s = "" then
            refuse (.patchInvalidValue "Invalid value for 'userName': cannot be empty")
          else .ok value
        | _ => typeError name "string"
      else .ok value
    | none => .ok value

/-- Adds values to a list, in order, each unless it is there already. -/
def addMissing (items values : List Json) : List Json :=
  values.foldl (fun result value =>
    if Json.containedIn value result then result else result ++ [value]) items

/-- The items of a list; anything else counts as no list. -/
def itemsOf : Json → List Json
  | .arr items => items
  | _ => []

/-- The items of a list; anything else counts as a single item. -/
def asItems : Json → List Json
  | .arr items => items
  | value => [value]

/-- Adds values to an attribute that is treated as a list. -/
def append (members : Members) (attr : String) (value : Json) : Members :=
  Members.setAttr members attr
    (.arr (addMissing (itemsOf (Members.attr members attr)) (asItems value)))

/-- Sets an attribute to a value of its stated type. -/
def setChecked (schema : Option ResourceSchema) (uri : Option String) (members : Members)
    (attr : String) (value : Json) : Except Failure Members :=
  return Members.setAttr members attr (← coerce schema attr none uri value)

/-- Sets an attribute that has one value; an object is merged into an object. -/
def putSingle (schema : Option ResourceSchema) (uri : Option String) (members : Members)
    (attr : String) (value : Json) : Except Failure Members :=
  match Members.attr members attr, value with
  | .obj current, .obj values =>
    return Members.setAttr members attr (.obj (Members.merge current values))
  | _, _ => setChecked schema uri members attr value

/-- Sets a sub-attribute of an object; other values stay as they are. -/
def setSubIn (sub : String) (value : Json) : Json → Json
  | .obj element => .obj (Members.setAttr element sub value)
  | other => other

/-- Sets a sub-attribute, in each element of a list or in a single object, which is created if there
is none. With `merge`, an object is merged into an object that is there. -/
def setSub (schema : Option ResourceSchema) (path : AttributePath) (attr sub : String)
    (merge : Bool) (value : Json) (members : Members) : Except Failure Members := do
  let value ← coerce schema attr (some sub) path.uri value
  match Members.attr members attr with
  | .arr items => return Members.setAttr members attr (.arr (items.map (setSubIn sub value)))
  | .obj element =>
    let value := match merge, Members.attr element sub, value with
      | true, .obj existing, .obj values => .obj (Members.merge existing values)
      | _, _, _ => value
    return Members.setAttr members attr (.obj (Members.setAttr element sub value))
  | .null => return Members.setAttr members attr (.obj [(sub, value)])
  | _ => refuse (.invalidPath "Sub-attribute of a simple attribute" path.text)

/-- The list that a restricted path applies to, null if it is absent. -/
def restrictedList (members : Members) (attr : String) (path : AttributePath) :
    Except Failure Json :=
  match Members.attr members attr with
  | .null => .ok .null
  | .arr items => .ok (.arr items)
  | _ => refuse (.invalidPath "Value filter applied to a single-valued attribute" path.text)

/-- Merges an object into an element, or puts another value in its place. -/
def replaceElement (value element : Json) : Json :=
  match element, value with
  | .obj members, .obj values => .obj (Members.merge members values)
  | _, value => value

/-- Whether an item is meant by a value to remove: they are equal, or both are objects and the item
has every member of the value. -/
def isMeant (item target : Json) : Bool :=
  match item, target with
  | .obj element, .obj wanted =>
    wanted.all fun (name, value) => Json.equal (Members.attr element name) value
  | _, _ => Json.equal item target

/-- Removes an attribute whose value is an empty list or object. -/
def dropEmpty (members : Members) (attr : String) : Members :=
  match Members.attr members attr with
  | .arr [] | .obj [] => Members.delAttr members attr
  | _ => members

/-- Removes a sub-attribute of an object; other values stay as they are. -/
def deleteSubIn (sub : String) : Json → Json
  | .obj element => .obj (Members.delAttr element sub)
  | other => other

/-- Removes a sub-attribute from each element of a list, or from a single object, which goes with
its last member. -/
def removeSub (attr sub : String) (members : Members) : Members :=
  match Members.attr members attr with
  | .arr items => Members.setAttr members attr (.arr (items.map (deleteSubIn sub)))
  | .obj element =>
    dropEmpty (Members.setAttr members attr (.obj (Members.delAttr element sub))) attr
  | _ => members

/-- Removes an attribute, or the items of a list that a value names. -/
def removeValue (attr : String) (value : Json) (members : Members) : Members :=
  match Members.attr members attr, value with
  | .arr items, value =>
    if value.isNull then Members.delAttr members attr
    else
      match items.filter fun item => !(asItems value).any (isMeant item) with
      | [] => Members.delAttr members attr
      | remaining => Members.setAttr members attr (.arr remaining)
  | _, _ => Members.delAttr members attr

end Scim.Patch
