import Scim.Error
import Scim.Text.Case
import Scim.Text.Part

/-!
# Attributes of a resource

A resource is a JSON object. The names of its attributes are matched without regard to letter case,
and an attribute keeps the spelling it was first stored under: an exact match wins, else the first
name with the same lower-case form.
-/

namespace Scim

namespace Members

/-- The stored spelling of an attribute's name. -/
def key? (members : Members) (name : String) : Option String :=
  if members.any (·.1 = name) then some name
  else (names members).find? (Text.lower · = Text.lower name)

/-- The value of an attribute, if there is one. -/
def attr? (members : Members) (name : String) : Option Json :=
  (key? members name).bind (get? members)

/-- The value of an attribute, null if there is none. -/
def attr (members : Members) (name : String) : Json :=
  (attr? members name).getD .null

/-- Sets an attribute, under its stored spelling if it has one. -/
def setAttr (members : Members) (name : String) (value : Json) : Members :=
  set members ((key? members name).getD name) value

/-- Removes an attribute if it is there. -/
def delAttr (members : Members) (name : String) : Members :=
  match key? members name with
  | some key => erase members key
  | none => members

/-- Sets each of some attributes in turn. -/
def merge (members values : Members) : Members :=
  values.foldl (fun result (name, value) => setAttr result name value) members

/-- Replaces the value under a key by a function of it. -/
def modify (members : Members) (key : String) (f : Json → Json) : Members :=
  members.map fun (name, value) => if name = key then (name, f value) else (name, value)

/-- The id of a resource. -/
def resourceId (members : Members) : Json := attr members "id"

/-- The version of a resource. -/
def resourceVersion (members : Members) : Json :=
  match attr members "meta" with
  | .obj info => attr info "version"
  | _ => .null

/-- Whether an element of a list is marked as primary. -/
def isPrimary : Json → Bool
  | .obj element =>
    match attr element "primary" with
    | .bool b => b
    | _ => false
  | _ => false

/-- Withdraws the mark of an element. -/
def unmark : Json → Json
  | .obj element => .obj (setAttr element "primary" (.bool false))
  | value => value

/-- Leaves the mark on the last marked element only. The flag tells whether an element behind the
list is marked. -/
def keepLastPrimary : List Json → List Json × Bool
  | [] => ([], false)
  | item :: rest =>
    let (rest, marked) := keepLastPrimary rest
    if isPrimary item then ((if marked then unmark item else item) :: rest, true)
    else (item :: rest, marked)

/-- Leaves at most one element marked as primary in each list of a resource: the last one. -/
def singlePrimary (members : Members) : Members :=
  members.map fun (name, value) =>
    match value with
    | .arr items => (name, .arr (keepLastPrimary items).1)
    | value => (name, value)

end Members

namespace Json

/-- Whether a value counts as one: null, and empty texts, lists and objects, do not. -/
def hasValue : Json → Bool
  | .null => false
  | .str s => s != ""
  | .arr items => !items.isEmpty
  | .obj members => !members.isEmpty
  | _ => true

/-- The element that stands for a list: the first one marked as primary, or else the first. -/
def primaryOrFirst (items : List Json) : Json :=
  ((items.find? Members.isPrimary).orElse fun _ => items.head?).getD .null

/-- The value of an attribute of something that should be an object. A text has no attributes, and a
list none that can be looked up by name. -/
def attrOf (value : Json) (name : String) : Except Failure Json :=
  match value with
  | .obj members => .ok (Members.attr members name)
  | .arr items =>
    if items.any fun item => item.text? == some name then failWith .wrongType
    else
      match items.find? fun item => item.text?.all (Text.lower · == Text.lower name) with
      | none => .ok .null
      | some (.str _) => failWith .wrongType
      | some _ => failWith .noSuchMember
  | .str s =>
    if Text.occursIn name.toList s.toList ||
        s.toList.any (fun c => Text.lower (String.singleton c) == Text.lower name) then
      failWith .wrongType
    else .ok .null
  | _ => failWith .wrongType

/-- Whether a value can be an id: an array or object cannot. -/
def isKey (value : Json) : Bool := !value.isArr && !value.isObj

/-- A value that should be a resource. -/
def asResource : Json → Except Failure Members
  | .obj members => .ok members
  | _ => failWith .wrongType

/-- The items that a value counts as listing: those of an array, the names of an object, the
characters of a text, and none if it is null, false, zero or empty. -/
def listed (value : Json) : Except Failure (List Json) :=
  if value.isVoid then .ok []
  else
    match value with
    | .arr items => .ok items
    | .obj members => .ok ((Members.names members).map .str)
    | .str s => .ok (s.toList.map fun c => .str (String.singleton c))
    | _ => failWith .wrongType

end Json

end Scim
