import Scim.Schema.Basic

/-!
# Schemas as JSON

The JSON form of a schema. A characteristic that the schema leaves open is absent from it, and what
a schema says beyond the known characteristics is kept.
-/

namespace Scim

namespace Members

/-- The text of a member. -/
def textAt (members : Members) (name : String) : Option String :=
  (Members.get? members name).bind (·.text?)

/-- The objects of a list that is a member. -/
def objectsAt (members : Members) (name : String) : Option (List Members) :=
  match Members.get? members name with
  | some (.arr items) => some (items.filterMap (·.members?))
  | _ => none

end Members

namespace Traits

/-- The members of the JSON form. -/
def toMembers (traits : Traits) : Members := ("name", .str traits.name) :: traits.stated

/-- Reads the name and the characteristics of an attribute. -/
def ofMembers (members : Members) : Traits where
  name := (Members.textAt members "name").getD ""
  stated := Members.erase members "name"

end Traits

namespace Attribute

/-- The JSON form of an attribute. -/
def toJson (described : Attribute) : Json :=
  let subAttributes := match described.subAttributes with
    | some subs => [("subAttributes", .arr (subs.map fun sub => .obj sub.toMembers))]
    | none => []
  .obj (described.toTraits.toMembers ++ subAttributes)

/-- Reads an attribute. -/
def ofMembers (members : Members) : Attribute :=
  match Members.objectsAt members "subAttributes" with
  | none => ⟨.ofMembers members, none⟩
  | some subs => ⟨.ofMembers (Members.erase members "subAttributes"), some (subs.map .ofMembers)⟩

end Attribute

namespace SchemaDef

/-- The JSON form of a schema. -/
def toJson (schema : SchemaDef) : Json :=
  let endpoint := match schema.endpoint with
    | some endpoint => [("endpoint", .str endpoint)]
    | none => []
  .obj ([("id", .str schema.urn), ("name", .str schema.name)] ++ endpoint ++
    [("attributes", .arr (schema.attributes.map Attribute.toJson))])

/-- Reads a schema. -/
def ofMembers (members : Members) : SchemaDef where
  urn := (Members.textAt members "id").getD ""
  name := (Members.textAt members "name").getD ""
  endpoint := Members.textAt members "endpoint"
  attributes := ((Members.objectsAt members "attributes").getD []).map .ofMembers

end SchemaDef

namespace ResourceSchema

/-- Reads a core schema with its extensions. -/
def ofMembers (members : Members) : ResourceSchema where
  core := .ofMembers (((Members.get? members "core").bind (·.members?)).getD [])
  extensions := ((Members.objectsAt members "extensions").getD []).map .ofMembers

end ResourceSchema

end Scim
