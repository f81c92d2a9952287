import Scim.Json.Basic
import Scim.Text.Case

/-!
# Schemas

A schema describes the attributes of a kind of resource or of an extension. It may state whatever
characteristics of an attribute it likes, of which the engine consults a few. One that the schema
leaves open has a default, and so has an attribute that the schema does not describe.
-/

namespace Scim

/-- An attribute's name and its characteristics, as far as the schema states them. -/
structure Traits where
  name : String
  stated : Members

/-- An attribute with the sub-attributes of its values. -/
structure Attribute extends Traits where
  subAttributes : Option (List Traits)

/-- A schema: its URN, and the endpoint of its resources if it is the core schema of a kind of
resource. -/
structure SchemaDef where
  urn : String
  name : String
  endpoint : Option String
  attributes : List Attribute

/-- The schema of a kind of resource: a core schema and the extensions allowed beside it. -/
structure ResourceSchema where
  core : SchemaDef
  extensions : List SchemaDef

/-- Whether two names or URNs are the same without regard to letter case. -/
def sameName (a b : String) : Bool := Text.lower a == Text.lower b

namespace Traits

/-- A characteristic, which has a default if the schema leaves it open. -/
def characteristic (traits : Traits) (key : String) (default : Json) : Json :=
  (Members.get? traits.stated key).getD default

/-- A characteristic that should be a text. -/
def text? (traits : Traits) (key : String) : Option String :=
  (Members.get? traits.stated key).bind (·.text?)

/-- The type of the values of an attribute. -/
def type? (traits : Traits) : Option String := traits.text? "type"

/-- Attributes compare with regard to letter case unless the schema says otherwise. -/
def caseExact (traits : Traits) : Json := traits.characteristic "caseExact" (.bool true)

/-- Attributes have one value unless the schema says otherwise. -/
def isMultiValued (traits : Traits) : Bool :=
  !(traits.characteristic "multiValued" (.bool false)).isVoid

/-- Attributes may be read and written unless the schema says otherwise. -/
def mutability (traits : Traits) : Json := traits.characteristic "mutability" (.str "readWrite")

/-- Attributes are returned by default unless the schema says otherwise. -/
def returned (traits : Traits) : Json := traits.characteristic "returned" (.str "default")

end Traits

namespace SchemaDef

/-- The attribute of a name. -/
def find? (schema : SchemaDef) (name : String) : Option Attribute :=
  schema.attributes.find? (sameName ·.name name)

/-- The attribute of a name, or the sub-attribute of it. -/
def lookup? (schema : SchemaDef) (name : String) (sub : Option String) : Option Attribute := do
  let found ← schema.find? name
  match sub with
  | none => some found
  | some sub =>
    let traits ← (found.subAttributes.getD []).find? (sameName ·.name sub)
    some ⟨traits, none⟩

end SchemaDef

namespace ResourceSchema

/-- The URN of the core schema. -/
def urn (schema : ResourceSchema) : String := schema.core.urn

/-- The name of the kind of resource. -/
def name (schema : ResourceSchema) : String := schema.core.name

/-- The URNs of the extensions. -/
def extensionUrns (schema : ResourceSchema) : List String := schema.extensions.map (·.urn)

/-- The core schema or the extension that a URN names; the core schema without a URN. -/
def schemaFor? (schema : ResourceSchema) (uri : Option String) : Option SchemaDef :=
  match uri with
  | none => some schema.core
  | some uri =>
    if sameName uri schema.urn then some schema.core
    else schema.extensions.find? (sameName ·.urn uri)

/-- Whether a URN names the core schema or an extension. -/
def knowsUri (schema : ResourceSchema) (uri : String) : Bool :=
  (schema.schemaFor? (some uri)).isSome

/-- Whether a URN names an extension. -/
def isExtension (schema : ResourceSchema) (uri : String) : Bool :=
  schema.extensionUrns.any (sameName · uri)

/-- The description of an attribute, or of a sub-attribute, if the schema has one. -/
def attribute? (schema : ResourceSchema) (name : String) (sub uri : Option String) :
    Option Attribute := do
  (← schema.schemaFor? uri).lookup? name sub

/-- What the schema says on whether an attribute compares with regard to letter case. -/
def caseExact (schema : ResourceSchema) (name : String) (sub uri : Option String) : Json :=
  ((schema.attribute? name sub uri).map (·.caseExact)).getD (.bool true)

/-- Whether an attribute compares with regard to letter case. -/
def isCaseExact (schema : ResourceSchema) (name : String) (sub uri : Option String) : Bool :=
  !(schema.caseExact name sub uri).isVoid

/-- Whether an attribute has several values, if the schema describes it. -/
def isMultiValued? (schema : ResourceSchema) (name : String) (uri : Option String) : Option Bool :=
  (schema.attribute? name none uri).map (·.isMultiValued)

/-- How an attribute may be changed. -/
def mutability (schema : ResourceSchema) (name : String) (sub uri : Option String) : Json :=
  ((schema.attribute? name sub uri).map (·.mutability)).getD (.str "readWrite")

/-- Whether an attribute may not be changed by a client. -/
def isFixed (schema : ResourceSchema) (name : String) (sub uri : Option String) : Bool :=
  (schema.mutability name sub uri).text?.any (· ∈ ["readOnly", "immutable"])

/-- When an attribute is returned. -/
def returned (schema : ResourceSchema) (name : String) (sub uri : Option String) : Json :=
  ((schema.attribute? name sub uri).map (·.returned)).getD (.str "default")

/-- The top-level attributes for which the schema states when they are returned, each with the URN
of its extension. -/
def attributesReturned (schema : ResourceSchema) (returned : String) :
    List (Option String × String) :=
  let of (uri : Option String) (part : SchemaDef) :=
    (part.attributes.filter (·.text? "returned" = some returned)).map fun a => (uri, a.name)
  of none schema.core ++ schema.extensions.flatMap fun part => of (some part.urn) part

end ResourceSchema

end Scim
