import Scim.Resource
import Scim.Schema.Basic

/-!
# The standard schemas

Users, groups and the enterprise extension of users, the registry of their URNs, and the choice of a
schema for a resource by the URNs that it declares.
-/

namespace Scim

/-- The URN of users. -/
def userUrn : String := "urn:ietf:params:scim:schemas:core:2.0:User"

/-- The URN of groups. -/
def groupUrn : String := "urn:ietf:params:scim:schemas:core:2.0:Group"

/-- The URN of the enterprise extension. -/
def enterpriseUserUrn : String := "urn:ietf:params:scim:schemas:extension:enterprise:2.0:User"

namespace Schema

/-- An attribute with one value and all characteristics stated but its regard to letter case. -/
def plainTraits (name type mutability : String) : Traits where
  name := name
  stated := [("type", .str type), ("multiValued", .bool false), ("mutability", .str mutability),
    ("returned", .str "default")]

/-- States a characteristic. -/
def withTrait (key : String) (value : Json) (traits : Traits) : Traits :=
  { traits with stated := Members.set traits.stated key value }

/-- A text that may be read and written. -/
def text (name : String) : Traits := plainTraits name "string" "readWrite"

/-- States the regard to letter case. -/
def withCase (caseExact : Bool) : Traits → Traits := withTrait "caseExact" (.bool caseExact)

/-- States when an attribute is returned. -/
def withReturn (returned : String) : Traits → Traits := withTrait "returned" (.str returned)

/-- A simple attribute. -/
def simple (traits : Traits) : Attribute := ⟨traits, none⟩

/-- An attribute with sub-attributes. -/
def complex (name mutability : String) (subAttributes : List Traits) : Attribute :=
  ⟨plainTraits name "complex" mutability, some subAttributes⟩

/-- States that an attribute has several values. -/
def several (one : Attribute) : Attribute :=
  { one with toTraits := withTrait "multiValued" (.bool true) one.toTraits }

/-- A list of values with a display name, a type and a mark for the primary one; `value` states more
about the values. -/
def valueList (name mutability : String) (value : Traits → Traits := id) : Attribute :=
  several <| complex name mutability [
    value (plainTraits "value" "string" mutability),
    plainTraits "display" "string" mutability,
    withCase false (plainTraits "type" "string" mutability),
    plainTraits "primary" "boolean" mutability]

/-- The attributes of every kind of resource. -/
def common : List Attribute := [
  simple (withReturn "always" (withCase true (plainTraits "id" "string" "readOnly"))),
  simple (withCase true (text "externalId")),
  complex "meta" "readOnly" [
    withCase true (plainTraits "resourceType" "string" "readOnly"),
    plainTraits "created" "dateTime" "readOnly",
    plainTraits "lastModified" "dateTime" "readOnly",
    withCase true (plainTraits "location" "reference" "readOnly"),
    withCase true (plainTraits "version" "string" "readOnly")]]

/-- The schema of users. -/
def user : SchemaDef where
  urn := userUrn
  name := "User"
  endpoint := some "Users"
  attributes := common ++ [
    simple (withCase false (text "userName")),
    complex "name" "readWrite" (["formatted", "familyName", "givenName", "middleName",
      "honorificPrefix", "honorificSuffix"].map text),
    simple (withCase false (text "displayName")),
    simple (text "nickName"),
    simple (plainTraits "profileUrl" "reference" "readWrite"),
    simple (text "title"),
    simple (withCase false (text "userType")),
    simple (text "preferredLanguage"),
    simple (text "locale"),
    simple (text "timezone"),
    simple (plainTraits "active" "boolean" "readWrite"),
    simple (withReturn "never" (withCase true (plainTraits "password" "string" "writeOnly"))),
    valueList "emails" "readWrite" (withCase false),
    valueList "phoneNumbers" "readWrite",
    valueList "ims" "readWrite",
    valueList "photos" "readWrite",
    several (complex "addresses" "readWrite" (["formatted", "streetAddress", "locality", "region",
      "postalCode", "country"].map text ++
        [withCase false (text "type"), plainTraits "primary" "boolean" "readWrite"])),
    valueList "groups" "readOnly",
    valueList "entitlements" "readWrite",
    valueList "roles" "readWrite",
    valueList "x509Certificates" "readWrite"]

/-- The schema of groups. -/
def group : SchemaDef where
  urn := groupUrn
  name := "Group"
  endpoint := some "Groups"
  attributes := common ++ [
    simple (withCase false (text "displayName")),
    several (complex "members" "readWrite" [
      withCase true (plainTraits "value" "string" "immutable"),
      plainTraits "$ref" "reference" "immutable",
      plainTraits "display" "string" "readOnly",
      withCase false (plainTraits "type" "string" "immutable")])]

/-- The enterprise extension of users. -/
def enterpriseUser : SchemaDef where
  urn := enterpriseUserUrn
  name := "EnterpriseUser"
  endpoint := none
  attributes := [
    simple (text "employeeNumber"),
    simple (text "costCenter"),
    simple (text "organization"),
    simple (text "division"),
    simple (text "department"),
    complex "manager" "readWrite" [
      text "value",
      plainTraits "$ref" "reference" "readWrite",
      plainTraits "displayName" "string" "readOnly"]]

/-- The schemas that are known by URN. -/
def registry : List SchemaDef := [user, group, enterpriseUser]

/-- The schema that a URN names. -/
def find? (urn : String) : Option SchemaDef := registry.find? (sameName ·.urn urn)

end Schema

namespace ResourceSchema

/-- Users with their enterprise extension. -/
def user : ResourceSchema := ⟨Schema.user, [Schema.enterpriseUser]⟩

/-- Groups. -/
def group : ResourceSchema := ⟨Schema.group, []⟩

/-- The standard kinds of resource by name. -/
def standard : List (String × ResourceSchema) := [("User", user), ("Group", group)]

end ResourceSchema

namespace Members

/-- The URNs that a resource declares. -/
def declared (resource : Members) : Except Failure (List Json) :=
  ((get? resource "schemas").getD .null).listed

/-- Whether a resource declares a URN. -/
def declares (resource : Members) (uri : String) : Except Failure Bool :=
  return (← declared resource).any fun u => u.text?.any (sameName · uri)

/-- The standard kind that a resource declares. -/
def schema? (resource : Members) : Except Failure (Option ResourceSchema) := do
  let urns ← declared resource
  return (ResourceSchema.standard.find? fun (_, schema) =>
    urns.any fun u => u.text?.any (sameName · schema.urn)).map (·.2)

/-- Whether a URN names the core schema of a resource and not an extension. Core attributes stand at
the top level of a resource, those of an extension in an object under its URN. A URN that is not
known is that of the core schema if the resource declares it first. -/
def isCoreUri (resource : Members) (uri : String) : Except Failure Bool :=
  match Schema.find? uri with
  | some schema => .ok schema.endpoint.isSome
  | none =>
    let schemas := (get? resource "schemas").getD .null
    if schemas.isVoid then .ok false
    else
      match schemas with
      | .arr (.str first :: _) => .ok (sameName first uri)
      | .arr _ => .ok false
      | .str s => .ok ((s.toList.head?.map String.singleton).any (sameName · uri))
      | .obj _ => failWith .missingKey
      | _ => failWith .wrongType

end Members

namespace Json

/-- The standard kind that something declares that should be a resource. Only an object can declare
one. -/
def schema? (value : Json) : Except Failure (Option ResourceSchema) :=
  match value with
  | .obj resource => Members.schema? resource
  | _ => failWith .noSuchMember

/-- Whether a URN names the core schema of something that should be a resource. What is no object is
not asked about a URN that is known. -/
def isCoreUri (value : Json) (uri : String) : Except Failure Bool :=
  match value, Schema.find? uri with
  | .obj resource, _ => Members.isCoreUri resource uri
  | _, some schema => .ok schema.endpoint.isSome
  | _, none => failWith .noSuchMember

end Json

end Scim
