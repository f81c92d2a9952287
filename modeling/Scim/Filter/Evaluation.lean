import Scim.Filter.Basic
import Scim.Filter.Value
import Scim.Schema.Builtin
import Scim.Text.Part

/-!
# Evaluating filters

A path selects values of a resource: those of the attribute, or of its sub-attribute in each
element of a list. A comparison holds if some selected value satisfies it, and an inequality if none
is equal. Whether letter case matters is looked up in the schema, inside brackets relative to the
attribute before them.
-/

namespace Scim

/-- The values of a list, or a single value; nulls are dropped. -/
def Json.valuesOf : Json → List Json
  | .arr items => items.filter (!·.isNull)
  | .null => []
  | value => [value]

/-- The values of a sub-attribute in an element of a list. -/
def Json.subValues (sub : String) : Json → List Json
  | .obj element => (Members.attr element sub).valuesOf
  | _ => []

/-- The values of a sub-attribute in a value or in each of its elements; without a sub-attribute the
values themselves. -/
def Json.valuesAt (value : Json) (sub : Option String) : List Json :=
  match sub with
  | none => value.valuesOf
  | some sub =>
    match value with
    | .arr items => items.flatMap (Json.subValues sub)
    | value => Json.subValues sub value

/-- The values of an attribute of a resource, or of a sub-attribute of it. -/
def coreValues (resource : Json) (attr sub : Option String) : Except Failure (List Json) := do
  match attr with
  | none => return []
  | some attr => return (← resource.attrOf attr).valuesAt sub

/-- The values that a path selects, its restriction aside. A path that names an extension selects
the object of the extension. -/
def attributeValues {φ : Type} (resource : Json) (path : PathOf φ) :
    Except Failure (List Json) := do
  match path.uri with
  | none => coreValues resource path.attr path.sub
  | some uri =>
    match ← resource.attrOf uri with
    | .obj extension =>
      match path.attr with
      | none => return [.obj extension]
      | some attr => return (Members.attr extension attr).valuesAt path.sub
    | _ =>
      if ← resource.isCoreUri uri then coreValues resource path.attr path.sub
      else return []

/-- What a filter is evaluated under: a schema, and inside brackets the attribute before them. -/
structure Scope where
  schema : Option ResourceSchema
  /-- The name and URN of the attribute whose elements are examined. -/
  parent : Option (String × Option String)

namespace Scope

/-- The scope of a whole filter. -/
def top (schema : Option ResourceSchema) : Scope := ⟨schema, none⟩

/-- The scope of a filter in brackets behind a path. -/
def within {φ : Type} (schema : Option ResourceSchema) (path : PathOf φ) : Scope :=
  ⟨schema, path.attr.map fun attr => (attr, path.uri)⟩

/-- Whether letter case matters for the values of a path, or of a sub-attribute in its place. -/
def caseExact {φ : Type} (scope : Scope) (path : PathOf φ) (sub : Option String) : Bool :=
  match scope.schema with
  | none => true
  | some schema =>
    match scope.parent with
    | some (parent, uri) => schema.isCaseExact parent path.attr uri
    | none =>
      match path.attr with
      | some attr => schema.isCaseExact attr (sub <|> path.sub) path.uri
      | none => true

end Scope

/-- Whether a value satisfies a comparison other than an inequality. -/
def CompareOp.test (op : CompareOp) (caseExact : Bool) (actual expected : Json) : Bool :=
  let texts (f : String → String → Bool) :=
    match actual, expected with
    | .str s, .str t => f (Json.comparable caseExact s) (Json.comparable caseExact t)
    | _, _ => false
  let ordered (f : Ordering → Bool) := (Json.order? caseExact actual expected).any f
  match op with
  | .eq => Json.matchesValue caseExact actual expected
  | .ne => !Json.matchesValue caseExact actual expected
  | .co => texts fun s t => Text.occursIn t.toList s.toList
  | .sw => texts fun s t => Text.startsWith t s
  | .ew => texts fun s t => Text.endsWith t s
  | .gt => ordered (· == .gt)
  | .ge => ordered (· != .lt)
  | .lt => ordered (· == .lt)
  | .le => ordered (· != .gt)

namespace Filter

/-- The values that a comparison examines, and the sub-attribute they are taken from if they are the
`value` of complex values. -/
def examined (values : List Json) : List Json × Option String :=
  let values := values.filter (·.hasValue)
  if !values.isEmpty && values.all (·.isObj) then
    (values.flatMap fun value =>
      match value with
      | .obj element =>
        match Members.attr element "value" with
        | .null => []
        | inner => [inner]
      | _ => [], some "value")
  else (values, none)

/-- Whether a resource satisfies a comparison. Compared with null, an attribute is equal if it has
no value. -/
def evalCompare (scope : Scope) (resource : Json) (path : AttributePath) (op : CompareOp)
    (literal : Json) : Except Failure Bool := do
  let (values, sub) := examined (← attributeValues resource path)
  match literal with
  | .null =>
    match op with
    | .eq => return values.isEmpty
    | .ne => return !values.isEmpty
    | _ => return false
  | literal =>
    let caseExact := scope.caseExact path sub
    match op with
    | .ne => return !values.any (Json.matchesValue caseExact · literal)
    | op => return values.any (op.test caseExact · literal)

/-- Whether a resource, or an element of a list, satisfies a filter. The right operand of a
connective is examined only if the left one leaves the outcome open. -/
def eval (scope : Scope) (resource : Json) : Filter → Except Failure Bool
  | .and left right => do
    if ← eval scope resource left then eval scope resource right else return false
  | .or left right => do
    if ← eval scope resource left then return true else eval scope resource right
  | .not expr => return !(← eval scope resource expr)
  | .group expr => eval scope resource expr
  | .present path => return (← attributeValues resource path).any (·.hasValue)
  | .compare path op literal => evalCompare scope resource path op literal
  | .valuePath path expr => do
    let elements := (← attributeValues resource path).filter (·.isObj)
    elements.anyM fun element => eval (.within scope.schema path) element expr

/-- Whether a resource satisfies a filter under a schema. -/
def holds (filter : Filter) (resource : Json) (schema : Option ResourceSchema) :
    Except Failure Bool :=
  eval (.top schema) resource filter

end Filter

end Scim
