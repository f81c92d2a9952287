import Scim.Proofs.Filter.Canonical
import Scim.Proofs.Outcome
import Scim.Proofs.Path.Selecting

/-!
# Filters with the URN of the core schema

A path without a URN selects attributes at the top of a resource, and so does the same path
under the URN of the core schema, unless the resource keeps something under this URN.  The
schema describes the attribute alike.  So it makes no difference to a filter whether a path
of it, at any depth, has the URN before it.
-/

namespace Scim

open Members

variable {urn name : String} {members resource : Members} {items : List Json} {value : Json}
  {schema : ResourceSchema}

/-! ## Values without a name -/

namespace Json

mutual

/-- Whether no object in a value has a member under any spelling of a name. -/
def avoids (name : String) : Json → Bool
  | .arr items => avoidsItems name items
  | .obj members => avoidsMembers name members
  | _ => true

/-- Whether each item of an array avoids a name. -/
def avoidsItems (name : String) : List Json → Bool
  | [] => true
  | item :: rest => avoids name item && avoidsItems name rest

/-- Whether some members, and their values, avoid a name. -/
def avoidsMembers (name : String) : List (String × Json) → Bool
  | [] => true
  | (key, value) :: rest => !sameName key name && avoids name value && avoidsMembers name rest

end

theorem avoids_arr_iff :
    avoids name (.arr items) = true ↔ ∀ item ∈ items, item.avoids name = true := by
  rw [avoids]
  induction items with
  | nil => simp [avoidsItems]
  | cons item rest ih => simp [avoidsItems, ih]

theorem avoids_obj_iff :
    avoids name (.obj members) = true ↔
      Lacks members name ∧ ∀ member ∈ members, member.2.avoids name = true := by
  rw [avoids]
  induction members with
  | nil => simp [avoidsMembers, Lacks, names]
  | cons member rest ih =>
      simp only [avoidsMembers, Bool.and_eq_true, ih, Lacks, names, List.map_cons,
        List.forall_mem_cons, Bool.not_eq_true']
      grind

theorem attr_avoids (avoids : avoids name (.obj members) = true) (attr : String) :
    (Members.attr members attr).avoids name = true := by
  have all := (avoids_obj_iff.mp avoids).2
  rw [Members.attr, ← get?_place]
  cases held : Members.get? members (place members attr) with
  | none => rfl
  | some value =>
      exact all (_, value) (mem_of_get? held)

theorem valuesOf_avoids (avoids : value.avoids name = true) :
    ∀ item ∈ value.valuesOf, item.avoids name = true := by
  cases value with
  | arr items =>
      intro item held
      exact avoids_arr_iff.mp avoids item (List.mem_filter.mp held).1
  | null => exact fun _ held => absurd held List.not_mem_nil
  | _ =>
      intro item held
      rw [List.mem_singleton.mp held]
      exact avoids

theorem subValues_avoids (avoids : value.avoids name = true) (sub : String) :
    ∀ item ∈ subValues sub value, item.avoids name = true := by
  cases value with
  | obj members => exact valuesOf_avoids (attr_avoids avoids sub)
  | _ => exact fun _ held => absurd held List.not_mem_nil

theorem valuesAt_avoids (avoids : value.avoids name = true) (sub : Option String) :
    ∀ item ∈ value.valuesAt sub, item.avoids name = true := by
  cases sub with
  | none => exact valuesOf_avoids avoids
  | some sub =>
      cases value with
      | arr items =>
          intro item held
          obtain ⟨element, inItems, there⟩ := List.mem_flatMap.mp held
          exact subValues_avoids (avoids_arr_iff.mp avoids element inItems) sub item there
      | _ => exact subValues_avoids avoids sub

end Json

theorem valuesIn_avoids (avoids : Json.avoids name (.obj members) = true) (path : AttributePath) :
    ∀ item ∈ valuesIn members path, item.avoids name = true := by
  rw [valuesIn]
  cases path.attr with
  | none => exact fun _ held => absurd held List.not_mem_nil
  | some attr => exact Json.valuesAt_avoids (Json.attr_avoids avoids attr) path.sub

/-- The values that a path selects are values of the resource. -/
theorem attributeValues_avoids {path : AttributePath} {values : List Json}
    (avoids : Json.avoids name (.obj resource) = true)
    (selected : attributeValues (.obj resource) path = .ok values) :
    ∀ item ∈ values, item.avoids name = true := by
  cases uriEq : path.uri with
  | none =>
      rw [attributeValues_core uriEq] at selected
      cases selected
      exact valuesIn_avoids avoids path
  | some uri =>
      cases object : (Members.attr resource uri).isObj with
      | true =>
          obtain ⟨extension, held⟩ : ∃ extension, Members.attr resource uri = .obj extension := by
            cases held : Members.attr resource uri with
            | obj extension => exact ⟨extension, rfl⟩
            | _ =>
                rw [held] at object
                cases object
          rw [attributeValues_object uriEq held] at selected
          cases selected
          have own : Json.avoids name (.obj extension) = true := held ▸ Json.attr_avoids avoids uri
          split
          · exact valuesIn_avoids own path
          · exact List.forall_mem_singleton.mpr own
      | false =>
          rw [attributeValues_other uriEq object, map_eq_ok_iff] at selected
          obtain ⟨core, _, rfl⟩ := selected
          split
          · exact valuesIn_avoids avoids path
          · exact fun _ held => absurd held List.not_mem_nil

/-! ## The URN of the core schema -/

namespace ResourceSchema

/-- The URN of the core schema stands for no URN. -/
theorem schemaFor?_urn (schema : ResourceSchema) :
    schema.schemaFor? (some schema.urn) = schema.schemaFor? none := by
  rw [schemaFor?, schemaFor?, if_pos (sameName_refl schema.urn)]

theorem attribute?_urn (schema : ResourceSchema) (name : String) (sub : Option String) :
    schema.attribute? name sub (some schema.urn) = schema.attribute? name sub none := by
  rw [attribute?, attribute?, schemaFor?_urn]

theorem isCaseExact_urn (schema : ResourceSchema) (name : String) (sub : Option String) :
    schema.isCaseExact name sub (some schema.urn) = schema.isCaseExact name sub none := by
  rw [isCaseExact, isCaseExact, caseExact, caseExact, attribute?_urn]

theorem isFixed_urn (schema : ResourceSchema) (name : String) (sub : Option String) :
    schema.isFixed name sub (some schema.urn) = schema.isFixed name sub none := by
  rw [isFixed, isFixed, mutability, mutability, attribute?_urn]

end ResourceSchema

/-- A path, and the same path or the path under a URN, if it has none. -/
inductive PathOf.Prefixed {φ : Type} (urn : String) : PathOf φ → PathOf φ → Prop where
  | same (path : PathOf φ) : Prefixed urn path path
  | under {path : PathOf φ} (noUri : path.uri = none) :
      Prefixed urn path { path with uri := some urn }

/-- A filter, and the same filter with a URN before some of its paths, in brackets too. -/
inductive Filter.Prefixed (urn : String) : Filter → Filter → Prop where
  | compare {path other : AttributePath} (paths : path.Prefixed urn other) (op : CompareOp)
      (value : Json) : Prefixed urn (.compare path op value) (.compare other op value)
  | present {path other : AttributePath} (paths : path.Prefixed urn other) :
      Prefixed urn (.present path) (.present other)
  | and {left right first second : Filter} (lefts : Prefixed urn left first)
      (rights : Prefixed urn right second) : Prefixed urn (.and left right) (.and first second)
  | or {left right first second : Filter} (lefts : Prefixed urn left first)
      (rights : Prefixed urn right second) : Prefixed urn (.or left right) (.or first second)
  | not {expr other : Filter} (exprs : Prefixed urn expr other) :
      Prefixed urn (.not expr) (.not other)
  | group {expr other : Filter} (exprs : Prefixed urn expr other) :
      Prefixed urn (.group expr) (.group other)
  | valuePath {path other : AttributePath} {expr inner : Filter}
      (paths : path.Prefixed urn other) (exprs : Prefixed urn expr inner) :
      Prefixed urn (.valuePath path expr) (.valuePath other inner)

/-! ## Scopes -/

/-- Two scopes in which letter case matters for the same paths. -/
structure Scope.Alike (scope other : Scope) : Prop where
  schema : scope.schema = other.schema
  caseExact : ∀ (path : AttributePath) (sub : Option String),
    scope.caseExact path sub = other.caseExact path sub

namespace Filter

variable {scope other : Scope}

/-- What a scope says on letter case is all that a filter asks of it. -/
theorem eval_alike (alike : scope.Alike other) (resource : Json) (filter : Filter) :
    filter.eval scope resource = filter.eval other resource := by
  induction filter generalizing scope other resource with
  | compare path op value =>
      rw [eval, eval, evalCompare, evalCompare]
      simp only [alike.caseExact]
  | present path => rfl
  | and left right leftIh rightIh => rw [eval, eval, leftIh alike, rightIh alike]
  | or left right leftIh rightIh => rw [eval, eval, leftIh alike, rightIh alike]
  | not expr ih => rw [eval, eval, ih alike]
  | group expr ih => rw [eval, eval, ih alike]
  | valuePath path expr ih => rw [eval, eval, alike.schema]

end Filter

/-- The values of a path under the URN of a registered core schema are those at the top of a
resource that keeps nothing under the URN. -/
theorem attributeValues_urn {path : AttributePath} (noUri : path.uri = none)
    (registered : (Schema.find? urn).map (·.endpoint.isSome) = some true) (lacks : Lacks resource urn) :
    attributeValues (.obj resource) { path with uri := some urn } =
      attributeValues (.obj resource) path := by
  have core : Members.isCoreUri resource urn = .ok true := by
    obtain ⟨part, found, isCore⟩ := Option.map_eq_some_iff.mp registered
    rw [Members.isCoreUri, found]
    exact congrArg Except.ok isCore
  rw [attributeValues_other rfl (by rw [lacks.attr_eq]; rfl), core, attributeValues_core noUri]
  rfl

namespace Scope

/-- In brackets, a path and the path under the URN of the core schema are one. -/
theorem alike_within {path other : AttributePath} (paths : path.Prefixed schema.urn other) :
    (within (some schema) other).Alike (within (some schema) path) := by
  refine ⟨rfl, fun inner sub => ?_⟩
  cases paths with
  | same => rfl
  | under noUri =>
      rw [caseExact, caseExact, within, within, noUri]
      cases path.attr with
      | none => rfl
      | some attr => exact schema.isCaseExact_urn attr inner.attr

theorem caseExact_prefixed {scope : Scope} {path other : AttributePath}
    (under : scope.schema = some schema) (paths : path.Prefixed schema.urn other)
    (sub : Option String) : scope.caseExact other sub = scope.caseExact path sub := by
  cases paths with
  | same => rfl
  | under noUri =>
      rw [caseExact, caseExact, under]
      dsimp only
      cases scope.parent with
      | some parent => rfl
      | none =>
          cases path.attr with
          | none => rfl
          | some attr =>
              rw [noUri]
              exact schema.isCaseExact_urn attr _

end Scope

namespace Filter

variable {scope : Scope}

/-- A filter is true where the filter with the URN of the core schema before paths of it is, and
fails where it fails. -/
theorem eval_prefixed {filter other : Filter} (filters : filter.Prefixed schema.urn other)
    (registered : (Schema.find? schema.urn).map (·.endpoint.isSome) = some true)
    (under : scope.schema = some schema)
    (avoids : Json.avoids schema.urn (.obj resource) = true) :
    other.eval scope (.obj resource) = filter.eval scope (.obj resource) := by
  have values {path other : AttributePath} (paths : path.Prefixed schema.urn other)
      {resource : Members} (avoids : Json.avoids schema.urn (.obj resource) = true) :
      attributeValues (.obj resource) other = attributeValues (.obj resource) path := by
    cases paths with
    | same => rfl
    | under noUri => exact attributeValues_urn noUri registered (Json.avoids_obj_iff.mp avoids).1
  induction filters generalizing scope resource with
  | compare paths op value =>
      rw [eval, eval, evalCompare, evalCompare, values paths avoids]
      simp only [Scope.caseExact_prefixed under paths]
  | present paths => rw [eval, eval, values paths avoids]
  | and _ _ leftIh rightIh => rw [eval, eval, leftIh under avoids, rightIh under avoids]
  | or _ _ leftIh rightIh => rw [eval, eval, leftIh under avoids, rightIh under avoids]
  | not _ ih => rw [eval, eval, ih under avoids]
  | group _ ih => rw [eval, eval, ih under avoids]
  | @valuePath path other expr inner paths _ ih =>
      rw [eval, eval, values paths avoids]
      cases selected : attributeValues (.obj resource) path with
      | error failure => rfl
      | ok elements =>
          refine anyM_congr fun element held => ?_
          obtain ⟨inElements, isObj⟩ := List.mem_filter.mp held
          obtain ⟨members, rfl⟩ := Json.isObj_iff.mp isObj
          rw [under, ih rfl (attributeValues_avoids avoids selected _ inElements)]
          exact eval_alike (Scope.alike_within paths) _ _

end Filter

end Scim
