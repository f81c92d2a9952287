import Scim.Proofs.Patch.Homes

/-!
# The values that a path selects

Two look-ups find the values of a path in a resource: a change goes by the slots that hold
them, and filters and sorts read them off.  The first one tells the core schema from its
extensions by the schema, the second one by the objects that are there, the registered
schemas and the URN that is declared first.  For a path without a restriction they select
the same as far as both tell the same home, or what they tell apart holds nothing.
-/

namespace Scim

open Members

variable {schema : ResourceSchema} {resource members : Members} {path : AttributePath}
  {attr key sub uri : String} {home : Home} {items : List Json} {value : Json}

/-! ## Values of sub-attributes -/

theorem subValues_of_not_hasSub (without : hasSub sub value = false) :
    Json.subValues sub value = [] := by
  cases value with
  | obj element =>
      rw [hasSub] at without
      rw [Json.subValues]
      cases held : Members.attr element sub with
      | null => rfl
      | _ =>
          rw [held] at without
          cases without
  | _ => rfl

/-- The slots of a sub-attribute in the elements of a list hold its values, in order. -/
theorem flatMap_indexesWithSub (sub : String) (before items : List Json) :
    (indexesWithSub sub before.length items).flatMap
        (fun index => Json.subValues sub ((before ++ items)[index]?.getD .null)) =
      items.flatMap (Json.subValues sub) := by
  induction items generalizing before with
  | nil => rfl
  | cons item rest ih =>
      have later := ih (before ++ [item])
      rw [List.length_append, List.length_singleton, List.append_assoc,
        List.singleton_append] at later
      rw [indexesWithSub, List.flatMap_cons]
      split
      · rw [List.flatMap_cons, later]
        simp
      · next without =>
        rw [later, subValues_of_not_hasSub (Bool.eq_false_iff.mpr without), List.nil_append]

/-! ## The slots of a path -/

/-- The values that a path selects among the attributes of an object. -/
def valuesIn (members : Members) (path : AttributePath) : List Json :=
  match path.attr with
  | none => []
  | some attr => (Members.attr members attr).valuesAt path.sub

theorem valuesIn_of_none (whole : path.attr = none) : valuesIn members path = [] := by
  rw [valuesIn, whole]

theorem get_sub (location : Location) (subEq : location.sub = some sub) (resource : Members) :
    (location.get resource).valuesOf = Json.subValues sub (location.holder resource) := by
  rw [Location.get, subEq]
  cases location.holder resource <;> rfl

/-- The slots of a path hold the values that it selects in its home. -/
theorem locationsUnder_values (stored : Members.attr (home.members resource) key = value)
    (unrestricted : path.restriction = none) (schema : Option ResourceSchema) :
    ∃ locations, locationsUnder home key value path schema = .ok locations ∧
      locations.flatMap (fun location => (location.get resource).valuesOf) =
        value.valuesAt path.sub := by
  unfold locationsUnder
  rw [unrestricted]
  cases path.sub with
  | none =>
      refine ⟨_, rfl, ?_⟩
      simp only [List.flatMap_singleton, Location.get, Location.holder, stored]
      rfl
  | some sub =>
      cases value with
      | arr items =>
          refine ⟨_, rfl, ?_⟩
          rw [List.flatMap_map]
          simp only [get_sub ⟨home, key, some _, some sub⟩ rfl, Location.holder, stored]
          exact flatMap_indexesWithSub sub [] items
      | _ =>
          refine ⟨_, rfl, ?_⟩
          dsimp only [Json.valuesAt]
          split
          · simp only [List.flatMap_singleton, get_sub ⟨home, key, none, some sub⟩ rfl,
              Location.holder, stored]
          · next without =>
            exact (subValues_of_not_hasSub (Bool.eq_false_iff.mpr without)).symm

/-- The attribute of a path is found in its home, if the home is there. -/
theorem resolve_attr (found : homeFor resource path (some schema) = .ok (some home))
    (attrEq : path.attr = some attr) (unrestricted : path.restriction = none) :
    ∃ locations, resolve resource path (some schema) = .ok locations ∧
      locations.flatMap (fun location => (location.get resource).valuesOf) =
        (Members.attr (home.members resource) attr).valuesAt path.sub := by
  have nothing : Json.valuesAt .null path.sub = [] := by cases path.sub <;> rfl
  unfold resolve
  rw [found, attrEq]
  dsimp only [bind, Except.bind]
  cases keyEq : key? (home.members resource) attr with
  | none =>
      refine ⟨[], rfl, ?_⟩
      rw [Members.attr, attr?, keyEq]
      exact nothing.symm
  | some key =>
      have same : (get? (home.members resource) key).getD .null =
          Members.attr (home.members resource) attr := by
        rw [Members.attr, attr?, keyEq, Option.bind_some]
      have stored : Members.attr (home.members resource) key =
          Members.attr (home.members resource) attr := by
        rw [← same, Members.attr, attr?, key?_of_mem (key?_eq_some keyEq).1, Option.bind_some]
      dsimp only
      rw [same]
      cases held : Members.attr (home.members resource) attr with
      | null => exact ⟨[], rfl, nothing.symm⟩
      | _ => exact locationsUnder_values (stored.trans held) unrestricted (some schema)

/-- A path that names no attribute has the slot of its URN, if its home is there. -/
theorem resolve_whole (found : homeFor resource path (some schema) = .ok (some home))
    (whole : path.attr = none) :
    ∃ locations, resolve resource path (some schema) = .ok locations ∧
      locations.flatMap (fun location => (location.get resource).valuesOf) =
        (Members.attr resource (path.uri.getD "")).valuesOf := by
  unfold resolve
  rw [found, whole]
  dsimp only [bind, Except.bind]
  cases keyEq : key? resource (path.uri.getD "") with
  | none =>
      refine ⟨[], rfl, ?_⟩
      rw [Members.attr, attr?, keyEq]
      rfl
  | some key =>
      have stored : Members.attr resource key = Members.attr resource (path.uri.getD "") := by
        rw [Members.attr, Members.attr, attr?, attr?, key?_of_mem (key?_eq_some keyEq).1, keyEq]
      refine ⟨[⟨.core, key, none, none⟩], rfl, ?_⟩
      simp only [List.flatMap_singleton, Location.get, Location.holder, Home.members, stored]

/-- The home of a path whose URN the schema knows: the resource itself for the URN of the core
schema, and else the object that is kept under the URN. -/
theorem homeFor_known (resource : Members) (uriEq : path.uri = some uri)
    (known : schema.knowsUri uri = true) :
    homeFor resource path (some schema) =
      .ok (if sameName schema.urn uri then some .core
        else if (Members.attr resource uri).isObj then some (.extension (place resource uri))
        else none) := by
  have accepted : checkUri resource uri (some schema) = .ok () := by
    rw [checkUri, Option.any_some, known]
    rfl
  exact homeFor_of_checkUri uriEq accepted

/-- The values of the slots that are found in a home. -/
theorem resolveValues_home (found : homeFor resource path (some schema) = .ok (some home))
    (unrestricted : path.restriction = none) :
    resolveValues (.obj resource) path (some schema) =
      .ok (if path.attr.isSome then valuesIn (home.members resource) path
        else (Members.attr resource (path.uri.getD "")).valuesOf) := by
  have whole (locations : List Location)
      (resolved : resolve resource path (some schema) = .ok locations) :
      resolveValues (.obj resource) path (some schema) =
        .ok (locations.flatMap fun location => (location.get resource).valuesOf) := by
    have same : (Json.obj resource).resolve path (some schema) = .ok locations := resolved
    rw [resolveValues, same]
    rfl
  rw [valuesIn]
  cases attrEq : path.attr with
  | none =>
      obtain ⟨locations, resolved, values⟩ := resolve_whole found attrEq
      rw [whole locations resolved, values]
      rfl
  | some attr =>
      obtain ⟨locations, resolved, values⟩ := resolve_attr found attrEq unrestricted
      rw [whole locations resolved, values]
      rfl

theorem resolveValues_absent (found : homeFor resource path (some schema) = .ok none) :
    resolveValues (.obj resource) path (some schema) = .ok [] := by
  have same : (Json.obj resource).resolve path (some schema) = .ok [] := by
    rw [Json.resolve, resolve, found]
    rfl
  rw [resolveValues, same]
  rfl

/-- Under a URN with an object, a path of an extension has its slots in the object. -/
theorem resolveValues_object {object : Members} (uriEq : path.uri = some uri)
    (known : schema.knowsUri uri = true) (held : Members.attr resource uri = .obj object)
    (unrestricted : path.restriction = none) :
    resolveValues (.obj resource) path (some schema) =
      .ok (if path.attr.isSome then
          valuesIn (if sameName schema.urn uri then resource else object) path
        else [.obj object]) := by
  have found := homeFor_known resource uriEq known
  have there : (Members.attr resource uri).isObj = true := by rw [held, Json.isObj]
  rw [there, if_pos rfl] at found
  cases same : sameName schema.urn uri with
  | true =>
      rw [same, if_pos rfl] at found
      rw [resolveValues_home found unrestricted, uriEq, Option.getD_some, held]
      rfl
  | false =>
      rw [same, if_neg Bool.false_ne_true] at found
      have own : Home.members (.extension (place resource uri)) resource = object := by
        rw [Home.members, get?_place, attr?_eq_some_of_attr held rfl]
      rw [resolveValues_home found unrestricted, own, uriEq, Option.getD_some, held]
      rfl

/-- Under any other URN a path has its slots at the top, if it is the URN of the core schema. -/
theorem resolveValues_other (uriEq : path.uri = some uri) (known : schema.knowsUri uri = true)
    (notObject : (Members.attr resource uri).isObj = false)
    (unrestricted : path.restriction = none) :
    resolveValues (.obj resource) path (some schema) =
      .ok (if sameName schema.urn uri then
          if path.attr.isSome then valuesIn resource path else (Members.attr resource uri).valuesOf
        else []) := by
  have found := homeFor_known resource uriEq known
  rw [notObject, if_neg Bool.false_ne_true] at found
  cases same : sameName schema.urn uri with
  | true =>
      rw [same, if_pos rfl] at found
      rw [resolveValues_home found unrestricted, uriEq, Option.getD_some]
      rfl
  | false =>
      rw [same, if_neg Bool.false_ne_true] at found
      rw [resolveValues_absent found]
      rfl

/-! ## Agreement -/

/-- Whether the look-up through slots and the one of filters come to the same values.  Under a
URN with an object, both take its attributes, unless the URN is that of the core schema.
Under any other URN they have to tell the same home, or there are no values either way. -/
def SelectsAlike (schema : ResourceSchema) (resource : Members) (path : AttributePath) : Prop :=
  match path.uri with
  | none => path.attr = none → (Members.attr resource "").valuesOf = []
  | some uri =>
    match Members.attr resource uri with
    | .obj object =>
      sameName schema.urn uri = true → path.attr.isSome = true →
        valuesIn resource path = valuesIn object path
    | other =>
      ∃ core, Members.isCoreUri resource uri = .ok core ∧
        if path.attr.isSome then core = sameName schema.urn uri ∨ valuesIn resource path = []
        else sameName schema.urn uri = true → other.valuesOf = []

theorem attributeValues_core (noUri : path.uri = none) :
    attributeValues (.obj resource) path = .ok (valuesIn resource path) := by
  rw [attributeValues, noUri, valuesIn]
  cases path.attr <;> rfl

theorem attributeValues_object {object : Members} (uriEq : path.uri = some uri)
    (held : Members.attr resource uri = .obj object) :
    attributeValues (.obj resource) path =
      .ok (if path.attr.isSome then valuesIn object path else [.obj object]) := by
  have looked : (Json.obj resource).attrOf uri = .ok (.obj object) := congrArg Except.ok held
  rw [attributeValues, uriEq, valuesIn]
  dsimp only
  rw [looked]
  cases path.attr <;> rfl

theorem attributeValues_other (uriEq : path.uri = some uri)
    (notObject : (Members.attr resource uri).isObj = false) :
    attributeValues (.obj resource) path =
      (Members.isCoreUri resource uri).map fun core =>
        if core then valuesIn resource path else [] := by
  have looked : (Json.obj resource).attrOf uri = .ok (Members.attr resource uri) := rfl
  have asked : (Json.obj resource).isCoreUri uri = Members.isCoreUri resource uri := rfl
  rw [attributeValues, uriEq]
  dsimp only
  rw [looked, asked]
  dsimp only [bind, Except.bind]
  split
  · next object held =>
    rw [held] at notObject
    cases notObject
  · rcases Members.isCoreUri resource uri with failure | (_ | _)
    · rfl
    · rfl
    · rw [valuesIn]
      cases path.attr <;> rfl

/-- For a path without a restriction whose URN the schema knows, both look-ups have a result and
have the same one exactly if they come to the same values. -/
theorem resolveValues_eq_attributeValues_iff (unrestricted : path.restriction = none)
    (known : ∀ uri, path.uri = some uri → schema.knowsUri uri = true) :
    (∃ values, resolveValues (.obj resource) path (some schema) = .ok values ∧
        attributeValues (.obj resource) path = .ok values) ↔
      SelectsAlike schema resource path := by
  have agree {values : List Json}
      (resolved : resolveValues (.obj resource) path (some schema) = .ok values) :
      (∃ values, resolveValues (.obj resource) path (some schema) = .ok values ∧
        attributeValues (.obj resource) path = .ok values) ↔
      attributeValues (.obj resource) path = .ok values := by
    rw [resolved]
    simp
  unfold SelectsAlike
  cases uriEq : path.uri with
  | none =>
      have found : homeFor resource path (some schema) = .ok (some .core) := by
        rw [homeFor, uriEq]
        rfl
      rw [agree (resolveValues_home found unrestricted), attributeValues_core uriEq, uriEq]
      cases attrEq : path.attr with
      | none =>
          rw [valuesIn_of_none attrEq]
          exact ⟨fun same _ => (Except.ok.inj same).symm, fun empty => congrArg _ (empty rfl).symm⟩
      | some attr => exact ⟨fun _ none => absurd none (Option.some_ne_none attr), fun _ => rfl⟩
  | some uri =>
      have knows := known uri uriEq
      dsimp only
      split
      · next object held =>
        rw [agree (resolveValues_object uriEq knows held unrestricted),
          attributeValues_object uriEq held]
        cases sameName schema.urn uri <;> cases path.attr.isSome <;> simp [eq_comm]
      · next other notObject =>
        have absent : (Members.attr resource uri).isObj = false := by
          cases held : Members.attr resource uri with
          | obj object => exact absurd held (notObject object)
          | _ => rfl
        rw [agree (resolveValues_other uriEq knows absent unrestricted),
          attributeValues_other uriEq absent, map_eq_ok_iff]
        refine exists_congr fun core => and_congr_right fun _ => ?_
        cases attrEq : path.attr with
        | none =>
            rw [valuesIn_of_none attrEq, ite_self]
            cases sameName schema.urn uri <;> simp [@eq_comm _ []]
        | some attr => cases sameName schema.urn uri <;> cases core <;> simp [@eq_comm _ []]

/-- An attribute of an extension that is declared before the core schema. -/
theorem resolveValues_eq_attributeValues_department :
    let resource : Members := [
      ("schemas", .arr [.str enterpriseUserUrn, .str userUrn]),
      (enterpriseUserUrn, .obj [("department", .str "sales")])]
    let path : AttributePath := ⟨some enterpriseUserUrn, some "department", none, none⟩
    path.restriction = none ∧
      (∀ uri, path.uri = some uri → ResourceSchema.user.knowsUri uri = true) ∧
      ∃ values, resolveValues (.obj resource) path (some .user) = .ok values ∧
        attributeValues (.obj resource) path = .ok values := by
  intro resource path
  have known : ∀ uri, path.uri = some uri → ResourceSchema.user.knowsUri uri = true := by
    rintro _ ⟨⟩
    decide +kernel
  have alike : SelectsAlike .user resource path := by
    intro core
    exact absurd core (by decide +kernel)
  exact ⟨rfl, known, (resolveValues_eq_attributeValues_iff rfl known).mpr alike⟩

/-- Of a resource that declares an extension first, filters read the attributes of the resource
itself for those of the extension. -/
theorem not_resolveValues_eq_attributeValues_badge :
    let badge : SchemaDef := ⟨"urn:acme:badge", "Badge", none, [⟨⟨"number", []⟩, none⟩]⟩
    let schema : ResourceSchema := ⟨Schema.user, [badge]⟩
    let resource : Members := [
      ("schemas", .arr [.str "urn:acme:badge", .str userUrn]), ("number", .str "7")]
    let path : AttributePath := ⟨some "urn:acme:badge", some "number", none, none⟩
    schema.knowsUri "urn:acme:badge" = true ∧
      ¬ ∃ values, resolveValues (.obj resource) path (some schema) = .ok values ∧
        attributeValues (.obj resource) path = .ok values := by
  intro badge schema resource path
  have slots : (resolveValues (.obj resource) path (some schema)).toOption.map List.length =
      some 0 := by decide +kernel
  have read : (attributeValues (.obj resource) path).toOption.map List.length = some 1 := by
    decide +kernel
  refine ⟨by decide +kernel, ?_⟩
  rintro ⟨values, resolved, selected⟩
  rw [resolved] at slots
  rw [selected] at read
  cases slots.symm.trans read

/-- Under a schema all of whose URNs are registered for what they are in it, as the standard ones
are, a resource with nothing under the URN of its core schema has the same values either way. -/
theorem SelectsAlike.of_registered {part : SchemaDef} (uriEq : path.uri = some uri)
    (registered : Schema.find? uri = some part)
    (kind : part.endpoint.isSome = sameName schema.urn uri)
    (bare : sameName schema.urn uri = true → Members.attr resource uri = .null) :
    SelectsAlike schema resource path := by
  have told : Members.isCoreUri resource uri = .ok part.endpoint.isSome := by
    rw [Members.isCoreUri, registered]
  unfold SelectsAlike
  rw [uriEq]
  dsimp only
  split
  · next object held =>
    intro core
    rw [bare core] at held
    cases held
  · refine ⟨_, told, ?_⟩
    split
    · exact .inl kind
    · intro core
      rw [bare core]
      rfl

end Scim
