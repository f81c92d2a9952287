import Scim.Proofs.Outcome
import Scim.Proofs.Path.Selecting
import Scim.Proofs.Resource.Ambiguity

/-!
# Other spellings of names

Names and URNs are matched without regard to letter case: those of a filter with the names
of the objects in a resource, and with the names in the schemas.  So a filter holds of a
resource exactly if it holds when any names of both, at any depth, are spelled in another
way.  A resource whose objects have no two names alike and the same resource with other
spellings select values that differ in their spellings only, and no comparison with a
literal looks at the names in a value.
-/

namespace Scim

open Members

variable {name other key : String} {members others resource renamed : Members}
  {value changed literal : Json} {items values : List Json} {schema : ResourceSchema}

/-- Two names that are spellings of one name, or none on both sides. -/
abbrev SameName? : Option String → Option String → Prop :=
  Option.Rel fun name other => sameName name other = true

/-! ## Values -/

/-- Members with the same names under other spellings, in order, and related values. -/
inductive Members.Respelled (related : Json → Json → Prop) : Members → Members → Prop where
  | nil : Respelled related [] []
  | cons {key other : String} {value changed : Json} {rest others : Members}
      (same : sameName key other = true) (values : related value changed)
      (later : Respelled related rest others) :
      Respelled related ((key, value) :: rest) ((other, changed) :: others)

/-- A value whose objects have no two names alike, and the same value with any names of
its objects, at any depth, under other spellings. -/
inductive Json.Respelled : Json → Json → Prop where
  | scalar {value : Json} (single : value.isKey = true) : Respelled value value
  | arr {items others : List Json} (each : List.Forall₂ Respelled items others) :
      Respelled (.arr items) (.arr others)
  | obj {members others : Members} (distinct : Distinct members)
      (each : Members.Respelled Respelled members others) :
      Respelled (.obj members) (.obj others)

namespace Members

/-- Among members of distinct names the first spelling of a name is the only one. -/
theorem attr?_cons_of_distinct {rest : Members} (distinct : Distinct ((key, value) :: rest))
    (name : String) :
    attr? ((key, value) :: rest) name =
      if sameName key name then some value else attr? rest name := by
  cases same : sameName key name with
  | false =>
      apply attr?_congr
      rw [spellings_cons, same, if_neg Bool.false_ne_true]
  | true =>
      have alone : spellings rest name = [] := by
        rw [spellings, List.filter_eq_nil_iff]
        intro member held spelled
        have differ := (List.pairwise_cons.mp distinct).1 member.1 (List.mem_map_of_mem held)
        rw [sameName_congr_right spelled, same] at differ
        cases differ
      rw [← attr?_spellings (sameName_refl name), spellings_cons, same, if_pos rfl, alone]
      by_cases equal : key = name <;> simp [attr?, key?_eq, names, equal, eq_comm, same]

theorem distinct_iff_nodup : Distinct members ↔ ((names members).map Text.lower).Nodup := by
  rw [Distinct, List.Nodup, List.pairwise_map]
  simp only [sameName, beq_eq_false_iff_ne]

variable {related : Json → Json → Prop}

/-- Other spellings of distinct names are distinct. -/
theorem Respelled.distinct (respelled : Respelled related members others)
    (distinct : Distinct members) : Distinct others := by
  have alike : (names others).map Text.lower = (names members).map Text.lower := by
    clear distinct
    induction respelled with
    | nil => rfl
    | cons same _ _ ih => exact congrArg₂ List.cons ((sameName_iff ..).mp same).symm ih
  rw [distinct_iff_nodup] at distinct ⊢
  rwa [alike]

/-- A name and another spelling of it find related values, or nothing. -/
theorem Respelled.attr? (respelled : Respelled related members others)
    (distinct : Distinct members) (same : sameName name other = true) :
    Option.Rel related (attr? members name) (attr? others other) := by
  induction respelled with
  | nil => exact .none
  | @cons key spelled value changed rest others keys values later ih =>
      have tail : Distinct rest := (List.pairwise_cons.mp distinct).2
      have agree : sameName spelled other = sameName key name := by
        rw [← sameName_congr keys, sameName_congr_right same]
      rw [attr?_cons_of_distinct distinct,
        attr?_cons_of_distinct ((Respelled.cons keys values later).distinct distinct), agree]
      cases sameName key name with
      | true => exact .some values
      | false => exact ih tail

end Members

namespace Json

/-! ## The values of a path -/

theorem Respelled.isObj_eq (respelled : value.Respelled changed) :
    changed.isObj = value.isObj := by
  cases respelled <;> rfl

theorem Respelled.isNull_eq (respelled : value.Respelled changed) :
    changed.isNull = value.isNull := by
  cases respelled <;> rfl

theorem Respelled.hasValue_eq (respelled : value.Respelled changed) :
    changed.hasValue = value.hasValue := by
  cases respelled with
  | scalar => rfl
  | arr each => cases each <;> rfl
  | obj _ each => cases each <;> rfl

theorem Respelled.attr (respelled : (Json.obj members).Respelled (.obj others))
    (same : sameName name other = true) :
    (Members.attr members name).Respelled (Members.attr others other) := by
  cases respelled with
  | scalar single => cases single
  | obj distinct each =>
      have found := each.attr? distinct same
      rw [Members.attr, Members.attr]
      generalize Members.attr? members name = first, Members.attr? others other = second at found
      cases found with
      | none => exact .scalar rfl
      | some values => exact values

theorem Respelled.valuesOf (respelled : value.Respelled changed) :
    List.Forall₂ Respelled value.valuesOf changed.valuesOf := by
  cases respelled with
  | scalar single =>
      cases value with
      | null => exact .nil
      | arr | obj => cases single
      | _ => exact .cons (.scalar rfl) .nil
  | arr each =>
      refine List.rel_filter (fun item other spelled => ?_) each
      dsimp only
      rw [spelled.isNull_eq]
  | obj distinct each => exact .cons (.obj distinct each) .nil

theorem Respelled.subValues (respelled : value.Respelled changed)
    (same : sameName name other = true) :
    List.Forall₂ Respelled (subValues name value) (subValues other changed) := by
  cases respelled with
  | scalar single =>
      cases value with
      | obj => cases single
      | _ => exact .nil
  | arr => exact .nil
  | obj distinct each => exact ((Respelled.obj distinct each).attr same).valuesOf

theorem Respelled.valuesAt (respelled : value.Respelled changed) {sub spelled : Option String}
    (same : SameName? sub spelled) :
    List.Forall₂ Respelled (value.valuesAt sub) (changed.valuesAt spelled) := by
  cases same with
  | none => exact respelled.valuesOf
  | some same =>
      cases respelled with
      | scalar single =>
          cases value with
          | arr => cases single
          | _ => exact (Respelled.scalar single).subValues same
      | arr each => exact List.rel_flatMap each fun _ _ item => item.subValues same
      | obj distinct each => exact (Respelled.obj distinct each).subValues same

end Json

/-- A path that is without a URN or under a registered one, and the same path with its names
under other spellings. -/
structure PathOf.Respelled (path other : AttributePath) : Prop where
  uri : SameName? path.uri other.uri
  attr : SameName? path.attr other.attr
  sub : SameName? path.sub other.sub
  registered : ∀ uri, path.uri = some uri → (Schema.find? uri).isSome = true

variable {path spelled : AttributePath}

theorem valuesIn_respelled (resources : (Json.obj members).Respelled (.obj others))
    (paths : path.Respelled spelled) :
    List.Forall₂ Json.Respelled (valuesIn members path) (valuesIn others spelled) := by
  have attrs := paths.attr
  rw [valuesIn, valuesIn]
  generalize path.attr = attr, spelled.attr = attr' at attrs
  cases attrs with
  | none => exact .nil
  | some same => exact (resources.attr same).valuesAt paths.sub

/-- A path finds values wherever it is looked up in an object, and the same ones under
other spellings. -/
theorem attributeValues_respelled (resources : (Json.obj resource).Respelled (.obj renamed))
    (paths : path.Respelled spelled) :
    ∃ values others, attributeValues (.obj resource) path = .ok values ∧
      attributeValues (.obj renamed) spelled = .ok others ∧
      List.Forall₂ Json.Respelled values others := by
  obtain ⟨uri, attr, restriction, sub⟩ := path
  obtain ⟨uri', attr', restriction', sub'⟩ := spelled
  have inside {members others : Members}
      (objects : (Json.obj members).Respelled (.obj others)) :=
    valuesIn_respelled objects paths
  obtain ⟨uris, attrs, -, registered⟩ := paths
  cases uris with
  | none =>
      exact ⟨_, _, attributeValues_core rfl, attributeValues_core rfl, inside resources⟩
  | @some uri uri' same =>
      have found := resources.attr same
      have isObj := found.isObj_eq
      cases object : (Members.attr resource uri).isObj with
      | true =>
          rw [object] at isObj
          obtain ⟨extension, held⟩ := Json.isObj_iff.mp object
          obtain ⟨other, heldToo⟩ := Json.isObj_iff.mp isObj
          rw [held, heldToo] at found
          refine ⟨_, _, attributeValues_object rfl held, attributeValues_object rfl heldToo, ?_⟩
          cases attrs with
          | none => exact .cons found .nil
          | some _ => exact inside found
      | false =>
          rw [object] at isObj
          obtain ⟨part, isPart⟩ := Option.isSome_iff_exists.mp (registered uri rfl)
          have core : Members.isCoreUri resource uri = .ok part.endpoint.isSome := by
            rw [Members.isCoreUri, isPart]
          have coreToo : Members.isCoreUri renamed uri' = .ok part.endpoint.isSome := by
            rw [Members.isCoreUri, ← Schema.find?_congr same, isPart]
          refine ⟨_, _, (attributeValues_other rfl object).trans (congrArg _ core),
            (attributeValues_other rfl isObj).trans (congrArg _ coreToo), ?_⟩
          cases part.endpoint.isSome with
          | true => exact inside resources
          | false => exact .nil

/-! ## Comparisons -/

theorem any_eq_of_forall₂ {α β : Type} {related : α → β → Prop} {first : α → Bool}
    {second : β → Bool} {items : List α} {others : List β}
    (each : List.Forall₂ related items others)
    (same : ∀ item other, related item other → second other = first item) :
    others.any second = items.any first := by
  induction each with
  | nil => rfl
  | cons pair _ ih => rw [List.any_cons, List.any_cons, same _ _ pair, ih]

/-- No comparison with a literal looks at the names in a value. -/
theorem CompareOp.test_respelled (op : CompareOp) (caseExact : Bool)
    (spelled : value.Respelled changed) (single : literal.isKey = true) :
    op.test caseExact changed literal = op.test caseExact value literal := by
  cases spelled with
  | scalar => rfl
  | arr each =>
      cases literal with
      | arr | obj => cases single
      | _ => cases op <;> rfl
  | obj distinct each =>
      cases literal with
      | arr | obj => cases single
      | _ => cases op <;> rfl

/-- The values that a comparison examines are the same ones under other spellings. -/
theorem Filter.examined_respelled {values others : List Json}
    (each : List.Forall₂ Json.Respelled values others) :
    List.Forall₂ Json.Respelled (examined values).1 (examined others).1 ∧
      (examined others).2 = (examined values).2 := by
  have kept : List.Forall₂ Json.Respelled (values.filter (·.hasValue))
      (others.filter (·.hasValue)) := by
    refine List.rel_filter (fun value other spelled => ?_) each
    dsimp only
    rw [spelled.hasValue_eq]
  rw [examined, examined]
  generalize values.filter (·.hasValue) = values, others.filter (·.hasValue) = others at kept
  have empty : others.isEmpty = values.isEmpty := by cases kept <;> rfl
  have objects : others.all (·.isObj) = values.all (·.isObj) := by
    rw [List.all_eq_not_any_not, List.all_eq_not_any_not,
      any_eq_of_forall₂ kept fun value other spelled => congrArg Bool.not spelled.isObj_eq]
  rw [empty, objects]
  split
  · refine ⟨List.rel_flatMap kept fun value other spelled => ?_, rfl⟩
    cases spelled with
    | scalar single =>
        cases value with
        | obj => cases single
        | _ => exact .nil
    | arr => exact .nil
    | @obj members others distinct each =>
        have found := (Json.Respelled.obj distinct each).attr (sameName_refl "value")
        dsimp only
        generalize attr members "value" = inner, attr others "value" = other at found
        cases found with
        | scalar single =>
            cases inner with
            | null => exact .nil
            | _ => exact .cons (.scalar single) .nil
        | arr each => exact .cons (.arr each) .nil
        | obj distinct each => exact .cons (.obj distinct each) .nil
  · exact ⟨kept, rfl⟩

/-! ## Letter case -/

namespace ResourceSchema

variable {sub sub' uri uri' : Option String}

theorem schemaFor?_congr (schema : ResourceSchema) (uris : SameName? uri uri') :
    schema.schemaFor? uri = schema.schemaFor? uri' := by
  cases uris with
  | none => rfl
  | some same =>
      simp only [schemaFor?, sameName_congr same, sameName_congr_right same]

theorem isCaseExact_congr (schema : ResourceSchema) (same : sameName name other = true)
    (subs : SameName? sub sub') (uris : SameName? uri uri') :
    schema.isCaseExact name sub uri = schema.isCaseExact other sub' uri' := by
  have found (part : SchemaDef) : part.lookup? name sub = part.lookup? other sub' := by
    cases subs with
    | none => simp only [SchemaDef.lookup?, SchemaDef.find?, sameName_congr_right same]
    | some sames =>
        simp only [SchemaDef.lookup?, SchemaDef.find?, sameName_congr_right same,
          sameName_congr_right sames]
  simp only [isCaseExact, caseExact, attribute?, schema.schemaFor?_congr uris, found]

end ResourceSchema

namespace Scope

/-- A scope, and the same scope with the attribute before the brackets under another
spelling. -/
structure Respelled (scope other : Scope) : Prop where
  schema : other.schema = scope.schema
  parent : Option.Rel (fun (attr, uri) (attr', uri') =>
    sameName attr attr' = true ∧ SameName? uri uri') scope.parent other.parent

variable {scope other : Scope}

theorem respelled_top (schema : Option ResourceSchema) : (top schema).Respelled (top schema) :=
  ⟨rfl, .none⟩

theorem Respelled.within (scopes : scope.Respelled other) (paths : path.Respelled spelled) :
    (within scope.schema path).Respelled (within other.schema spelled) := by
  refine ⟨scopes.schema, ?_⟩
  have attrs := paths.attr
  rw [Scope.within, Scope.within]
  generalize path.attr = attr, spelled.attr = attr' at attrs
  cases attrs with
  | none => exact .none
  | some same => exact .some ⟨same, paths.uri⟩

theorem Respelled.caseExact (scopes : scope.Respelled other) (paths : path.Respelled spelled)
    (sub : Option String) : other.caseExact spelled sub = scope.caseExact path sub := by
  obtain ⟨schema, parent⟩ := scope
  obtain ⟨schema', parent'⟩ := other
  obtain ⟨schemas, parents⟩ := scopes
  dsimp only at schemas parents
  subst schemas
  cases schema' with
  | none => rfl
  | some schema =>
      cases parents with
      | some parents =>
          exact (schema.isCaseExact_congr parents.1 paths.attr parents.2).symm
      | none =>
          have attrs := paths.attr
          have subs : SameName? (sub <|> path.sub) (sub <|> spelled.sub) := by
            cases sub with
            | none => exact paths.sub
            | some sub => exact .some (sameName_refl sub)
          rw [Scope.caseExact, Scope.caseExact]
          dsimp only
          generalize path.attr = attr, spelled.attr = attr' at attrs
          cases attrs with
          | none => rfl
          | some same => exact (schema.isCaseExact_congr same subs paths.uri).symm

end Scope

/-! ## Filters -/

namespace Filter

/-- A filter of literals and of paths that are without a URN or under registered ones, and
the same filter with any names and URNs under other spellings. -/
inductive Respelled : Filter → Filter → Prop where
  | compare {path other : AttributePath} (paths : path.Respelled other) (op : CompareOp)
      {literal : Json} (single : literal.isKey = true) :
      Respelled (.compare path op literal) (.compare other op literal)
  | present {path other : AttributePath} (paths : path.Respelled other) :
      Respelled (.present path) (.present other)
  | and {left right first second : Filter} (lefts : Respelled left first)
      (rights : Respelled right second) : Respelled (.and left right) (.and first second)
  | or {left right first second : Filter} (lefts : Respelled left first)
      (rights : Respelled right second) : Respelled (.or left right) (.or first second)
  | not {expr other : Filter} (exprs : Respelled expr other) :
      Respelled (.not expr) (.not other)
  | group {expr other : Filter} (exprs : Respelled expr other) :
      Respelled (.group expr) (.group other)
  | valuePath {path other : AttributePath} {expr inner : Filter} (paths : path.Respelled other)
      (exprs : Respelled expr inner) :
      Respelled (.valuePath path expr) (.valuePath other inner)

variable {scope inner : Scope} {filter other : Filter}

theorem evalCompare_respelled (scopes : scope.Respelled inner)
    (resources : (Json.obj resource).Respelled (.obj renamed)) (paths : path.Respelled spelled)
    (op : CompareOp) (single : literal.isKey = true) :
    evalCompare inner (.obj renamed) spelled op literal =
      evalCompare scope (.obj resource) path op literal := by
  obtain ⟨values, others, found, foundToo, each⟩ := attributeValues_respelled resources paths
  obtain ⟨alike, subs⟩ := examined_respelled each
  rw [evalCompare, evalCompare, found, foundToo]
  dsimp only [bind, Except.bind]
  rw [subs]
  generalize (examined values).1 = values, (examined others).1 = others at alike
  have empty : others.isEmpty = values.isEmpty := by cases alike <;> rfl
  have tested (op : CompareOp) (caseExact : Bool) :
      others.any (op.test caseExact · literal) = values.any (op.test caseExact · literal) :=
    any_eq_of_forall₂ alike fun _ _ spelled => op.test_respelled caseExact spelled single
  cases literal with
  | null => rw [empty]
  | arr | obj => cases single
  | _ =>
      dsimp only
      rw [scopes.caseExact paths]
      cases op with
      | ne => exact congrArg (fun found => Except.ok (!found)) (tested .eq _)
      | _ => exact congrArg Except.ok (tested _ _)

theorem eval_respelled (filters : filter.Respelled other) (scopes : scope.Respelled inner)
    (resources : (Json.obj resource).Respelled (.obj renamed)) :
    other.eval inner (.obj renamed) = filter.eval scope (.obj resource) := by
  induction filters generalizing scope inner resource renamed with
  | compare paths op single => exact evalCompare_respelled scopes resources paths op single
  | present paths =>
      obtain ⟨values, others, found, foundToo, each⟩ := attributeValues_respelled resources paths
      rw [eval, eval, found, foundToo]
      exact congrArg Except.ok (any_eq_of_forall₂ each fun _ _ spelled => spelled.hasValue_eq)
  | and _ _ leftIh rightIh => rw [eval, eval, leftIh scopes resources, rightIh scopes resources]
  | or _ _ leftIh rightIh => rw [eval, eval, leftIh scopes resources, rightIh scopes resources]
  | not _ ih => rw [eval, eval, ih scopes resources]
  | group _ ih => rw [eval, eval, ih scopes resources]
  | valuePath paths _ ih =>
      obtain ⟨values, others, found, foundToo, each⟩ := attributeValues_respelled resources paths
      have elements : List.Forall₂ Json.Respelled (values.filter (·.isObj))
          (others.filter (·.isObj)) := by
        refine List.rel_filter (fun value other spelled => ?_) each
        dsimp only
        rw [spelled.isObj_eq]
      rw [eval, eval, found, foundToo]
      refine anyM_eq_of_forall₂ elements fun element held other spelled => ?_
      cases spelled with
      | obj distinct each => exact ih (scopes.within paths) (.obj distinct each)
      | scalar single =>
          cases element with
          | obj => cases single
          | _ => cases (List.mem_filter.mp held).2
      | arr => cases (List.mem_filter.mp held).2

/-- Names are matched without regard to letter case: other spellings of the names and URNs in
a filter, and of the names in a resource, at any depth, change nothing. -/
theorem holds_respelled (filters : filter.Respelled other)
    (resources : (Json.obj resource).Respelled (.obj renamed))
    (schema : Option ResourceSchema) :
    other.holds (.obj renamed) schema = filter.holds (.obj resource) schema :=
  eval_respelled filters (Scope.respelled_top schema) resources

/-- A restricted list and an attribute of an extension are found in capitals too. -/
theorem holds_respelled_capitals :
    let urn := "URN:ietf:params:scim:schemas:EXTENSION:enterprise:2.0:user"
    let filter : Filter := .and
      (.valuePath (.plain "emails") (.compare (.plain "type") .eq (.str "work")))
      (.present ⟨some enterpriseUserUrn, some "manager", none, some "value"⟩)
    let capitals : Filter := .and
      (.valuePath (.plain "EMAILS") (.compare (.plain "Type") .eq (.str "work")))
      (.present ⟨some urn, some "Manager", none, some "VALUE"⟩)
    let resource : Members := [
      ("emails", .arr [.obj [("value", .str "a@b"), ("type", .str "work")]]),
      (enterpriseUserUrn, .obj [("manager", .obj [("value", .str "7")])])]
    let renamed : Members := [
      ("Emails", .arr [.obj [("Value", .str "a@b"), ("TYPE", .str "work")]]),
      (urn, .obj [("MANAGER", .obj [("valuE", .str "7")])])]
    filter.Respelled capitals ∧ (Json.obj resource).Respelled (.obj renamed) ∧
      filter.holds (.obj resource) (some .user) = .ok true ∧
      capitals.holds (.obj renamed) (some .user) = filter.holds (.obj resource) (some .user) := by
  intro urn filter capitals resource renamed
  have urns : sameName enterpriseUserUrn urn = true := by decide +kernel
  have registered : (Schema.find? enterpriseUserUrn).isSome = true :=
    List.find?_isSome.mpr ⟨Schema.enterpriseUser, by simp [Schema.registry], sameName_refl _⟩
  have plain (name other : String) (same : sameName name other = true) :
      (PathOf.plain name : AttributePath).Respelled (.plain other) :=
    ⟨.none, .some same, .none, nofun⟩
  have filters : filter.Respelled capitals := by
    refine .and (.valuePath (plain _ _ (by decide)) (.compare (plain _ _ (by decide)) .eq rfl))
      (.present ⟨.some urns, .some (by decide), .some (by decide), ?_⟩)
    rintro uri ⟨⟩
    exact registered
  have resources : (Json.obj resource).Respelled (.obj renamed) := by
    refine .obj (by decide) (.cons (by decide) (.arr (.cons (.obj (by decide) ?_) .nil))
      (.cons urns (.obj (by decide) (.cons (by decide) (.obj (by decide) ?_) .nil)) .nil))
    · exact .cons (by decide) (.scalar rfl) (.cons (by decide) (.scalar rfl) .nil)
    · exact .cons (by decide) (.scalar rfl) .nil
  exact ⟨filters, resources, by rfl, holds_respelled filters resources (some .user)⟩

end Filter

end Scim
