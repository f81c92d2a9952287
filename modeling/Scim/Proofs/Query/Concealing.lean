import Scim.Proofs.Query.Leftovers

/-!
# What projections conceal

A projection drops the attributes that are never returned, in turn, from what a request
leaves of the resource.  What was dropped does not come back, as from then on there is only
less.  But an attribute of an extension whose URN is taken for that of the core schema is
looked for at the top, and the object under the URN stays as it is.
-/

namespace Scim

open Members

variable {resource source target after members object : Members} {value : Json}
  {key uri name : String}

namespace Members

/-- Whether a resource has no attribute of a name, at the top or, with a URN, in an object under
the URN. -/
def Conceals (shown : Members) (uri : Option String) (name : String) : Prop :=
  match uri with
  | none => Lacks shown name
  | some uri =>
    ∀ key object, sameName key uri = true → get? shown key = some (.obj object) → Lacks object name

/-- What is concealed stays so when there is less. -/
theorem Conceals.of_leftOf {uri : Option String} (conceals : Conceals source uri name)
    (left : LeftOf target source) : Conceals target uri name := by
  cases uri with
  | none => exact left.lacks conceals
  | some uri =>
      intro key object same held
      obtain ⟨_, heldWhole, less⟩ := left.values key _ held
      obtain ⟨whole, rfl, fewer⟩ := less.names object rfl
      exact fun other inObject => conceals key whole same heldWhole other (fewer.subset inObject)

end Members

namespace Projection

/-- The path of a top-level attribute, or of one in an extension. -/
abbrev attrPath (uri : Option String) (name : String) : AttributePath := ⟨uri, some name, none, none⟩

/-- An attribute that is dropped is concealed, unless its URN is taken for that of the core
schema. -/
theorem conceals_dropPath {uri : Option String} (unambiguous : (Json.obj resource).unambiguous = true)
    (left : target.LeftOf resource)
    (extension : ∀ urn, uri = some urn → isCoreUri resource urn ≠ .ok true)
    (dropped : dropPath target (attrPath uri name) = .ok after) : after.Conceals uri name := by
  obtain ⟨distinct, all⟩ := Json.unambiguous_obj_iff.mp unambiguous
  have single := left.distinct distinct
  obtain ⟨found, looked, rest⟩ := bind_eq_ok_iff.mp dropped
  cases uri with
  | none =>
      cases looked
      cases rest
      exact single.lacks_delAttr name
  | some uri =>
      obtain ⟨core, coreEq, looked⟩ := bind_eq_ok_iff.mp looked
      cases core with
      | true => exact absurd (left.isCoreUri coreEq) (extension uri rfl)
      | false =>
          intro key object same held
          obtain ⟨_, there, less⟩ := (leftOf_dropPath single dropped).values key _ held
          obtain ⟨members, rfl, _⟩ := less.names object rfl
          obtain ⟨_, whole, lessThere⟩ := left.values key _ there
          obtain ⟨source, rfl, fewer⟩ := lessThere.names members rfl
          have distinctThere : Distinct members :=
            (Json.unambiguous_obj_iff.mp (AllUnambiguous.get? all whole)).1.of_subperm fewer
          have inTarget : key ∈ names target := by
            rw [← get?_isSome_iff, there]
            rfl
          rw [single.key?_eq inTarget same] at looked
          dsimp only [Bool.false_eq_true, if_false] at looked
          rw [there] at looked
          cases looked
          have set : after = Members.set target key (.obj (delAttr members name)) := by
            cases rest
            simp only [updateObject, there]
            rfl
          rw [set, get?_set, if_pos rfl] at held
          cases held
          exact distinctThere.lacks_delAttr name

/-- Drops attributes in turn. -/
def dropAll (target : Members) (hidden : List (Option String × String)) : Except Failure Members :=
  hidden.foldlM (fun result (uri, name) => dropPath result (attrPath uri name)) target

theorem dropAll_cons_eq_ok {first : Option String × String} {rest : List (Option String × String)}
    (dropped : dropAll target (first :: rest) = .ok after) :
    ∃ next, dropPath target (attrPath first.1 first.2) = .ok next ∧ dropAll next rest = .ok after := by
  rw [dropAll, List.foldlM_cons] at dropped
  exact bind_eq_ok_iff.mp dropped

theorem leftOf_dropAll {hidden : List (Option String × String)} (distinct : Distinct target)
    (dropped : dropAll target hidden = .ok after) : after.LeftOf target := by
  refine foldlM_induction (LeftOf · target) (fun value item next left step => ?_) (.refl target)
    dropped
  exact (leftOf_dropPath (left.distinct distinct) step).trans left

/-- Of the attributes that are dropped in turn, those are concealed in the end whose URN is not
taken for that of the core schema. -/
theorem conceals_dropAll (unambiguous : (Json.obj resource).unambiguous = true)
    {hidden : List (Option String × String)} (left : target.LeftOf resource)
    (dropped : dropAll target hidden = .ok after) {uri : Option String}
    (isHidden : (uri, name) ∈ hidden)
    (extension : ∀ urn, uri = some urn → isCoreUri resource urn ≠ .ok true) :
    after.Conceals uri name := by
  have distinct := (Json.unambiguous_obj_iff.mp unambiguous).1
  induction hidden generalizing target with
  | nil => cases isHidden
  | cons first rest ih =>
      obtain ⟨next, step, later⟩ := dropAll_cons_eq_ok dropped
      have less := (leftOf_dropPath (left.distinct distinct) step).trans left
      cases List.mem_cons.mp isHidden with
      | inl equal =>
          subst equal
          have concealed := conceals_dropPath unambiguous left extension step
          exact concealed.of_leftOf (leftOf_dropAll (less.distinct distinct) later)
      | inr inRest => exact ih less later inRest

/-- Dropping an attribute changes nothing under a URN that is taken for that of the core schema
still. -/
theorem get?_dropPath_of_core {other : Option String} (distinct : Distinct target)
    (dropped : dropPath target (attrPath other name) = .ok after)
    (core : isCoreUri after uri = .ok true) (same : sameName key uri = true)
    (held : get? after key = some value) : get? target key = some value := by
  have core := (leftOf_dropPath distinct dropped).isCoreUri core
  have deleted (is : after = delAttr target name) : get? target key = some value := by
    rw [is, delAttr_eq_erase, get?_erase] at held
    split at held
    · cases held
    · exact held
  obtain ⟨found, looked, rest⟩ := bind_eq_ok_iff.mp dropped
  cases other with
  | none =>
      cases looked
      cases rest
      exact deleted rfl
  | some urn =>
      obtain ⟨isCore, coreEq, looked⟩ := bind_eq_ok_iff.mp looked
      cases isCore with
      | true =>
          cases looked
          cases rest
          exact deleted rfl
      | false =>
          rw [if_neg Bool.false_ne_true] at looked
          split at looked
          · cases looked
            cases rest
            exact held
          · next place found =>
            split at looked
            · next object there =>
              have apart : key ≠ place := by
                rintro rfl
                have alike : sameName uri urn = true := by
                  rw [← sameName_congr same]
                  exact (key?_eq_some found).2
                rw [isCoreUri_congr alike core] at coreEq
                cases coreEq
              cases looked
              have set : after = Members.set target place (.obj (delAttr object name)) := by
                cases rest
                simp only [updateObject, there]
                rfl
              rw [set, get?_set, if_neg apart] at held
              exact held
            · cases looked
              cases rest
              exact held

/-- Whatever is under a URN that is taken for that of the core schema to the end was there before:
attributes that are never returned are not dropped from it. -/
theorem get?_dropAll_of_core {hidden : List (Option String × String)} (distinct : Distinct target)
    (dropped : dropAll target hidden = .ok after) (core : isCoreUri after uri = .ok true)
    (same : sameName key uri = true) (held : get? after key = some value) :
    get? target key = some value := by
  induction hidden generalizing target with
  | nil =>
      cases dropped
      exact held
  | cons first rest ih =>
      obtain ⟨next, step, later⟩ := dropAll_cons_eq_ok dropped
      have single := (leftOf_dropPath distinct step).distinct distinct
      have coreThen := (leftOf_dropAll single later).isCoreUri core
      exact get?_dropPath_of_core distinct step coreThen same (ih single later)

end Projection

/-- A projection of a resource with unambiguous names conceals what is never returned exactly if it
does so under the URNs of extensions that are taken for that of the core schema: everything else
that is never returned is dropped, whatever is asked for. -/
theorem conceals_project_iff {schema : ResourceSchema} {attributes excluded : List String}
    {result : Members} (unambiguous : (Json.obj resource).unambiguous = true)
    (projected : project resource attributes excluded (some schema) = .ok result) :
    (∀ uri name, (uri, name) ∈ schema.attributesReturned "never" → result.Conceals uri name) ↔
      ∀ urn name, (some urn, name) ∈ schema.attributesReturned "never" →
        isCoreUri resource urn = .ok true → result.Conceals (some urn) name := by
  rw [Projection.project_eq] at projected
  obtain ⟨target, requested, dropped⟩ := bind_eq_ok_iff.mp projected
  have left := Projection.leftOf_requested unambiguous requested
  constructor
  · intro all urn name hidden _
    exact all (some urn) name hidden
  · intro misplaced uri name hidden
    by_cases core : ∃ urn, uri = some urn ∧ isCoreUri resource urn = .ok true
    · obtain ⟨urn, rfl, isCore⟩ := core
      exact misplaced urn name hidden isCore
    · refine Projection.conceals_dropAll unambiguous left dropped hidden fun urn is isCore => ?_
      exact core ⟨urn, is, isCore⟩

/-- A password is not shown even if it is asked for. -/
theorem conceals_project_password :
    let resource : Members := [("schemas", .arr [.str enterpriseUserUrn, .str userUrn]),
      ("id", .str "1"), ("Password", .str "secret")]
    (Json.obj resource).unambiguous = true ∧
      ∃ result, project resource ["password"] [] (some .user) = .ok result ∧
        ∀ uri name, (uri, name) ∈ ResourceSchema.user.attributesReturned "never" →
          result.Conceals uri name := by
  intro resource
  have unambiguous : (Json.obj resource).unambiguous = true := by decide +kernel
  have succeeds : (project resource ["password"] [] (some .user)).isOk = true := by decide +kernel
  have hidden : ResourceSchema.user.attributesReturned "never" = [(none, "password")] := by decide
  cases projected : project resource ["password"] [] (some .user) with
  | error failure =>
      rw [projected] at succeeds
      cases succeeds
  | ok result =>
      refine ⟨unambiguous, result, rfl, (conceals_project_iff unambiguous projected).mpr ?_⟩
      intro urn name isHidden
      rw [hidden] at isHidden
      cases List.mem_singleton.mp isHidden

/-- What an extension never returns is shown if a resource declares the extension first. -/
theorem not_conceals_project_pin :
    let badge : SchemaDef := ⟨"urn:acme:badge", "Badge", none,
      [⟨⟨"number", []⟩, none⟩, ⟨⟨"pin", [("returned", .str "never")]⟩, none⟩]⟩
    let schema : ResourceSchema := ⟨Schema.user, [badge]⟩
    let resource : Members := [("schemas", .arr [.str "urn:acme:badge", .str userUrn]),
      ("id", .str "1"), ("urn:acme:badge", .obj [("number", .str "7"), ("pin", .str "1234")])]
    (Json.obj resource).unambiguous = true ∧
      ∃ result, project resource [] [] (some schema) = .ok result ∧
        ¬ ∀ uri name, (uri, name) ∈ schema.attributesReturned "never" →
          result.Conceals uri name := by
  intro badge schema resource
  have leaks : (project resource [] [] (some schema)).toOption.map (fun shown =>
      ((get? shown "urn:acme:badge").bind Json.members?).map names) =
        some (some ["number", "pin"]) := by decide +kernel
  cases projected : project resource [] [] (some schema) with
  | error failure =>
      rw [projected] at leaks
      cases leaks
  | ok result =>
      refine ⟨by decide +kernel, result, rfl, fun conceals => ?_⟩
      rw [projected] at leaks
      obtain ⟨object, isObject, namesEq⟩ := Option.map_eq_some_iff.mp (Option.some.inj leaks)
      obtain ⟨value, held, is⟩ := Option.bind_eq_some_iff.mp isObject
      cases value with
      | obj members =>
          cases is
          have lacks := conceals (some "urn:acme:badge") "pin" (by decide +kernel)
            "urn:acme:badge" object (by decide +kernel) held
          have differ := lacks "pin" (by rw [namesEq]; decide)
          rw [sameName_refl] at differ
          cases differ
      | _ => cases is

end Scim
