import Scim.Proofs.Query.Concealing
import Scim.Proofs.Query.Crashing
import Scim.Proofs.Query.Dropping

/-!
# Rearranged requests

What a request shows depends on which attributes it asks for, not on the order in which it lists
them or on how often: the results differ in the order of their members at most.  Only which failure
is raised, if several entries cannot be followed, goes by the order.
-/

namespace Scim

open Members

variable {resource first second target other : Members} {schema : Option ResourceSchema}
  {attributes others excluded : List String}

/-- Whether an operation refuses the path of an attribute as invalid. -/
def Failure.IsInvalidPath (failure : Failure) : Prop :=
  ∃ error path, failure = .scim error ∧ error.kind = .invalidPath path

/-- Whether two projections have results that differ in the order of members only, or refuse a path
both. -/
def SameProjection (first second : Except Failure Members) : Prop :=
  (∃ shown other, first = .ok shown ∧ second = .ok other ∧ (Json.obj shown).Alike (.obj other)) ∨
    ∃ failure cause, first = .error failure ∧ second = .error cause ∧
      failure.IsInvalidPath ∧ cause.IsInvalidPath

namespace Projection

/-! ## Dropping from alike objects -/

/-- Unambiguous objects that are alike. -/
structure Twins (first second : Members) : Prop where
  unambiguous : (Json.obj first).unambiguous = true
  unambiguousOther : (Json.obj second).unambiguous = true
  alike : (Json.obj first).Alike (.obj second)

/-- Two outcomes that are the same failure, or results in a relation. -/
inductive Related {α : Type} (alike : α → α → Prop) :
    Except Failure α → Except Failure α → Prop where
  | ok {result other : α} (related : alike result other) : Related alike (.ok result) (.ok other)
  | error (failure : Failure) : Related alike (.error failure) (.error failure)

/-- Steps that keep a relation lead to related outcomes. -/
theorem Related.foldlM {α β : Type} {alike : α → α → Prop} {step : α → β → Except Failure α}
    (kept : ∀ first second item, alike first second →
      Related alike (step first item) (step second item))
    {first second : α} (related : alike first second) (items : List β) :
    Related alike (items.foldlM step first) (items.foldlM step second) := by
  induction items generalizing first second with
  | nil => exact .ok related
  | cons item rest ih =>
      rw [List.foldlM_cons, List.foldlM_cons]
      have stepped := kept first second item related
      generalize step first item = outcome at stepped ⊢
      generalize step second item = other at stepped ⊢
      cases stepped with
      | ok related => exact ih related
      | error failure => exact .error failure

/-- A path leads along one trail into alike objects. -/
theorem Twins.trail?_eq (twins : Twins first second) (path : AttributePath) :
    trail? first path = trail? second path := by
  have each := Json.alike_obj_iff.mp twins.alike
  have distinct := (Json.unambiguous_obj_iff.mp twins.unambiguousOther).1
  have core := isCoreUri_congr_alike (each "schemas")
  have keys := distinct.key?_congr (Json.mem_names_iff_of_alike each)
  unfold trail? source?
  cases path.uri with
  | none => rfl
  | some uri =>
      dsimp only
      rw [core, keys]
      cases isCoreUri second uri with
      | error failure => rfl
      | ok isCore =>
          cases isCore with
          | true => rfl
          | false =>
              cases key? second uri with
              | none => rfl
              | some key =>
                  have there := each key
                  dsimp only
                  generalize get? first key = place at there ⊢
                  generalize get? second key = elsewhere at there ⊢
                  cases there with
                  | missing => rfl
                  | @there value _ alike =>
                      cases alike with
                      | refl => cases value <;> rfl
                      | arr | obj => rfl

/-- Dropping what a path names from alike objects leaves alike objects, or fails alike. -/
theorem Twins.dropPath (twins : Twins first second) (path : AttributePath) :
    Related Twins (dropPath first path) (dropPath second path) := by
  rw [dropPath_eq twins.unambiguous, dropPath_eq twins.unambiguousOther, twins.trail?_eq]
  cases trail? second path with
  | error failure => exact .error failure
  | ok trail =>
      cases trail with
      | none => exact .ok twins
      | some trail =>
          obtain ⟨name, rest⟩ := trail
          refine .ok ⟨(partOf_dropMember first name rest).unambiguous twins.unambiguous,
            (partOf_dropMember second name rest).unambiguous twins.unambiguousOther, .obj ?_⟩
          have each := Json.alike_obj_iff.mp twins.alike
          exact alike_dropMember twins.unambiguousOther each name rest

theorem Twins.dropHidden (twins : Twins first second) (schema : Option ResourceSchema) :
    Related Twins (dropHidden schema first) (dropHidden schema second) := by
  cases schema with
  | none => exact .ok twins
  | some schema => exact .foldlM (fun _ _ hidden twins => twins.dropPath _) twins _

/-! ## Copying in any order -/

theorem asked_congr (same : ∀ text, text ∈ attributes ↔ text ∈ others) :
    asked resource schema attributes = asked resource schema others := by
  simp only [asked, same]

/-- What a rearranged request copies is alike. -/
theorem twins_only (unambiguous : (Json.obj resource).unambiguous = true)
    (same : ∀ text, text ∈ attributes ↔ text ∈ others)
    (copied : only resource schema attributes = .ok target) :
    ∃ other, only resource schema others = .ok other ∧ Twins target other := by
  obtain ⟨other, copiedOther⟩ : ∃ other, only resource schema others = .ok other := by
    rw [only_eq] at copied ⊢
    obtain ⟨found, reached, _⟩ := map_eq_ok_iff.mp copied
    obtain ⟨trails, reachedOther⟩ : ∃ trails, others.mapM (reach resource) = .ok trails :=
      exists_mapM_iff.mpr fun text held =>
        exists_mapM_iff.mp ⟨found, reached⟩ text ((same text).mpr held)
    exact ⟨_, map_eq_ok_iff.mpr ⟨trails, reachedOther, rfl⟩⟩
  -- both show one set of trails, in which neither order nor repetition is left
  have shows := showsMembers_only copied
  have showsOther := showsMembers_only copiedOther
  rw [← asked_congr same] at showsOther
  exact ⟨other, copiedOther, shows.partOf.unambiguous unambiguous,
    showsOther.partOf.unambiguous unambiguous, shows.alike showsOther⟩

end Projection

/-! ## Projecting in any order -/

theorem project_eq_bind (resource : Members) (attributes excluded : List String)
    (schema : Option ResourceSchema) :
    project resource attributes excluded schema =
      schema.elim (schema? resource) (.ok ∘ some) >>= fun schema =>
        Projection.requested resource schema attributes excluded >>=
          Projection.dropHidden schema := by
  cases schema <;> rw [project] <;> unfold Projection.requested <;> split <;> rfl

/-- Rearranging a request that has a result leaves the result alike. -/
theorem exists_project_alike (unambiguous : (Json.obj resource).unambiguous = true)
    (same : ∀ text, text ∈ attributes ↔ text ∈ others) {result : Members}
    (projected : project resource attributes excluded schema = .ok result) :
    ∃ other, project resource others excluded schema = .ok other ∧
      (Json.obj result).Alike (.obj other) := by
  rw [project_eq_bind] at projected ⊢
  obtain ⟨schema, resolved, projected⟩ := bind_eq_ok_iff.mp projected
  obtain ⟨target, requested, dropped⟩ := bind_eq_ok_iff.mp projected
  rw [resolved]
  cases attributes with
  | nil =>
      have none : others = [] := List.eq_nil_iff_forall_not_mem.mpr fun text held =>
        List.not_mem_nil ((same text).mpr held)
      rw [none]
      exact ⟨result, projected, .refl _⟩
  | cons text rest =>
      obtain ⟨first, later, rfl⟩ := List.exists_cons_of_ne_nil
        (List.ne_nil_of_mem ((same text).mp List.mem_cons_self))
      obtain ⟨other, copied, twins⟩ := Projection.twins_only unambiguous same requested
      have related := twins.dropHidden schema
      rw [dropped] at related
      cases ended : Projection.dropHidden schema other with
      | error failure =>
          rw [ended] at related
          cases related
      | ok shown =>
          rw [ended] at related
          cases related with
          | ok twins =>
              refine ⟨shown, bind_eq_ok_iff.mpr ⟨schema, rfl, ?_⟩, twins.alike⟩
              exact bind_eq_ok_iff.mpr ⟨other, copied, ended⟩

/-- Rearranging a request leaves its projection the same unless it fails on something else than the
path of an attribute. -/
theorem sameProjection_iff (unambiguous : (Json.obj resource).unambiguous = true)
    (same : ∀ text, text ∈ attributes ↔ text ∈ others) :
    SameProjection (project resource attributes excluded schema)
        (project resource others excluded schema) ↔
      FailsOnly Failure.IsInvalidPath (project resource attributes excluded schema) ∧
        FailsOnly Failure.IsInvalidPath (project resource others excluded schema) := by
  constructor
  · rintro (⟨shown, other, first, second, _⟩ | ⟨failure, cause, first, second, refuses, refusesToo⟩)
    · rw [first, second]
      exact ⟨.ok shown, .ok other⟩
    · rw [first, second]
      exact ⟨.error refuses, .error refusesToo⟩
  · rintro ⟨refuses, refusesToo⟩
    cases first : project resource attributes excluded schema with
    | ok shown =>
        obtain ⟨other, second, alike⟩ := exists_project_alike unambiguous same first
        exact .inl ⟨shown, other, rfl, second, alike⟩
    | error failure =>
        cases second : project resource others excluded schema with
        | ok other =>
            obtain ⟨shown, is, _⟩ :=
              exists_project_alike unambiguous (fun text => (same text).symm) second
            cases first.symm.trans is
        | error cause =>
            exact .inr ⟨failure, cause, rfl, rfl, refuses failure first, refusesToo cause second⟩

/-! ### Resources that declare their URNs -/

theorem Members.DeclaresList.of_partOf (declares : resource.DeclaresList)
    (part : (Json.obj target).PartOf (.obj resource)) : target.DeclaresList := by
  obtain ⟨_, same, _, each⟩ := Json.partOf_obj_iff.mp part
  cases same
  intro value held
  have there := each "schemas"
  rw [held] at there
  cases whole : get? resource "schemas" with
  | none =>
      rw [whole] at there
      cases there
  | some list =>
      rw [whole, Json.partAt_some_iff] at there
      have listed := declares list whole
      cases there with
      | refl => exact listed
      | arr => rfl
      | obj => cases listed

theorem Projection.exists_dropHidden (declares : target.DeclaresList)
    (schema : Option ResourceSchema) : ∃ shown, dropHidden schema target = .ok shown := by
  cases schema with
  | none => exact ⟨target, rfl⟩
  | some schema =>
      dsimp only [dropHidden]
      generalize schema.attributesReturned "never" = hidden
      induction hidden generalizing target with
      | nil => exact ⟨target, rfl⟩
      | cons first rest ih =>
          obtain ⟨next, dropped, list⟩ := exists_dropPath declares (attrPath first.1 first.2)
          obtain ⟨shown, later⟩ := ih list
          exact ⟨shown, by rw [List.foldlM_cons, dropped]; exact later⟩

/-- Asking for attributes of a resource that declares its URNs in a list fails on the paths of the
attributes only. -/
theorem failsOnly_project_of_declaresList {core : ResourceSchema} {P : Failure → Prop}
    (declares : resource.DeclaresList) (asks : attributes ≠ [])
    (readable : ∀ text ∈ attributes, FailsOnly P (PathOf.parse text)) :
    FailsOnly P (project resource attributes excluded (some core)) := by
  rw [Projection.project_eq, Projection.requested, if_neg (by simpa using asks)]
  apply FailsOnly.bind
  · rw [Projection.only_eq]
    refine (FailsOnly.mapM fun text held => ?_).map _
    refine (readable text held).bind fun path _ => ?_
    obtain ⟨found, looked⟩ := Projection.exists_source? declares path
    rw [Projection.trail?, looked]
    rcases found with _ | ⟨_, _ | key⟩
    · exact .ok _
    · cases path.attr <;> exact .ok _
    · cases path.attr <;> exact .ok _
  · intro target copied
    have part := (Projection.showsMembers_only copied).partOf
    obtain ⟨shown, ended⟩ := Projection.exists_dropHidden (declares.of_partOf part) (some core)
    rw [ended]
    exact .ok shown

/-- In whatever order attributes are asked for of a resource that declares its URNs in a list, they
are shown alike, if no path has an over-long integer or is nested too deep. -/
theorem sameProjection_of_declaresList {core : ResourceSchema}
    (unambiguous : (Json.obj resource).unambiguous = true) (declares : resource.DeclaresList)
    (readable : ∀ text ∈ attributes, FailsOnly Failure.IsInvalidPath (PathOf.parse text))
    (asks : attributes ≠ []) (same : ∀ text, text ∈ attributes ↔ text ∈ others) :
    SameProjection (project resource attributes excluded (some core))
      (project resource others excluded (some core)) := by
  refine (sameProjection_iff unambiguous same).mpr ⟨?_, ?_⟩
  · exact failsOnly_project_of_declaresList declares asks readable
  · obtain ⟨text, held⟩ := List.exists_mem_of_ne_nil attributes asks
    refine failsOnly_project_of_declaresList declares (List.ne_nil_of_mem ((same text).mp held)) ?_
    exact fun text held => readable text ((same text).mpr held)

/-! ## What does not depend on the order -/

/-- What a projection of a resource with unambiguous names shows depends on the set of attributes
that are asked for alone.  If there is a result in one order, there is one in every other, and the
two differ in the order of members only.  If there is none, a path is refused in both orders, unless
the request fails on something else in one of them. -/
theorem project_rearranged_iff (unambiguous : (Json.obj resource).unambiguous = true)
    (same : ∀ text, text ∈ attributes ↔ text ∈ others) :
    (∀ result, project resource attributes excluded schema = .ok result →
      ∃ other, project resource others excluded schema = .ok other ∧
        (Json.obj result).Alike (.obj other)) ∧
    (SameProjection (project resource attributes excluded schema)
        (project resource others excluded schema) ↔
      FailsOnly Failure.IsInvalidPath (project resource attributes excluded schema) ∧
        FailsOnly Failure.IsInvalidPath (project resource others excluded schema)) :=
  ⟨fun _ => exists_project_alike unambiguous same, sameProjection_iff unambiguous same⟩

/-- Parts of names and of emails are shown alike in any order. -/
theorem project_rearranged_parts :
    let resource : Members := [("schemas", .arr [.str userUrn]), ("id", .str "1"),
      ("name", .obj [("givenName", .str "Ann"), ("familyName", .str "Lee")]),
      ("emails", .arr [.obj [("value", .str "a@x.org"), ("type", .str "work")], .str "odd"])]
    let attributes := ["name.familyName", "emails.value", "name.givenName"]
    let others := ["emails.value", "name.givenName", "name.familyName", "emails.value"]
    (Json.obj resource).unambiguous = true ∧ (∀ text, text ∈ attributes ↔ text ∈ others) ∧
      SameProjection (project resource attributes [] (some .user))
        (project resource others [] (some .user)) := by
  intro resource attributes others
  have unambiguous : (Json.obj resource).unambiguous = true := by decide +kernel
  have same (text : String) : text ∈ attributes ↔ text ∈ others := by
    simp only [attributes, others, List.mem_cons, List.not_mem_nil]
    tauto
  have shown (asks : List String) (succeeds : (project resource asks [] (some .user)).isOk = true) :
      FailsOnly Failure.IsInvalidPath (project resource asks [] (some .user)) := by
    obtain ⟨result, projected⟩ := exists_eq_ok_of_isOk succeeds
    rw [projected]
    exact .ok result
  refine ⟨unambiguous, same, (project_rearranged_iff unambiguous same).2.mpr ⟨?_, ?_⟩⟩
  · exact shown attributes (by decide +kernel)
  · exact shown others (by decide +kernel)

/-- Which of two entries comes first decides whether an invalid path is refused, if the other one
cannot be told from an attribute because the URNs of the resource are not in a list. -/
theorem not_sameProjection_misdeclared :
    let resource : Members := [("schemas", .bool true)]
    (Json.obj resource).unambiguous = true ∧
      ¬ SameProjection (project resource ["urn:x:y:z", "["] [] (some .user))
        (project resource ["[", "urn:x:y:z"] [] (some .user)) := by
  intro resource
  refine ⟨by decide +kernel, ?_⟩
  have crashes : (match project resource ["urn:x:y:z", "["] [] (some .user) with
    | .error (.fault _) => true
    | _ => false) = true := by decide +kernel
  rintro (⟨shown, other, first, _⟩ | ⟨failure, cause, first, _, ⟨error, path, rfl, _⟩, _⟩)
  · rw [first] at crashes
    cases crashes
  · rw [first] at crashes
    cases crashes

end Scim
