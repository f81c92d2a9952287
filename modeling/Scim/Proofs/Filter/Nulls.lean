import Scim.Filter.Evaluation

/-!
# Comparing with null

An attribute equals null if it has no value, so a comparison with null and a test for presence say
opposite things.  They look at different values though where an attribute is complex: presence
at the objects themselves, and a comparison at what they have for `value`.  Objects without it are
present and equal to null at once.
-/

namespace Scim

open Members

variable {φ : Type} {values : List Json}

/-- Whether a value is an object without a `value` of its own. -/
def Json.isBare : Json → Bool
  | .obj element => (Members.attr element "value").isNull
  | _ => false

/-- Whether a path selects something, and nothing but objects without a `value`. Nulls and what is
empty do not count. -/
def PathOf.SelectsBare (path : PathOf φ) (resource : Json) : Prop :=
  ∃ values, attributeValues resource path = .ok values ∧
    values.any (·.hasValue) = true ∧
    ∀ value ∈ values, value.hasValue = true → value.isBare = true

namespace Filter

/-- No values are examined if none counts, or if all that count are objects without a `value`. -/
theorem isEmpty_examined_iff :
    (examined values).1.isEmpty = true ↔
      ∀ value ∈ values, value.hasValue = true → value.isBare = true := by
  have counting : (∀ value ∈ values, value.hasValue = true → value.isBare = true) ↔
      ∀ value ∈ values.filter (·.hasValue), value.isBare = true := by
    simp only [List.mem_filter, and_imp]
  rw [counting, examined]
  generalize values.filter (·.hasValue) = values
  split
  · next objects =>
    rw [Bool.and_eq_true, List.all_eq_true] at objects
    rw [List.isEmpty_iff, List.flatMap_eq_nil_iff]
    refine forall₂_congr fun value held => ?_
    cases value with
    | obj element =>
        rw [Json.isBare]
        dsimp only
        cases attr element "value" <;> simp [Json.isNull]
    | _ => cases objects.2 _ held
  · next mixed =>
    cases values with
    | nil => exact iff_of_true rfl nofun
    | cons first rest =>
        refine iff_of_false Bool.false_ne_true fun bare => mixed ?_
        rw [Bool.and_eq_true, List.all_eq_true]
        refine ⟨rfl, fun value held => ?_⟩
        have isBare := bare value held
        cases value with
        | obj => rfl
        | _ => cases isBare

theorem isEmpty_examined_of_absent (absent : values.any (·.hasValue) = false) :
    (examined values).1.isEmpty = true := by
  rw [List.any_eq_false] at absent
  exact isEmpty_examined_iff.mpr fun value held counts => absurd counts (absent value held)

/-- A test for presence and the comparisons with null say opposite things, unless the path selects
nothing but objects without a `value`: those are present, and equal to null all the same. -/
theorem eval_null_iff (scope : Scope) (resource : Json) (path : AttributePath) :
    (((compare path .eq .null).eval scope resource =
          ((present path).eval scope resource).map (!·) ∧
        (compare path .ne .null).eval scope resource = (present path).eval scope resource) ↔
      ¬ path.SelectsBare resource) ∧
    (path.SelectsBare resource ↔
      (present path).eval scope resource = .ok true ∧
        (compare path .eq .null).eval scope resource = .ok true ∧
        (compare path .ne .null).eval scope resource = .ok false) := by
  rw [eval, eval, eval, evalCompare, evalCompare, PathOf.SelectsBare]
  cases attributeValues resource path with
  | error failure =>
      refine ⟨iff_of_true ⟨rfl, rfl⟩ ?_, iff_of_false ?_ nofun⟩ <;> rintro ⟨_, ⟨⟩, _⟩
  | ok values =>
      have bare : (∃ others, (.ok values : Except Failure _) = .ok others ∧
          others.any (·.hasValue) = true ∧
          ∀ value ∈ others, value.hasValue = true → value.isBare = true) ↔
          values.any (·.hasValue) = true ∧ (examined values).1.isEmpty = true := by
        rw [isEmpty_examined_iff]
        constructor
        · rintro ⟨_, ⟨⟩, selected⟩
          exact selected
        · exact fun selected => ⟨values, rfl, selected⟩
      have absent : values.any (·.hasValue) = false → (examined values).1.isEmpty = true :=
        isEmpty_examined_of_absent
      rw [bare]
      dsimp only [bind, Except.bind, pure, Except.pure, Except.map]
      -- The three outcomes depend on two truth values: whether something counts, and whether
      -- nothing is left to be compared.
      generalize values.any (·.hasValue) = counts, (examined values).1.isEmpty = nothing at absent
      cases counts <;> cases nothing <;> simp_all

/-- Of a name without a `value` both `name eq null` and `name pr` hold. -/
theorem not_eval_null_complementary :
    ¬ ∀ (schema : Option ResourceSchema) (resource : Members) (path : AttributePath),
      path.restriction = none → path.attr.isSome = true →
        (compare path .eq .null).holds (.obj resource) schema =
            ((present path).holds (.obj resource) schema).map (!·) ∧
          (compare path .ne .null).holds (.obj resource) schema =
            (present path).holds (.obj resource) schema := by
  intro complementary
  obtain ⟨opposite, _⟩ := complementary none [("name", .obj [("familyName", .str "x")])]
    (.plain "name") rfl rfl
  exact absurd (congrArg Except.toOption opposite) (by decide +kernel)

end Filter

end Scim
