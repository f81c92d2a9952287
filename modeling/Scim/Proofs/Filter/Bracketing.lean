import Mathlib.Data.List.Basic
import Scim.Proofs.Outcome
import Scim.Filter.Evaluation

/-!
# Conditions in brackets

A condition on a sub-attribute can be put in brackets behind the attribute, or on the dotted path
to the sub-attribute.  In brackets it is evaluated element by element, with its case rule looked
up relative to the attribute; on the dotted path it is evaluated once, on the values of all
elements.  Both come to the same, as long as the values are no objects, of which a
comparison would look at their own `value`.
-/

namespace Scim

namespace Json

variable {sub : String}

theorem subValues_of_not_isObj {value : Json} (other : value.isObj = false) :
    subValues sub value = [] := by
  cases value with
  | obj => cases other
  | _ => rfl

/-- The values of a sub-attribute are collected from the values of the attribute. -/
theorem valuesAt_sub (value : Json) (sub : String) :
    value.valuesAt (some sub) = value.valuesOf.flatMap (subValues sub) := by
  cases value with
  | arr items =>
      rw [valuesAt, valuesOf]
      induction items with
      | nil => rfl
      | cons item rest ih =>
          rw [List.flatMap_cons, ih, List.filter_cons]
          split
          · rw [List.flatMap_cons]
          · next null =>
            cases item with
            | null => rfl
            | _ => exact absurd rfl null
  | null => rfl
  | _ => exact (List.flatMap_singleton ..).symm

end Json

/-- A path without a sub-attribute, led on to one. -/
def PathOf.dot {φ : Type} (path : PathOf φ) (sub : String) : PathOf φ :=
  { path with sub := some sub }

variable {path : AttributePath} {attr sub : String} {resource : Json}

theorem coreValues_dot (resource : Json) (attr sub : String) :
    coreValues resource (some attr) (some sub) =
      (coreValues resource (some attr) none).map (·.flatMap (Json.subValues sub)) := by
  rw [coreValues, coreValues]
  cases resource.attrOf attr with
  | error failure => rfl
  | ok value => exact congrArg Except.ok (value.valuesAt_sub sub)

/-- The dotted path selects the values that the sub-attribute has in what the path selects. -/
theorem attributeValues_dot (named : path.attr = some attr) (plain : path.sub = none) :
    attributeValues resource (path.dot sub) =
      (attributeValues resource path).map (·.flatMap (Json.subValues sub)) := by
  rw [attributeValues, attributeValues, PathOf.dot]
  dsimp only
  rw [named, plain]
  cases path.uri with
  | none => exact coreValues_dot resource attr sub
  | some uri =>
      dsimp only
      cases resource.attrOf uri with
      | error failure => rfl
      | ok held =>
          have otherwise :
              (resource.isCoreUri uri >>= fun core =>
                if core then coreValues resource (some attr) (some sub) else .ok []) =
              (resource.isCoreUri uri >>= fun core =>
                if core then coreValues resource (some attr) none else .ok []).map
                  (·.flatMap (Json.subValues sub)) := by
            cases resource.isCoreUri uri with
            | error failure => rfl
            | ok core =>
                cases core with
                | true => exact coreValues_dot resource attr sub
                | false => rfl
          cases held with
          | obj extension =>
              exact congrArg Except.ok (Json.valuesAt_sub (Members.attr extension attr) sub)
          | _ => exact otherwise

namespace Filter

/-- A condition on the values of an attribute: that there is one, or that one compares with a
literal in some way. -/
inductive Condition where
  | present
  | compare (op : CompareOp) (literal : Json)

namespace Condition

/-- The condition on the values of a path. -/
def on (condition : Condition) (path : AttributePath) : Filter :=
  match condition with
  | present => .present path
  | compare op literal => .compare path op literal

/-- Whether a condition asks for a value that meets it, and not for the lack of one. -/
def IsPositive : Condition → Prop
  | present => True
  | compare op literal => op ≠ .ne ∧ literal.isNull = false

/-- Whether a value meets a condition. -/
def metBy (caseExact : Bool) : Condition → Json → Bool
  | present, value => value.hasValue
  | compare op literal, value => value.hasValue && op.test caseExact value literal

end Condition

variable {condition : Condition} {scope : Scope} {values : List Json}

/-- Values that are no objects are compared as they are. -/
theorem examined_of_not_isObj (plain : ∀ value ∈ values, value.isObj = false) :
    examined values = (values.filter (·.hasValue), none) := by
  rw [examined]
  refine if_neg ?_
  rw [Bool.and_eq_true, List.all_eq_true]
  rintro ⟨some, objects⟩
  cases held : values.filter (·.hasValue) with
  | nil =>
      rw [held] at some
      cases some
  | cons first rest =>
      have member : first ∈ values.filter (·.hasValue) := held ▸ List.mem_cons_self
      have object := objects first member
      rw [plain first (List.mem_of_mem_filter member)] at object
      cases object

/-- A condition holds if one of the values meets it. -/
theorem eval_on (positive : condition.IsPositive)
    (plain : ∀ values, attributeValues resource path = .ok values →
      ∀ value ∈ values, value.isObj = false) :
    (condition.on path).eval scope resource =
      (attributeValues resource path).map
        (·.any (condition.metBy (scope.caseExact path none))) := by
  cases condition with
  | present =>
      rw [Condition.on, eval]
      cases attributeValues resource path <;> rfl
  | compare op literal =>
      obtain ⟨unequal, given⟩ := positive
      rw [Condition.on, eval, evalCompare]
      cases selected : attributeValues resource path with
      | error failure => rfl
      | ok values =>
          dsimp only [bind, Except.bind]
          rw [examined_of_not_isObj (plain values selected)]
          have tested : (values.filter (·.hasValue)).any
                (op.test (scope.caseExact path none) · literal) =
              values.any ((Condition.compare op literal).metBy (scope.caseExact path none)) :=
            List.any_filter
          cases literal with
          | null => cases given
          | _ =>
              cases op with
              | ne => exact absurd rfl unequal
              | _ => exact congrArg Except.ok tested

/-- In brackets a condition on a sub-attribute is evaluated on the values that the sub-attribute has
in each element. -/
theorem eval_on_element (positive : condition.IsPositive) {element : Json}
    (object : element.isObj = true)
    (plain : ∀ value ∈ element.subValues sub, value.isObj = false) :
    (condition.on (.plain sub)).eval scope element =
      .ok ((element.subValues sub).any
        (condition.metBy (scope.caseExact (.plain sub : AttributePath) none))) := by
  cases element with
  | obj members =>
      have selected : attributeValues (.obj members) (.plain sub : AttributePath) =
          .ok (Json.subValues sub (.obj members)) := rfl
      rw [eval_on positive, selected]
      · rfl
      · intro values found
        rw [selected] at found
        cases found
        exact plain
  | _ => cases object

/-- A condition that some elements meet is met by one of the values that they all have. -/
theorem any_elements (met : Json → Bool) (elements : List Json) :
    ((elements.filter (·.isObj)).any fun element => (element.subValues sub).any met) =
      (elements.flatMap (Json.subValues sub)).any met := by
  rw [List.any_filter, List.any_flatMap]
  congr 1
  funext element
  cases object : element.isObj with
  | true => exact Bool.true_and _
  | false => rw [Json.subValues_of_not_isObj object, Bool.false_and, List.any_nil]

/-- A condition in brackets behind an attribute comes to the same as the condition on the dotted
path, in outcome and failure: the same values are looked at, under the same case rule. -/
theorem holds_bracketed (positive : condition.IsPositive) (named : path.attr = some attr)
    (whole : path.sub = none)
    (plain : ∀ values, attributeValues resource (path.dot sub) = .ok values →
      ∀ value ∈ values, value.isObj = false)
    (schema : Option ResourceSchema) :
    (valuePath path (condition.on (.plain sub))).holds resource schema =
      (condition.on (path.dot sub)).holds resource schema := by
  rw [holds, holds, eval, eval_on positive plain, attributeValues_dot named whole]
  have sameCase : (Scope.within schema path).caseExact (.plain sub : AttributePath) none =
      (Scope.top schema).caseExact (path.dot sub) none := by
    rw [Scope.within, named, Scope.top]
    cases schema with
    | none => rfl
    | some schema =>
        rw [Scope.caseExact, Scope.caseExact, PathOf.dot, named]
        rfl
  cases selected : attributeValues resource path with
  | error failure => rfl
  | ok elements =>
      rw [attributeValues_dot named whole, selected] at plain
      have each : ∀ element ∈ elements.filter (·.isObj),
          (condition.on (.plain sub)).eval (.within schema path) element =
            .ok ((element.subValues sub).any
              (condition.metBy ((Scope.top schema).caseExact (path.dot sub) none))) := by
        intro element member
        obtain ⟨held, object⟩ := List.mem_filter.mp member
        rw [eval_on_element positive object, sameCase]
        exact fun value found => plain _ rfl value (List.mem_flatMap.mpr ⟨element, held, found⟩)
      calc (elements.filter (·.isObj)).anyM
              (fun element => (condition.on (.plain sub)).eval (.within schema path) element)
          = (elements.filter (·.isObj)).anyM (fun element => .ok ((element.subValues sub).any
              (condition.metBy ((Scope.top schema).caseExact (path.dot sub) none)))) :=
            anyM_congr each
        _ = .ok ((elements.filter (·.isObj)).any fun element => (element.subValues sub).any
              (condition.metBy ((Scope.top schema).caseExact (path.dot sub) none))) :=
            List.anyM_pure
        _ = .ok ((elements.flatMap (Json.subValues sub)).any
              (condition.metBy ((Scope.top schema).caseExact (path.dot sub) none))) :=
            congrArg Except.ok (any_elements _ elements)

/-- Whether one of the addresses of a user is a given one, in brackets and on the dotted path. Their
schema has addresses compared without regard to letter case, and what is no object is passed over
both ways. -/
theorem holds_bracketed_email :
    let user : Json := .obj [("emails", .arr [.str "A@X", .arr [.obj [("value", .str "a@x")]],
      .obj [("type", .str "work")], .obj [("value", .str "a@x")]])]
    let condition : Condition := .compare .eq (.str "A@X")
    (∀ values, attributeValues user ((.plain "emails" : AttributePath).dot "value") = .ok values →
      ∀ value ∈ values, value.isObj = false) ∧
    (valuePath (.plain "emails") (condition.on (.plain "value"))).holds user (some .user) =
      (condition.on ((.plain "emails" : AttributePath).dot "value")).holds user (some .user) ∧
    (condition.on ((.plain "emails" : AttributePath).dot "value")).holds user (some .user) =
      .ok true := by
  intro user condition
  have plain : ∀ values,
      attributeValues user ((.plain "emails" : AttributePath).dot "value") = .ok values →
        ∀ value ∈ values, value.isObj = false := by
    intro values selected
    cases selected
    exact List.forall_mem_singleton.mpr rfl
  have positive : condition.IsPositive := ⟨by decide, rfl⟩
  exact ⟨plain, holds_bracketed positive rfl rfl plain _, by rfl⟩

end Filter

end Scim
