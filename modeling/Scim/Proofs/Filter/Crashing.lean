import Scim.Proofs.Crashes
import Scim.Proofs.Failures
import Scim.Proofs.Filter.Canonical
import Scim.Proofs.Path.Selecting

/-!
# Filters that crash

A filter asks an object for the first of the URNs that it declares, where a path of the
filter has a URN that nobody knows and the object keeps no object under it.  What the object
has for these URNs may have no items at all.  Nothing else in a filter can crash.
-/

namespace Scim

open Members

variable {element resource : Members} {uri : String} {scope : Scope}

/-- Whether a value can be asked for its first item: it has items in a row, or stands for
nothing. -/
def Json.isRow : Json → Bool
  | .obj members => members.isEmpty
  | .bool b => !b
  | .int n => n == 0
  | .double d => d.isZero
  | _ => true

/-- What an object has for the URNs that it declares, null if it has nothing. -/
def Members.schemasValue (resource : Members) : Json := (get? resource "schemas").getD .null

/-- Whether looking up a path in an object asks for the first URN that it declares, and there
cannot be one. -/
def PathOf.Stumbles {φ : Type} (path : PathOf φ) (element : Members) : Prop :=
  ∃ uri, path.uri = some uri ∧ (Members.attr element uri).isObj = false ∧
    Schema.find? uri = none ∧ element.schemasValue.isRow = false

/-- Whether evaluating a filter on an object comes to such a path. The right operand of a
connective is come to if the left one leaves the outcome open, and an element of a list if none
before it satisfies the filter in brackets. -/
def Filter.Stumbles : Filter → Scope → Members → Prop
  | .compare path _ _, _, element | .present path, _, element => path.Stumbles element
  | .and left right, scope, element =>
    left.Stumbles scope element ∨
      left.eval scope (.obj element) = .ok true ∧ right.Stumbles scope element
  | .or left right, scope, element =>
    left.Stumbles scope element ∨
      left.eval scope (.obj element) = .ok false ∧ right.Stumbles scope element
  | .not expr, scope, element | .group expr, scope, element => expr.Stumbles scope element
  | .valuePath path expr, scope, element =>
    path.Stumbles element ∨
      ∃ values before inner after, attributeValues (.obj element) path = .ok values ∧
        values.filter (·.isObj) = before ++ .obj inner :: after ∧
        (∀ other ∈ before, expr.eval (.within scope.schema path) other = .ok false) ∧
        expr.Stumbles (.within scope.schema path) inner

/-! ## Paths -/

theorem crashes_isCoreUri_iff :
    Crashes (Members.isCoreUri resource uri) ↔
      Schema.find? uri = none ∧ resource.schemasValue.isRow = false := by
  unfold Members.isCoreUri Members.schemasValue
  cases Schema.find? uri with
  | some part => exact ⟨False.elim, nofun⟩
  | none =>
      generalize (get? resource "schemas").getD .null = schemas
      dsimp only
      rw [eq_self, true_and]
      -- what is neither a list nor a text is a row exactly if it is void
      split
      · next void =>
        refine iff_of_false (not_crashes_ok false) ?_
        cases schemas <;> simp_all [Json.isVoid, Json.isRow]
      · next filled =>
        cases schemas with
        | arr items =>
            refine iff_of_false ?_ (by simp [Json.isRow])
            cases items with
            | nil => exact not_crashes_ok _
            | cons item rest => cases item <;> exact not_crashes_ok _
        | str s => exact iff_of_false (not_crashes_ok _) (by simp [Json.isRow])
        | null => exact absurd rfl filled
        | obj members =>
            refine iff_of_true (crashes_failWith (by decide)) ?_
            simpa [Json.isVoid, Json.isRow] using filled
        | _ =>
            refine iff_of_true (crashes_failWith (by decide)) ?_
            simpa [Json.isVoid, Json.isRow] using filled

theorem Json.failsOnly_isCoreUri (value : Json) (uri : String) :
    FailsOnly Failure.IsCrash (value.isCoreUri uri) := by
  unfold isCoreUri
  split
  · exact Members.failsOnly_isCoreUri _ uri
  · exact .ok _
  · exact .crash (by decide)

theorem failsOnly_coreValues (resource : Json) (attr sub : Option String) :
    FailsOnly Failure.IsCrash (coreValues resource attr sub) := by
  unfold coreValues
  split
  · exact .ok _
  · exact .bind (resource.crashesOnly_attrOf _) fun _ _ => .ok _

theorem failsOnly_attributeValues {φ : Type} (path : PathOf φ) (resource : Json) :
    FailsOnly Failure.IsCrash (attributeValues resource path) := by
  unfold attributeValues
  split
  · exact failsOnly_coreValues resource _ _
  · apply FailsOnly.bind (resource.crashesOnly_attrOf _)
    intro held _
    split
    · split <;> exact .ok _
    · apply FailsOnly.bind (resource.failsOnly_isCoreUri _)
      intro core _
      split
      · exact failsOnly_coreValues resource _ _
      · exact .ok _

theorem crashes_attributeValues_iff {path : AttributePath} :
    Crashes (attributeValues (.obj element) path) ↔ path.Stumbles element := by
  unfold PathOf.Stumbles
  cases uriEq : path.uri with
  | none =>
      rw [attributeValues_core uriEq]
      exact iff_of_false (not_crashes_ok _) nofun
  | some uri =>
      simp only [Option.some.injEq, exists_eq_left']
      cases object : (Members.attr element uri).isObj with
      | true =>
          refine iff_of_false ?_ (fun stumbles => absurd stumbles.1 (by simp))
          cases held : Members.attr element uri with
          | obj extension =>
              rw [attributeValues_object uriEq held]
              exact not_crashes_ok _
          | _ =>
              rw [held] at object
              cases object
      | false =>
          rw [attributeValues_other uriEq object, crashes_map_iff, crashes_isCoreUri_iff, eq_self,
            true_and]

/-! ## Filters -/

namespace Filter

/-- A filter fails by crashing only, whatever it is evaluated on. -/
theorem failsOnly_eval (filter : Filter) (scope : Scope) (element : Json) :
    FailsOnly Failure.IsCrash (filter.eval scope element) := by
  induction filter generalizing scope element with
  | compare path op value =>
      rw [eval, evalCompare]
      apply FailsOnly.bind (failsOnly_attributeValues path element)
      intro values _
      dsimp only
      split
      · split <;> exact .ok _
      · split <;> exact .ok _
  | present path =>
      rw [eval]
      exact FailsOnly.bind (failsOnly_attributeValues path element) fun values _ => .ok _
  | and left right leftIh rightIh =>
      rw [eval]
      apply FailsOnly.bind (leftIh scope element)
      intro holds _
      cases holds with
      | true => exact rightIh scope element
      | false => exact .ok false
  | or left right leftIh rightIh =>
      rw [eval]
      apply FailsOnly.bind (leftIh scope element)
      intro holds _
      cases holds with
      | true => exact .ok true
      | false => exact rightIh scope element
  | not expr ih =>
      rw [eval]
      exact FailsOnly.bind (ih scope element) fun holds _ => .ok _
  | group expr ih =>
      rw [eval]
      exact ih scope element
  | valuePath path expr ih =>
      rw [eval]
      apply FailsOnly.bind (failsOnly_attributeValues path element)
      intro values _
      exact FailsOnly.anyM fun item _ => ih _ item

/-- A filter crashes on an object exactly if it comes to a path that asks for a first URN where
there cannot be one. -/
theorem crashes_eval_iff {filter : Filter} :
    Crashes (filter.eval scope (.obj element)) ↔ filter.Stumbles scope element := by
  induction filter generalizing scope element with
  | compare path op value =>
      rw [eval, evalCompare, Stumbles, crashes_bind_of_safe, crashes_attributeValues_iff]
      intro values
      dsimp only
      split
      · split <;> exact not_crashes_pure _
      · split <;> exact not_crashes_pure _
  | present path =>
      rw [eval, Stumbles, crashes_bind_of_safe fun _ => not_crashes_pure _,
        crashes_attributeValues_iff]
  | and left right leftIh rightIh =>
      rw [eval, Stumbles, crashes_bind_iff, leftIh]
      refine or_congr_right ⟨?_, ?_⟩
      · rintro ⟨holds, evaluated, crashed⟩
        cases holds with
        | true => exact ⟨evaluated, rightIh.mp crashed⟩
        | false => exact crashed.elim
      · rintro ⟨evaluated, stumbles⟩
        exact ⟨true, evaluated, rightIh.mpr stumbles⟩
  | or left right leftIh rightIh =>
      rw [eval, Stumbles, crashes_bind_iff, leftIh]
      refine or_congr_right ⟨?_, ?_⟩
      · rintro ⟨holds, evaluated, crashed⟩
        cases holds with
        | true => exact crashed.elim
        | false => exact ⟨evaluated, rightIh.mp crashed⟩
      · rintro ⟨evaluated, stumbles⟩
        exact ⟨false, evaluated, rightIh.mpr stumbles⟩
  | not expr ih => rw [eval, Stumbles, crashes_bind_of_safe fun _ => not_crashes_pure _, ih]
  | group expr ih => rw [eval, Stumbles, ih]
  | valuePath path expr ih =>
      rw [eval, Stumbles, crashes_bind_iff, crashes_attributeValues_iff]
      refine or_congr_right ⟨?_, ?_⟩
      · rintro ⟨values, selected, crashed⟩
        obtain ⟨before, item, after, whole, passed, crashed⟩ := crashes_anyM_iff.mp crashed
        have isObj : item.isObj = true := by
          have held : item ∈ values.filter (·.isObj) := whole ▸ by simp
          exact (List.mem_filter.mp held).2
        cases item with
        | obj inner => exact ⟨values, before, inner, after, selected, whole, passed, ih.mp crashed⟩
        | _ => cases isObj
      · rintro ⟨values, before, inner, after, selected, whole, passed, stumbles⟩
        exact ⟨values, selected, crashes_anyM_iff.mpr
          ⟨before, .obj inner, after, whole, passed, ih.mpr stumbles⟩⟩

end Filter

/-- Selecting elements of a list by a filter crashes exactly if the filter crashes on one. -/
theorem crashes_matchingIndexes_iff {filter : Filter} {index : Nat} {items : List Json} :
    Crashes (matchingIndexes scope filter index items) ↔
      ∃ element, .obj element ∈ items ∧ filter.Stumbles scope element := by
  induction items generalizing index with
  | nil => exact iff_of_false (not_crashes_ok _) (by simp)
  | cons item rest ih =>
      cases item with
      | obj element =>
          rw [matchingIndexes]
          constructor
          · intro crashed
            rcases crashes_bind_iff.mp crashed with now | ⟨found, _, later⟩
            · exact ⟨element, List.mem_cons_self, Filter.crashes_eval_iff.mp now⟩
            · obtain ⟨other, held, stumbles⟩ := ih.mp ((crashes_bind_of_safe fun _ =>
                not_crashes_pure _).mp later)
              exact ⟨other, List.mem_cons_of_mem _ held, stumbles⟩
          · rintro ⟨other, held, stumbles⟩
            cases evaluated : filter.eval scope (.obj element) with
            | error failure => exact filter.failsOnly_eval scope (.obj element) failure evaluated
            | ok found =>
                refine (crashes_bind_of_safe fun _ => not_crashes_pure _).mpr (ih.mpr ?_)
                cases held with
                | head =>
                    have crashed := Filter.crashes_eval_iff.mpr stumbles
                    rw [evaluated] at crashed
                    exact crashed.elim
                | tail _ held => exact ⟨other, held, stumbles⟩
      | _ =>
          refine ih.trans (exists_congr fun element => and_congr_left fun _ => ?_)
          simp

end Scim
