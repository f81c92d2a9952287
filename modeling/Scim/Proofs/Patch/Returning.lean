import Scim.Proofs.Patch.Crashing
import Scim.Proofs.Resource.Merging

/-!
# Coming back to a home

A change of the attributes under a URN leaves the home that a path with this URN leads to
where it was, so the path leads there again.  Only the list of declared URNs may stand in
the way: it decides whether a URN is known that neither the schema nor the registry has, and if
the URN is a spelling of the name of this list, the home is the list.
-/

namespace Scim

open Members

variable {schema : ResourceSchema} {path : AttributePath} {attr uri : String}
  {resource after : Members} {home : Home} {f : Members → Members}

/-! ## Known URNs -/

theorem checkUri_eq_ok_iff :
    checkUri resource uri (some schema) = .ok () ↔
      schema.recognizes uri = true ∨ resource.declares uri = .ok true := by
  unfold checkUri
  rw [Option.any_some]
  change (if schema.recognizes uri = true then _ else _) = _ ↔ _
  cases schema.recognizes uri with
  | true => exact iff_of_true rfl (.inl rfl)
  | false =>
      rw [if_neg Bool.false_ne_true]
      cases resource.declares uri with
      | error failure => exact iff_of_false nofun nofun
      | ok declared => cases declared <;> simp [bind, Except.bind, pure, Except.pure, refuse]

/-- Whether a URN is known depends on the declared ones only. -/
theorem checkUri_congr {other : Members}
    (same : get? other "schemas" = get? resource "schemas") (uri : String)
    (schema : Option ResourceSchema) :
    checkUri other uri schema = checkUri resource uri schema := by
  rw [checkUri, checkUri, declares, declares, declared, declared, same]

theorem recognizes_of_urn (core : sameName schema.urn uri = true) :
    schema.recognizes uri = true := by
  rw [ResourceSchema.recognizes, ResourceSchema.knowsUri, ResourceSchema.schemaFor?,
    if_pos ((sameName_comm uri schema.urn).trans core)]
  rfl

theorem recognizes_of_registered (registered : (Schema.find? uri).isSome = true) :
    schema.recognizes uri = true := by
  rw [ResourceSchema.recognizes, registered, Bool.or_true]

/-! ## Changed homes -/

theorem place_modify (members : Members) (key name : String) (g : Json → Json) :
    place (modify members key g) name = place members name := by
  rw [place, place, key?_eq, key?_eq, names_modify]

/-- Where the URN is still known, a path leads to the home that was changed. -/
theorem homeFor_update (found : homeFor resource path (some schema) = .ok (some home))
    (f : Members → Members)
    (known : ∀ uri, path.uri = some uri →
      checkUri (home.update resource f) uri (some schema) = .ok ()) :
    homeFor (home.update resource f) path (some schema) = .ok (some home) := by
  cases uriEq : path.uri with
  | none =>
      rw [homeFor, uriEq] at found ⊢
      exact found
  | some uri =>
      rw [homeFor_of_checkUri uriEq (known uri uriEq)]
      rw [homeFor_of_checkUri uriEq (checkUri_of_homeFor uriEq found)] at found
      cases core : sameName schema.urn uri with
      | true =>
          rw [core] at found
          exact found
      | false =>
          rw [core, if_neg Bool.false_ne_true] at found
          rw [if_neg Bool.false_ne_true]
          split at found
          · next object =>
            cases found
            obtain ⟨_, members, held⟩ := isObj_of_attr object
            rw [Home.update, Members.attr, ← get?_place, place_modify, get?_modify, if_pos rfl,
              held]
            rfl
          · cases found

/-- The URN is still known, unless it is a spelling of the name under which the URNs are
declared. -/
theorem checkUri_update (uriEq : path.uri = some uri) (other : sameName uri "schemas" = false)
    (found : homeFor resource path (some schema) = .ok (some home)) (f : Members → Members) :
    checkUri (home.update resource f) uri (some schema) = .ok () := by
  have before := checkUri_of_homeFor uriEq found
  rw [homeFor_of_checkUri uriEq before] at found
  cases core : sameName schema.urn uri with
  | true => exact checkUri_eq_ok_iff.mpr (.inl (recognizes_of_urn core))
  | false =>
      rw [core, if_neg Bool.false_ne_true] at found
      split at found
      · next object =>
        cases found
        refine (checkUri_congr ?_ uri _).trans before
        rw [Home.update, get?_modify, if_neg]
        intro isPlace
        have spelled := sameName_place resource uri
        rw [← isPlace, (sameName_comm _ _).trans other] at spelled
        cases spelled
      · cases found

/-! ## Declared URNs -/

theorem Json.listed_arr (items : List Json) : (Json.arr items).listed = .ok items := by
  cases items <;> rfl

theorem Json.listed_obj (members : Members) :
    (Json.obj members).listed = .ok ((names members).map .str) := by
  cases members <;> rfl

theorem Json.listed_str (s : String) :
    (Json.str s).listed = .ok (s.toList.map fun c => .str (String.singleton c)) := by
  by_cases empty : s = ""
  · subst empty
    rfl
  · simp [listed, isVoid, empty]

/-- A URN is declared if it is among what is listed for the declared URNs. -/
theorem declares_of_listed (items : List Json) (listed : resource.schemasValue.listed = .ok items)
    (held : items.any (fun u => u.text?.any (sameName · uri)) = true) :
    resource.declares uri = .ok true := by
  rw [declares, declared, ← schemasValue, listed]
  exact congrArg Except.ok held

theorem Patch.any_of_holdsUri {urns : List Json} (holds : holdsUri uri urns = .ok true) :
    urns.any (fun u => u.text?.any (sameName · uri)) = true := by
  induction urns with
  | nil => cases holds
  | cons head rest ih =>
      cases head with
      | str u =>
          rw [holdsUri] at holds
          rw [List.any_cons]
          split at holds
          · next same => exact Bool.or_eq_true_iff.mpr (.inl same)
          · exact Bool.or_eq_true_iff.mpr (.inr (ih holds))
      | _ => cases holds

/-- A URN is declared behind its declaration. -/
theorem Patch.declares_declareSchema (ran : (declareSchema uri).run resource = (.ok (), after)) :
    after.declares uri = .ok true := by
  obtain ⟨_, middle, _, ran⟩ := Action.run_bind_eq_ok_iff.mp ran
  rw [Action.run_update] at ran
  split at ran
  · next changed stepEq =>
    cases ran
    split at stepEq
    · next urns held =>
      obtain ⟨has, searched, rest⟩ := bind_eq_ok_iff.mp stepEq
      cases has with
      | true =>
          cases rest
          refine declares_of_listed urns ?_ (any_of_holdsUri searched)
          rw [schemasValue, held, Json.listed_arr]
      | false =>
          cases rest
          refine declares_of_listed (urns ++ [.str uri]) ?_ ?_
          · rw [schemasValue, get?_set, if_pos rfl, Option.getD_some, Json.listed_arr]
          · simp [Json.text?, sameName_refl]
    · next s held =>
      split at stepEq
      · next found =>
        cases stepEq
        refine declares_of_listed (s.toList.map fun c => .str (String.singleton c)) ?_ ?_
        · rw [schemasValue, held, Json.listed_str]
        · simpa [List.any_map, Json.text?] using found
      · cases stepEq
    · next members held =>
      split at stepEq
      · next found =>
        cases stepEq
        refine declares_of_listed ((names members).map .str) ?_ ?_
        · rw [schemasValue, held, Json.listed_obj]
        · simpa [List.any_map, Json.text?] using found
      · cases stepEq
    · cases stepEq
  · cases ran

/-- A URN stays declared when the object of an extension, be it the list of declared URNs, loses
none of its names. -/
theorem declares_update {key : String} (declared : resource.declares uri = .ok true)
    (grown : ∀ members, get? resource key = some (.obj members) →
      ∀ name ∈ names members, name ∈ names (f members)) :
    Members.declares ((Home.extension key).update resource f) uri = .ok true := by
  have same (kept : get? ((Home.extension key).update resource f) "schemas" =
      get? resource "schemas") :
      Members.declares ((Home.extension key).update resource f) uri = .ok true := by
    rw [declares, Members.declared, kept]
    exact declared
  by_cases here : key = "schemas"
  · subst here
    cases held : get? resource "schemas" with
    | none => exact same (by rw [Home.update, get?_modify, if_pos rfl, held]; rfl)
    | some value =>
        cases value with
        | obj members =>
            obtain ⟨urns, listed, found⟩ := bind_eq_ok_iff.mp declared
            rw [Members.declared, held, Option.getD_some, Json.listed_obj] at listed
            cases listed
            obtain ⟨_, inNames, isUri⟩ := List.any_eq_true.mp (Except.ok.inj found)
            obtain ⟨name, inside, rfl⟩ := List.mem_map.mp inNames
            refine declares_of_listed ((names (f members)).map .str) ?_ ?_
            · rw [schemasValue, Home.update, get?_modify, if_pos rfl, held]
              exact Json.listed_obj (f members)
            · exact List.any_eq_true.mpr
                ⟨.str name, List.mem_map_of_mem (grown members held name inside), isUri⟩
        | _ => exact same (by rw [Home.update, get?_modify, if_pos rfl, held]; rfl)
  · exact same (by rw [Home.update, get?_modify, if_neg (Ne.symm here)])

/-! ## Created homes -/

/-- A path leads to the home that was ensured, with one exception: if its URN is `schemas` and the
object was put under another spelling, where a list of declared URNs was begun under exactly this
name. -/
theorem homeFor_of_ensured {middle : Members}
    (ensured : (Patch.ensureHome (some schema) path).run resource = (.ok home, middle)) :
    homeFor middle path (some schema) = .ok (some home) ∨
      ∃ key urns, home = .extension key ∧ key ≠ "schemas" ∧ path.uri = some "schemas" ∧
        sameName schema.urn "schemas" = false ∧ middle.declares "schemas" = .ok true ∧
        get? middle "schemas" = some (.arr urns) := by
  rcases Patch.ensureHome_cases ensured with ⟨found, rfl⟩ | ⟨uri, uriEq, found, rfl, declares⟩
  · exact .inl found
  · have notCore : sameName schema.urn uri = false := by
      rw [homeFor_of_checkUri uriEq (checkUri_of_homeFor uriEq found)] at found
      cases core : sameName schema.urn uri with
      | false => rfl
      | true =>
          rw [core] at found
          cases found
    have isDeclared := Patch.declares_declareSchema declares
    have stored : key? (setAttr resource uri (.obj [])) uri = some (place resource uri) :=
      key?_setAttr_self resource uri (.obj [])
    obtain ⟨differ, kept⟩ := Patch.created_of_declared declares
    rw [homeFor_of_checkUri uriEq (checkUri_eq_ok_iff.mpr (.inr isDeclared)), notCore,
      if_neg Bool.false_ne_true]
    by_cases same : place middle uri = place resource uri
    · rw [Members.attr, ← get?_place, same, kept]
      exact .inl rfl
    · rcases Patch.declareSchema_cases declares with rfl | ⟨urns, _, _, rfl⟩
      · exact absurd (place_setAttr resource uri (.obj [])) same
      · -- only a spelling that was added can hide another one, and only from its own name
        have added : "schemas" ∉ names (setAttr resource uri (.obj [])) := fun there =>
          same ((place_congr_names (names_set_of_mem there _) uri).trans
            (place_setAttr resource uri (.obj [])))
        have isAdded : uri = "schemas" := by
          by_contra another
          refine same (place_of_key? ?_)
          rw [key?_eq] at stored ⊢
          rw [names_set_of_not_mem added]
          split at stored
          · next exact =>
            rw [if_pos (List.mem_append_left _ exact), stored]
          · next inexact =>
            rw [if_neg (by simp [inexact, another]), List.find?_append, stored, Option.some_or]
        subst isAdded
        exact .inr ⟨_, _, rfl, differ, uriEq, notCore, isDeclared, by rw [get?_set, if_pos rfl]⟩

end Scim
