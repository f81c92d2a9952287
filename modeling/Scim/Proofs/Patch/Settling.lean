import Scim.Proofs.Json.Reflexivity
import Scim.Proofs.Patch.Gathering
import Scim.Proofs.Patch.Matching
import Scim.Proofs.Patch.Naming
import Scim.Proofs.Resource.Merging

/-!
# Decisions that settle

What an addition or a replacement puts in place may be of another kind than what was there:
a list where nothing was, an object where there was a text.  So the same operation may come to
another branch when it is decided again.  It puts the same in place again nonetheless, or keeps
what is there.
-/

namespace Scim

open Members Json

variable {schema : Option ResourceSchema} {path : AttributePath} {attr sub : String}
  {uri : Option String} {value current stored typed : Json} {items values : List Json}
  {edit : AttrEdit}

namespace Patch

/-! ## Adding to lists -/

theorem addMissing_cons (items : List Json) (value : Json) (rest : List Json) :
    addMissing items (value :: rest) =
      addMissing (if containedIn value items then items else items ++ [value]) rest := rfl

theorem addMissing_of_contained (all : ∀ value ∈ values, containedIn value items = true) :
    addMissing items values = items := by
  induction values with
  | nil => rfl
  | cons value rest ih =>
      obtain ⟨first, others⟩ := List.forall_mem_cons.mp all
      rw [addMissing_cons, first, if_pos rfl, ih others]

theorem containedIn_of_mem (self : value.same value = true) (held : value ∈ items) :
    containedIn value items = true :=
  List.any_eq_true.mpr ⟨value, held, self⟩

theorem containedIn_addMissing (each : ∀ value ∈ values, value.same value = true)
    (items : List Json) : ∀ value ∈ values, containedIn value (addMissing items values) = true := by
  induction values generalizing items with
  | nil => nofun
  | cons first rest ih =>
      obtain ⟨self, others⟩ := List.forall_mem_cons.mp each
      intro value held
      rcases List.mem_cons.mp held with rfl | inRest
      · have there : containedIn value
            (if containedIn value items then items else items ++ [value]) = true := by
          split
          · assumption
          · exact containedIn_of_mem self (by simp)
        obtain ⟨item, inside, same⟩ := List.any_eq_true.mp there
        exact List.any_eq_true.mpr ⟨item, (prefix_addMissing _ rest).subset inside, same⟩
      · exact ih others _ value inRest

/-- Adding the same values again adds nothing. -/
theorem addMissing_addMissing (each : ∀ value ∈ values, value.same value = true)
    (items : List Json) : addMissing (addMissing items values) values = addMissing items values :=
  addMissing_of_contained (containedIn_addMissing each items)

theorem mem_or_mem_of_mem_addMissing (held : value ∈ addMissing items values) :
    value ∈ items ∨ value ∈ values := by
  induction values generalizing items with
  | nil => exact .inl held
  | cons first rest ih =>
      rw [addMissing_cons] at held
      rcases ih held with before | later
      · split at before
        · exact .inl before
        · rcases List.mem_append.mp before with stored | new
          · exact .inl stored
          · exact .inr (List.mem_cons.mpr (.inl (List.mem_singleton.mp new)))
      · exact .inr (List.mem_cons_of_mem _ later)

theorem wellFormed_asItems (wellFormed : value.WellFormed) :
    ∀ item ∈ asItems value, item.WellFormed := by
  cases value with
  | arr items => exact wellFormed.of_mem
  | _ =>
      intro item held
      cases List.mem_singleton.mp held
      exact wellFormed

theorem appending_again (wellFormed : value.WellFormed) (items : List Json) :
    appending value (.arr (addMissing items (asItems value))) =
      .put (.arr (addMissing items (asItems value))) := by
  have each := wellFormed_asItems wellFormed
  rw [appending, itemsOf, addMissing_addMissing fun item held => (each item held).same_self]

/-! ## Setting values -/

theorem wellFormed_coerce {sub : Option String} (wellFormed : value.WellFormed)
    (typedEq : coerce schema attr sub uri value = .ok typed) : typed.WellFormed := by
  rcases coerce_eq_ok typedEq with rfl | ⟨b, rfl⟩
  · exact wellFormed
  · exact .scalar rfl

/-- A value that a sub-attribute is set to; with `merge`, an object is merged into an object that is
there. -/
def mergedInto (merge : Bool) (existing typed : Json) : Json :=
  match merge, existing, typed with
  | true, .obj existing, .obj values => .obj (Members.merge existing values)
  | _, _, _ => typed

theorem mergedInto_self (merge : Bool) (wellFormed : typed.WellFormed) :
    mergedInto merge typed typed = typed := by
  cases merge with
  | false => rfl
  | true =>
      cases typed with
      | obj values => rw [mergedInto, merge_self wellFormed.nodup]
      | _ => rfl

theorem mergedInto_mergedInto (merge : Bool) (existing : Json) (wellFormed : typed.WellFormed) :
    mergedInto merge (mergedInto merge existing typed) typed = mergedInto merge existing typed := by
  cases merge with
  | false => rfl
  | true =>
      cases typed with
      | obj values =>
          cases existing with
          | obj members => rw [mergedInto, mergedInto, merge_merge_self]
          | _ => exact mergedInto_self true wellFormed
      | _ => cases existing <;> rfl

theorem settingSub_obj {merge : Bool}
    (typedEq : coerce schema attr (some sub) path.uri value = .ok typed) (element : Members) :
    settingSub schema path attr sub merge value (.obj element) =
      .ok (.put (.obj (setAttr element sub
        (mergedInto merge (Members.attr element sub) typed)))) := by
  rw [settingSub, typedEq]
  rfl

/-- A sub-attribute that was set is set to the same again. -/
theorem settingSub_again {merge : Bool} (wellFormed : value.WellFormed)
    (set : settingSub schema path attr sub merge value current = .ok edit) :
    ∃ stored, edit = .put stored ∧
      settingSub schema path attr sub merge value stored = .ok (.put stored) := by
  obtain ⟨typed, typedEq, put⟩ := bind_eq_ok_iff.mp set
  have wellFormed := wellFormed_coerce wellFormed typedEq
  cases current with
  | null =>
      cases put
      refine ⟨_, rfl, ?_⟩
      have created : [(sub, typed)] = setAttr [] sub typed := rfl
      rw [settingSub_obj typedEq, created, attr_setAttr_self, mergedInto_self merge wellFormed,
        setAttr_setAttr]
  | arr items =>
      cases put
      refine ⟨_, rfl, ?_⟩
      have twice : setSubIn sub typed ∘ setSubIn sub typed = setSubIn sub typed := by
        funext item
        cases item with
        | obj element => exact congrArg Json.obj (setAttr_setAttr element sub typed typed)
        | _ => rfl
      rw [settingSub, typedEq]
      change Except.ok (AttrEdit.put (.arr ((items.map _).map _))) = _
      rw [List.map_map, twice]
  | obj element =>
      rw [settingSub_obj typedEq] at set
      cases set
      refine ⟨_, rfl, ?_⟩
      rw [settingSub_obj typedEq, attr_setAttr_self, mergedInto_mergedInto merge _ wellFormed,
        setAttr_setAttr]
  | _ => cases put

/-- A single value that was set is set to the same again; if it is a list, it was given as one. -/
theorem settingSingle_again (wellFormed : value.WellFormed)
    (set : settingSingle schema uri attr value current = .ok edit) :
    ∃ stored, edit = .put stored ∧ (stored.isArr = true → stored = value) ∧
      settingSingle schema uri attr value stored = .ok (.put stored) := by
  unfold settingSingle at set
  split at set
  · next members values =>
    cases set
    refine ⟨_, rfl, nofun, ?_⟩
    rw [settingSingle, merge_merge_self]
    rfl
  · obtain ⟨typed, typedEq, put⟩ := bind_eq_ok_iff.mp set
    cases put
    refine ⟨typed, rfl, fun isList => ?_, ?_⟩
    · rcases coerce_eq_ok typedEq with same | ⟨b, rfl⟩
      · exact same
      · cases isList
    · unfold settingSingle
      split
      · next members values =>
        -- the object itself is merged into what it was stored as
        rcases coerce_eq_ok typedEq with same | ⟨b, isBool⟩
        · cases same
          rw [merge_self wellFormed.nodup]
          rfl
        · cases isBool
      · rw [typedEq]
        rfl

/-! ## Decisions -/

/-- What is decided for an attribute that may be treated as a list is decided again. -/
theorem treated_again (listed : Json → AttrEdit) (wellFormed : value.WellFormed)
    (lists : ∀ current, ∃ items, listed current = .put (.arr items) ∧
      listed (.arr items) = .put (.arr items))
    (given : value.isArr = true → listed value = .put value)
    (decided : (if isMultiValued schema attr uri current value then .ok (listed current)
      else settingSingle schema uri attr value current) = .ok edit) :
    ∃ stored, edit = .put stored ∧
      (if isMultiValued schema attr uri stored value then .ok (listed stored)
        else settingSingle schema uri attr value stored) = .ok (.put stored) := by
  have asList {stored : Json} (isList : stored.isArr = true) :
      isMultiValued schema attr uri stored value = true := by
    rw [isMultiValued, isList, Bool.true_or]
  split at decided
  · obtain ⟨items, put, again⟩ := lists current
    rw [put] at decided
    cases decided
    exact ⟨_, rfl, by rw [asList rfl, if_pos rfl, again]⟩
  · next single =>
    obtain ⟨stored, rfl, isGiven, again⟩ := settingSingle_again wellFormed decided
    refine ⟨stored, rfl, ?_⟩
    cases isList : stored.isArr with
    | true =>
        cases isGiven isList
        rw [asList isList, if_pos rfl, given isList]
    | false =>
        rw [isMultiValued, Bool.not_eq_true, Bool.or_eq_false_iff] at single
        rw [isMultiValued, isList, Bool.false_or, single.2, if_neg Bool.false_ne_true, again]

theorem addition_again (wellFormed : value.WellFormed) (unrestricted : path.restriction = none)
    (added : addition schema path attr value current = .ok edit) :
    ∃ stored, edit = .put stored ∧
      addition schema path attr value stored = .ok (.put stored) := by
  unfold addition at added ⊢
  rw [unrestricted] at added ⊢
  cases subEq : path.sub with
  | some sub =>
      rw [subEq] at added
      exact settingSub_again wellFormed added
  | none =>
      rw [subEq] at added
      refine treated_again (appending value) wellFormed (fun current => ?_) (fun isList => ?_) added
      · exact ⟨_, rfl, appending_again wellFormed _⟩
      · cases value with
        | arr items =>
            have each : ∀ item ∈ items, containedIn item items = true := fun item held =>
              containedIn_of_mem (wellFormed.of_mem item held).same_self held
            rw [appending, itemsOf, asItems, addMissing_of_contained each]
        | _ => cases isList

theorem replacement_again (wellFormed : value.WellFormed) (unrestricted : path.restriction = none)
    (replaced : replacement schema path attr value current = .ok edit) :
    ∃ stored, edit = .put stored ∧
      replacement schema path attr value stored = .ok (.put stored) := by
  unfold replacement at replaced ⊢
  rw [unrestricted] at replaced ⊢
  cases subEq : path.sub with
  | some sub =>
      rw [subEq] at replaced
      exact settingSub_again wellFormed replaced
  | none =>
      rw [subEq] at replaced
      refine treated_again (fun _ => .put (.arr (asItems value))) wellFormed
        (fun current => ⟨_, rfl, rfl⟩) (fun isList => ?_) replaced
      cases value with
      | arr items => rfl
      | _ => cases isList

/-- Under a filter an addition keeps a list that has a selected element, and else appends to it. -/
theorem addition_restricted_eq {filter : Filter} (restricted : path.restriction = some filter)
    (noSub : path.sub = none) (current : Json) :
    addition schema path attr value current = do
      match ← selection schema path filter current with
      | [] => return appending value current
      | _ => return .keep := by
  obtain ⟨_, _, restriction, sub⟩ := path
  cases restricted
  cases noSub
  rfl

theorem keeps_or_appends {filter : Filter} (restricted : path.restriction = some filter)
    (noSub : path.sub = none) (added : addition schema path attr value current = .ok edit) :
    edit = .keep ∨ edit = appending value current := by
  rw [addition_restricted_eq restricted noSub] at added
  obtain ⟨indexes, _, added⟩ := bind_eq_ok_iff.mp added
  cases indexes with
  | nil => exact .inr (Except.ok.inj added).symm
  | cons index rest => exact .inl (Except.ok.inj added).symm

/-- What was kept is kept again, and a list that was appended to is kept, or appended to with no
effect, if the filter does not crash on it. -/
theorem addition_restricted_again {schema : ResourceSchema} {filter : Filter}
    (wellFormed : value.WellFormed) (restricted : path.restriction = some filter)
    (noSub : path.sub = none)
    (added : addition (some schema) path attr value current = .ok edit) :
    edit = .keep ∨ ∃ stored, edit = .put stored ∧ (¬ SelectionStumbles schema path stored →
      addition (some schema) path attr value stored = .ok .keep ∨
        addition (some schema) path attr value stored = .ok (.put stored)) := by
  rcases keeps_or_appends restricted noSub added with kept | appended
  · exact .inl kept
  · refine .inr ⟨_, appended, fun safe => ?_⟩
    rw [addition_restricted_eq restricted noSub, selection_eq_findIdxs restricted safe]
    cases (addMissing (itemsOf current) (asItems value)).findIdxs (filter.selects schema path) with
    | cons index rest => exact .inl rfl
    | nil =>
        refine .inr ?_
        change Except.ok (appending value _) = _
        rw [appending_again wellFormed]

end Patch

/-! ## Operations -/

namespace PatchOperation

variable {operation : PatchOperation} {schema : ResourceSchema} {members : Members}

/-- Whether an operation can be expected to change nothing when it is applied again: it adds or
replaces at a path without a filter, or adds to a list unless a filter selects an element of it. -/
def IsRepeatable (operation : PatchOperation) (path : AttributePath) : Prop :=
  operation.op ≠ .remove ∧ path.restriction = none ∨ operation.op = .add ∧ path.sub = none

theorem IsRepeatable.sets (repeatable : operation.IsRepeatable path) : operation.op ≠ .remove := by
  rcases repeatable with ⟨sets, _⟩ | ⟨isAdd, _⟩
  · exact sets
  · rw [isAdd]
    nofun

/-- What an operation put in place it keeps or puts there again, if the filter does not crash. -/
theorem decision_settles (repeatable : operation.IsRepeatable path)
    (wellFormed : operation.value.WellFormed)
    (decided : operation.decision (some schema) path attr current = .ok edit) :
    edit = .keep ∨ ∃ stored, edit = .put stored ∧ (¬ Patch.SelectionStumbles schema path stored →
      operation.decision (some schema) path attr stored = .ok .keep ∨
        operation.decision (some schema) path attr stored = .ok (.put stored)) := by
  obtain ⟨op, _, value⟩ := operation
  rcases repeatable with ⟨sets, unrestricted⟩ | ⟨rfl, noSub⟩
  · cases op with
    | remove => exact absurd rfl sets
    | add =>
        obtain ⟨stored, put, again⟩ := Patch.addition_again wellFormed unrestricted decided
        exact .inr ⟨stored, put, fun _ => .inr again⟩
    | replace =>
        obtain ⟨stored, put, again⟩ := Patch.replacement_again wellFormed unrestricted decided
        exact .inr ⟨stored, put, fun _ => .inr again⟩
  · cases restricted : path.restriction with
    | none =>
        obtain ⟨stored, put, again⟩ := Patch.addition_again wellFormed restricted decided
        exact .inr ⟨stored, put, fun _ => .inr again⟩
    | some filter => exact Patch.addition_restricted_again wellFormed restricted noSub decided

/-- An operation that is decided again keeps the attribute as it left it, if the filter does not
crash there. -/
theorem decision_again (repeatable : operation.IsRepeatable path)
    (wellFormed : operation.value.WellFormed)
    (decided : operation.decision (some schema) path attr (Members.attr members attr) = .ok edit)
    (safe : ¬ Patch.SelectionStumbles schema path (Members.attr (edit.on attr members) attr)) :
    ∃ again, operation.decision (some schema) path attr (Members.attr (edit.on attr members) attr) =
        .ok again ∧ again.on attr (edit.on attr members) = edit.on attr members := by
  rcases decision_settles repeatable wellFormed decided with rfl | ⟨stored, rfl, settles⟩
  · exact ⟨.keep, decided, rfl⟩
  · rw [AttrEdit.on, attr_setAttr_self] at safe ⊢
    rcases settles safe with kept | put
    · exact ⟨.keep, kept, rfl⟩
    · exact ⟨.put stored, put, setAttr_setAttr members attr stored stored⟩

/-- An object of the list behind an operation on which the filter crashes was given to it. -/
theorem exists_given_of_stumbles (repeatable : operation.IsRepeatable path)
    (decided : operation.decision (some schema) path attr (Members.attr members attr) = .ok edit)
    (stumbles :
      Patch.SelectionStumbles schema path (Members.attr (edit.on attr members) attr)) :
    ∃ filter items element, path.restriction = some filter ∧
      Members.attr (edit.on attr members) attr = .arr items ∧ .obj element ∈ items ∧
      .obj element ∈ Patch.asItems operation.value ∧
      filter.Stumbles (.within (some schema) path) element := by
  obtain ⟨filter, items, element, restricted, held, inside, crashes⟩ := stumbles
  refine ⟨filter, items, element, restricted, held, inside, ?_, crashes⟩
  obtain ⟨op, _, value⟩ := operation
  rcases repeatable with ⟨_, unrestricted⟩ | ⟨rfl, noSub⟩
  · rw [unrestricted] at restricted
    cases restricted
  · change Patch.addition (some schema) path attr value (Members.attr members attr) = _ at decided
    have safe : ¬ Patch.SelectionStumbles schema path (Members.attr members attr) := by
      rw [← Patch.crashes_addition_iff, decided]
      exact not_crashes_ok _
    rcases Patch.keeps_or_appends restricted noSub decided with rfl | rfl
    · exact absurd ⟨filter, items, element, restricted, held, inside, crashes⟩ safe
    · rw [Patch.appending, AttrEdit.on, attr_setAttr_self] at held
      cases held
      rcases Patch.mem_or_mem_of_mem_addMissing inside with stored | given
      · cases was : Members.attr members attr with
        | arr before =>
            rw [was] at stored
            exact absurd ⟨filter, before, element, restricted, was, stored, crashes⟩ safe
        | _ =>
            rw [was] at stored
            cases stored
      · exact given

end PatchOperation

end Scim
