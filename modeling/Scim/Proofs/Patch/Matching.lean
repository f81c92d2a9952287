import Scim.Proofs.Patch.Crashing

/-!
# Operations on the elements that a filter selects

An operation whose path has a filter selects elements of a list by their indexes and edits
them one after the other.  What comes of it is said without indexes: the elements that
satisfy the filter are changed or go, all at once, and the others stay as they are, in their
order.  It fails to be so only where the filter crashes on an element.
-/

namespace Scim

open Members

variable {schema : ResourceSchema} {path : AttributePath} {attr sub : String} {filter : Filter}
  {value : Json} {items : List Json} {resource : Members}

/-! ## Indexes of elements -/

/-- Whether an element of a list is an object that satisfies a filter in brackets behind a path. The
schema is asked relative to the attribute of the path. -/
def Filter.selects (filter : Filter) (schema : ResourceSchema) (path : AttributePath)
    (item : Json) : Bool :=
  item.isObj && (filter.eval (.within (some schema) path) item).toOption == some true

/-- Where a filter does not crash, the indexes of the elements with a property that it selects are
found. -/
theorem matchingIndexes_having (has : Json → Bool) (start : Nat)
    (safe : ∀ element, .obj element ∈ items →
      ¬ filter.Stumbles (.within (some schema) path) element) :
    (matchingIndexes (.within (some schema) path) filter start items).map
        (fun entries => (entries.filter fun entry => has (.obj entry.2)).map Prod.fst) =
      .ok (items.findIdxs (fun item => filter.selects schema path item && has item) start) := by
  induction items generalizing start with
  | nil => rfl
  | cons item rest ih =>
      have later := ih (start + 1) fun element held =>
        safe element (List.mem_cons_of_mem item held)
      rw [List.findIdxs_cons]
      cases item with
      | obj element =>
          have sound := Filter.crashes_eval_iff.not.mpr (safe element List.mem_cons_self)
          rw [matchingIndexes]
          cases evaluated : filter.eval (.within (some schema) path) (.obj element) with
          | error failure =>
              have crashed := filter.failsOnly_eval _ _ failure evaluated
              exact absurd (by rw [evaluated]; exact crashed) sound
          | ok holds =>
              obtain ⟨others, found, same⟩ := map_eq_ok_iff.mp later
              have selected : filter.selects schema path (.obj element) = holds := by
                rw [Filter.selects, evaluated]
                cases holds <;> rfl
              rw [found, selected, ← same]
              cases holds with
              | false => rfl
              | true =>
                  rw [Bool.true_and]
                  change Except.ok ((List.filter _ ((start, element) :: others)).map Prod.fst) = _
                  rw [List.filter_cons]
                  cases has (.obj element) <;> rfl
      | _ => exact later

/-- Where a filter does not crash, the indexes of the elements that it selects are found. -/
theorem matchingIndexes_fst (start : Nat)
    (safe : ∀ element, .obj element ∈ items →
      ¬ filter.Stumbles (.within (some schema) path) element) :
    (matchingIndexes (.within (some schema) path) filter start items).map (·.map Prod.fst) =
      .ok (items.findIdxs (filter.selects schema path) start) := by
  simpa using matchingIndexes_having (fun _ => true) start safe

namespace Patch

theorem selection_eq_findIdxs (restricted : path.restriction = some filter)
    (safe : ¬ SelectionStumbles schema path (.arr items)) :
    selection (some schema) path filter (.arr items) =
      .ok (items.findIdxs (filter.selects schema path)) := by
  refine matchingIndexes_fst 0 fun element held stumbles => safe ?_
  exact ⟨filter, items, element, restricted, rfl, held, stumbles⟩

/-! ## Elements that are changed or go -/

variable {selects : Json → Bool}

/-- The items of a list with those that are selected changed. -/
def changeSelected (selects : Json → Bool) (f : Json → Json) (items : List Json) : List Json :=
  items.map fun item => if selects item then f item else item

/-- Setting a sub-attribute of the elements of a list that are selected. -/
def settingSelected (schema : Option ResourceSchema) (path : AttributePath) (attr sub : String)
    (value : Json) (selects : Json → Bool) (items : List Json) : Except Failure AttrEdit := do
  let typed ← coerce schema attr (some sub) path.uri value
  return .put (.arr (changeSelected selects (setSubIn sub typed) items))

theorem changeAt_succ (f : Json → Json) (indexes : List Nat) (item : Json) (rest : List Json) :
    changeAt f (indexes.map (· + 1)) (item :: rest) = item :: changeAt f indexes rest := by
  induction indexes generalizing rest with
  | nil => rfl
  | cons index others ih => exact ih (rest.modify index f)

theorem removeAt_succ (indexes : List Nat) (item : Json) (rest : List Json) :
    removeAt (indexes.map (· + 1)) (item :: rest) = item :: removeAt indexes rest := by
  induction indexes with
  | nil => rfl
  | cons index others ih =>
      change (removeAt (others.map (· + 1)) (item :: rest)).eraseIdx (index + 1) = _
      rw [ih]
      rfl

theorem changeAt_findIdxs (f : Json → Json) (items : List Json) :
    changeAt f (items.findIdxs selects) items = changeSelected selects f items := by
  induction items with
  | nil => rfl
  | cons item rest ih =>
      rw [List.findIdxs_cons, List.findIdxs_start, changeSelected, List.map_cons]
      cases selects item with
      | true =>
          change changeAt f ((rest.findIdxs selects).map (· + 1)) (f item :: rest) = _
          rw [changeAt_succ, ih]
          rfl
      | false =>
          rw [if_neg Bool.false_ne_true, changeAt_succ, ih]
          rfl

theorem removeAt_findIdxs (items : List Json) :
    removeAt (items.findIdxs selects) items = items.filter (!selects ·) := by
  induction items with
  | nil => rfl
  | cons item rest ih =>
      rw [List.findIdxs_cons, List.findIdxs_start, List.filter_cons]
      cases selects item with
      | true =>
          change (removeAt ((rest.findIdxs selects).map (· + 1)) (item :: rest)).eraseIdx 0 = _
          rw [removeAt_succ, ih]
          rfl
      | false =>
          rw [if_neg Bool.false_ne_true, removeAt_succ, ih]
          rfl

theorem settingAt_findIdxs {schema : Option ResourceSchema} {indexes : List Nat}
    (are : items.findIdxs selects = indexes) :
    settingAt schema path attr sub value indexes (.arr items) =
      settingSelected schema path attr sub value selects items := by
  subst are
  unfold settingAt settingSelected
  apply bind_congr
  intro typed
  rw [← changeAt_findIdxs]
  rfl

end Patch

/-! ## Decisions about selected elements -/

open Patch

/-- What becomes of a list if an operation at a path is applied to the elements that are selected,
or the refusal. Without a selected element there is nothing to replace and nothing to set a
sub-attribute of, and an addition appends the values that are missing. -/
def PatchOperation.onSelected (operation : PatchOperation) (schema : ResourceSchema)
    (path : AttributePath) (attr : String) (selects : Json → Bool) (items : List Json) :
    Except Failure AttrEdit :=
  match operation.op, path.sub with
  | .remove, some sub => .ok (.put (.arr (changeSelected selects (deleteSubIn sub) items)))
  | .remove, none =>
    .ok (if items.any selects then .unlessEmpty (.arr (items.filter (!selects ·))) else .keep)
  | .add, none =>
    .ok (if items.any selects then .keep
      else .put (.arr (addMissing items (asItems operation.value))))
  | .replace, none =>
    if items.any selects then
      .ok (.put (.arr (changeSelected selects (replaceElement operation.value) items)))
    else noMatch path
  | _, some sub =>
    if items.any selects then
      settingSelected (some schema) path attr sub operation.value selects items
    else noMatch path

theorem any_eq_false_of_findIdxs {selects : Json → Bool} (none : items.findIdxs selects = []) :
    items.any selects = false :=
  List.any_eq_false.mpr fun item held => by simp [List.findIdxs_eq_nil_iff.mp none item held]

theorem any_of_findIdxs {selects : Json → Bool} {index : Nat} {rest : List Nat}
    (some : items.findIdxs selects = index :: rest) : items.any selects = true := by
  by_contra missing
  rw [Bool.not_eq_true, List.any_eq_false] at missing
  rw [List.findIdxs_eq_nil_iff.mpr fun item held => by simpa using missing item held] at some
  cases some

/-- Where the filter does not crash, an operation decides on the selected elements at once. -/
theorem PatchOperation.decision_eq_onSelected (operation : PatchOperation)
    (restricted : path.restriction = some filter)
    (safe : ¬ SelectionStumbles schema path (.arr items)) :
    operation.decision (some schema) path attr (.arr items) =
      operation.onSelected schema path attr (filter.selects schema path) items := by
  obtain ⟨op, _, value⟩ := operation
  have found := selection_eq_findIdxs restricted safe
  generalize filter.selects schema path = selects at found
  unfold onSelected
  cases op with
  | add =>
      change addition (some schema) path attr value (.arr items) = _
      unfold addition
      rw [restricted]
      cases path.sub with
      | none =>
          dsimp only
          rw [found]
          cases indexes : items.findIdxs selects with
          | nil => rw [any_eq_false_of_findIdxs indexes]; rfl
          | cons index rest => rw [any_of_findIdxs indexes]; rfl
      | some sub =>
          dsimp only
          rw [found]
          cases indexes : items.findIdxs selects with
          | nil => rw [any_eq_false_of_findIdxs indexes]; rfl
          | cons index rest =>
              rw [any_of_findIdxs indexes, if_pos rfl, ← settingAt_findIdxs indexes]
              rfl
  | replace =>
      change replacement (some schema) path attr value (.arr items) = _
      unfold replacement
      rw [restricted]
      cases path.sub with
      | none =>
          dsimp only
          rw [found]
          cases indexes : items.findIdxs selects with
          | nil => rw [any_eq_false_of_findIdxs indexes]; rfl
          | cons index rest =>
              rw [any_of_findIdxs indexes, if_pos rfl, ← changeAt_findIdxs, indexes]
              rfl
      | some sub =>
          dsimp only
          rw [found]
          cases indexes : items.findIdxs selects with
          | nil => rw [any_eq_false_of_findIdxs indexes]; rfl
          | cons index rest =>
              rw [any_of_findIdxs indexes, if_pos rfl, ← settingAt_findIdxs indexes]
              rfl
  | remove =>
      change removal (some schema) path value (.arr items) = _
      unfold removal
      rw [restricted]
      change (selection (some schema) path filter (.arr items) >>= _) = _
      rw [found]
      cases path.sub with
      | none =>
          cases indexes : items.findIdxs selects with
          | nil => rw [any_eq_false_of_findIdxs indexes]; rfl
          | cons index rest =>
              have gone : removeAt (index :: rest) (itemsOf (.arr items)) =
                  items.filter (!selects ·) := indexes ▸ removeAt_findIdxs items
              rw [any_of_findIdxs indexes, if_pos rfl, ← gone]
              rfl
      | some sub =>
          dsimp only
          rw [← changeAt_findIdxs]
          rfl

/-! ## Operations on selected elements -/

theorem PatchOperation.not_crashes_onSelected (operation : PatchOperation) {selects : Json → Bool} :
    ¬ Crashes (operation.onSelected schema path attr selects items) := by
  have setting (sub : String) :
      ¬ Crashes (settingSelected (some schema) path attr sub operation.value selects items) :=
    (crashes_bind_of_safe fun _ => not_crashes_pure _).not.mpr (not_crashes_coerce _ _ _ _ _)
  unfold onSelected
  split
  · exact not_crashes_ok _
  · exact not_crashes_ok _
  · exact not_crashes_ok _
  · split
    · exact not_crashes_ok _
    · exact not_crashes_refuse _
  · split
    · exact setting _
    · exact not_crashes_refuse _

theorem PatchOperation.crashes_decision_iff (operation : PatchOperation) (attr : String)
    {current : Json} :
    Crashes (operation.decision (some schema) path attr current) ↔
      SelectionStumbles schema path current := by
  obtain ⟨op, _, value⟩ := operation
  cases op with
  | add => exact crashes_addition_iff
  | replace => exact crashes_replacement_iff
  | remove => exact crashes_removal_iff

theorem PatchOperation.crashes_outcome_iff (decision : Except Failure AttrEdit) (attr : String)
    (resource : Members) : Crashes (outcome decision attr resource).1 ↔ Crashes decision := by
  cases decision <;> rfl

/-- An operation with a filter changes, removes or is refused for exactly the elements that the
filter selects, where the filter does not crash on an element of the list, and nowhere else. -/
theorem PatchOperation.run_restricted_iff {operation : PatchOperation} {text : String}
    (textEq : operation.path = some text) (parsed : PathOf.parse text = .ok path)
    (noUri : path.uri = none) (attrEq : path.attr = some attr)
    (restricted : path.restriction = some filter)
    (modifiable : checkMutable (some schema) path = .ok ())
    (held : Members.attr resource attr = .arr items) :
    (operation.apply (some schema)).run resource =
        outcome (operation.onSelected schema path attr (filter.selects schema path) items)
          attr resource ↔
      ¬ SelectionStumbles schema path (.arr items) := by
  rw [run_apply textEq parsed noUri attrEq, modifiable, held]
  change outcome (operation.decision (some schema) path attr (.arr items)) attr resource = _ ↔ _
  constructor
  · intro same stumbles
    have crashed := (crashes_outcome_iff _ attr resource).mpr
      ((operation.crashes_decision_iff attr).mpr stumbles)
    rw [same, crashes_outcome_iff] at crashed
    exact operation.not_crashes_onSelected crashed
  · intro safe
    rw [operation.decision_eq_onSelected restricted safe]

/-- A text is read as a modifiable path with a filter and without a URN. -/
theorem exists_restricted_path (schema : ResourceSchema) (text attr : String)
    (read : ((PathOf.parse text).toOption.map fun path =>
      (path.uri, path.attr, path.restriction.isSome, (checkMutable (some schema) path).toOption)) =
        some (none, some attr, true, some ())) :
    ∃ path filter, PathOf.parse text = .ok path ∧ path.uri = none ∧ path.attr = some attr ∧
      path.restriction = some filter ∧ checkMutable (some schema) path = .ok () := by
  obtain ⟨path, parsed, parts⟩ := Option.map_eq_some_iff.mp read
  obtain ⟨noUri, parts⟩ := Prod.mk.inj parts
  obtain ⟨attrEq, parts⟩ := Prod.mk.inj parts
  obtain ⟨isSome, checked⟩ := Prod.mk.inj parts
  obtain ⟨filter, restricted⟩ := Option.isSome_iff_exists.mp isSome
  exact ⟨path, filter, eq_ok_of_toOption parsed, noUri, attrEq, restricted,
    eq_ok_of_toOption checked⟩

/-- A value for the elements of one type. -/
theorem PatchOperation.run_restricted_iff_work :
    let items : List Json := [.obj [("type", .str "work"), ("value", .str "a")], .str "b"]
    let resource : Members := [("emails", .arr items)]
    let text := "emails[type eq \"work\"].value"
    let operation : PatchOperation := ⟨.replace, some text, .str "c"⟩
    ∃ path filter, PathOf.parse text = .ok path ∧ path.uri = none ∧ path.attr = some "emails" ∧
      path.restriction = some filter ∧ checkMutable (some .user) path = .ok () ∧
      Members.attr resource "emails" = .arr items ∧
      ((operation.apply (some .user)).run resource =
          outcome (operation.onSelected .user path "emails" (filter.selects .user path) items)
            "emails" resource ↔
        ¬ SelectionStumbles .user path (.arr items)) := by
  intro items resource text operation
  obtain ⟨path, filter, parsed, noUri, attrEq, restricted, modifiable⟩ :=
    exists_restricted_path .user text "emails" (by decide +kernel)
  have held : Members.attr resource "emails" = .arr items := rfl
  exact ⟨path, filter, parsed, noUri, attrEq, restricted, modifiable, held,
    run_restricted_iff rfl parsed noUri attrEq restricted modifiable held⟩

/-- An element whose own `schemas` is no list crashes a filter that asks it for a URN. -/
theorem PatchOperation.not_run_onSelected :
    ¬ ∀ (schema : ResourceSchema) (operation : PatchOperation) (text : String)
        (path : AttributePath) (attr : String) (filter : Filter) (resource : Members)
        (items : List Json), operation.path = some text → PathOf.parse text = .ok path →
      path.uri = none → path.attr = some attr → path.restriction = some filter →
      checkMutable (some schema) path = .ok () → Members.attr resource attr = .arr items →
      (operation.apply (some schema)).run resource =
        outcome (operation.onSelected schema path attr (filter.selects schema path) items)
          attr resource := by
  intro always
  let items : List Json := [.obj [("schemas", .bool true), ("value", .str "a")]]
  let resource : Members := [("emails", .arr items)]
  let text := "emails[urn:x:y:z eq 1]"
  let operation : PatchOperation := ⟨.replace, some text, .obj [("value", .str "b")]⟩
  have crashed : Crashes ((operation.apply (some .user)).run resource).1 := by decide +kernel
  obtain ⟨path, filter, parsed, noUri, attrEq, restricted, modifiable⟩ :=
    exists_restricted_path .user text "emails" (by decide +kernel)
  have same := always .user operation text path "emails" filter resource items rfl parsed noUri
    attrEq restricted modifiable rfl
  rw [same, crashes_outcome_iff] at crashed
  exact operation.not_crashes_onSelected crashed

end Scim
