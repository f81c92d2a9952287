import Scim.Proofs.Patch.Decisions

/-!
# Carrying decisions out

What an operation does in the home of its attribute is what it decides there.  The slots of
the elements that a filter selects are slots of one list, so that changing them one after
the other is one change of this list.
-/

namespace Scim

open Members

namespace Patch

variable {schema : Option ResourceSchema} {path : AttributePath} {attr sub : String}
  {value : Json} {members resource : Members} {home : Home}

/-! ## Elements of a list -/

/-- Changes the items of a list that is an attribute. -/
def onItems (key : String) (f : List Json → List Json) (members : Members) : Members :=
  match Members.attr members key with
  | .arr items => setAttr members key (.arr (f items))
  | _ => members

/-- The slot of an element of a list. -/
def elementAt (home : Home) (key : String) (index : Nat) : Location := ⟨home, key, some index, none⟩

theorem onItems_onItems {key : String} (f g : List Json → List Json) :
    onItems key g (onItems key f members) = onItems key (g ∘ f) members := by
  cases held : Members.attr members key with
  | arr items => simp only [onItems, held, attr_setAttr_self, setAttr_setAttr, Function.comp]
  | _ => simp only [onItems, held]

theorem onItems_self {key : String} {f : List Json → List Json}
    (unchanged : ∀ items, f items = items) : onItems key f members = members := by
  unfold onItems
  split
  · next items held =>
    rw [unchanged]
    exact setAttr_of_attr? (attr?_eq_some_of_attr held rfl)
  · rfl

/-- The items of a list are those under its stored spelling. -/
theorem onItems_place {items : List Json} (held : Members.attr members attr = .arr items)
    (f : List Json → List Json) :
    onItems (place members attr) f members = setAttr members attr (.arr (f items)) := by
  rw [onItems, attr_place, held]
  exact setAttr_place (isSome_key?_of_attr held rfl) _

end Patch

namespace Home

theorem update_update (home : Home) (resource : Members) (f g : Members → Members) :
    home.update (home.update resource f) g = home.update resource (g ∘ f) := by
  cases home with
  | core => rfl
  | extension key =>
      simp only [update, modify_modify]
      congr 1
      funext value
      cases value <;> rfl

theorem update_self {home : Home} {resource : Members} {f : Members → Members}
    (unchanged : ∀ members, f members = members) : home.update resource f = resource := by
  cases home with
  | core => exact unchanged resource
  | extension key =>
      have same : f = id := funext unchanged
      rw [update, same]
      refine Eq.trans ?_ (modify_id resource key)
      congr 1
      funext value
      cases value <;> rfl

end Home

namespace Patch

variable {schema : Option ResourceSchema} {path : AttributePath} {attr sub : String}
  {value : Json} {members resource : Members} {home : Home}

/-- Changes of elements one after the other are one change of the list. -/
theorem foldl_updateElement (home : Home) (key : String) (f : Json → Json) (indexes : List Nat)
    (resource : Members) :
    (indexes.map (elementAt home key)).foldl
        (fun resource location => location.updateElement resource f) resource =
      home.update resource (onItems key (changeAt f indexes)) := by
  induction indexes generalizing resource with
  | nil => exact (Home.update_self fun members => onItems_self fun _ => rfl).symm
  | cons index rest ih =>
      rw [List.map_cons, List.foldl_cons, ih]
      have first : (elementAt home key index).updateElement resource f =
          home.update resource (onItems key (·.modify index f)) := rfl
      rw [first, Home.update_update]
      congr 1
      funext members
      exact onItems_onItems _ _

/-- Removing elements from the last on is one change of the list. -/
theorem foldr_delete (home : Home) (key : String) (indexes : List Nat) (resource : Members) :
    (indexes.map (elementAt home key)).foldr
        (fun location resource => location.delete resource) resource =
      home.update resource (onItems key (removeAt indexes)) := by
  induction indexes with
  | nil => exact (Home.update_self fun members => onItems_self fun _ => rfl).symm
  | cons index rest ih =>
      rw [List.map_cons, List.foldr_cons, ih]
      have last (before : Members) : (elementAt home key index).delete before =
          home.update before (onItems key (·.eraseIdx index)) := rfl
      rw [last, Home.update_update]
      congr 1
      funext members
      exact onItems_onItems _ _

/-! ## Elements that a restriction selects -/

section

variable {filter : Filter} (restricted : path.restriction = some filter)
  (attrEq : path.attr = some attr)
include restricted attrEq

theorem matching_eq {items : List Json}
    (found : homeFor resource path schema = .ok (some home))
    (held : Members.attr (home.members resource) attr = .arr items) :
    matching schema path resource =
      (selection schema path filter (.arr items)).map
        (·.map (elementAt home (place (home.members resource) attr))) := by
  have stored := attr?_eq_some_of_attr held rfl
  cases keyEq : key? (home.members resource) attr with
  | none =>
      rw [attr?, keyEq] at stored
      cases stored
  | some key =>
      rw [attr?, keyEq, Option.bind_some] at stored
      obtain ⟨uri, _, _, sub⟩ := path
      cases restricted
      cases attrEq
      have same : homeFor resource ⟨uri, some attr, some filter, none⟩ schema = .ok (some home) :=
        found
      -- the sub-attribute plays no part in the scope of the filter
      have scope : Scope.within schema (⟨uri, some attr, some filter, none⟩ : AttributePath) =
          .within schema ⟨uri, some attr, some filter, sub⟩ := rfl
      unfold matching resolve
      rw [same, place_of_key? keyEq]
      dsimp only [bind, Except.bind]
      rw [keyEq]
      dsimp only
      rw [stored]
      change (matchingIndexes (.within schema ⟨uri, some attr, some filter, none⟩) filter 0 items >>=
        _) = ((matchingIndexes _ filter 0 items).map _).map _
      rw [scope]
      cases matchingIndexes (.within schema ⟨uri, some attr, some filter, sub⟩) filter 0 items with
      | error failure => rfl
      | ok found =>
          change _ = Except.ok (List.map _ (List.map _ found))
          rw [List.map_map]
          rfl

/-- The elements that a restriction selects depend on the list alone, in the home of the
path or in one that is still empty. -/
theorem selected_eq
    (reached : home.members resource = [] ∨ homeFor resource path schema = .ok (some home)) :
    selected schema path attr home resource =
      (selection schema path filter (Members.attr (home.members resource) attr)).map
        (·.map (elementAt home (place (home.members resource) attr))) := by
  unfold selected restrictedList
  cases held : Members.attr (home.members resource) attr with
  | arr items =>
      cases items with
      | nil => rfl
      | cons item rest =>
          cases reached with
          | inl empty =>
              rw [empty] at held
              cases held
          | inr found => exact matching_eq restricted attrEq found held
  | _ => rfl

end

/-! ## Carrying a decision out in a home -/

/-- Whether the outcome of a change is that a decision on an attribute of a home is carried
out: a refusal leaves the resource as it is. -/
inductive Decided (home : Home) (attr : String) (resource : Members) :
    Except Failure AttrEdit → Except Failure Unit × Members → Prop
  | refused (failure : Failure) :
      Decided home attr resource (.error failure) (.error failure, resource)
  | carried (edit : AttrEdit) (f : Members → Members)
      (agrees : f (home.members resource) = edit.on attr (home.members resource)) :
      Decided home attr resource (.ok edit) (.ok (), home.update resource f)

namespace Decided

variable {step : Members → Except Failure Members} {decision : Except Failure AttrEdit}

/-- What was carried out is a decision for an edit, and a change of the home that comes to it. -/
theorem exists_update {after : Members}
    (decided : Decided home attr resource decision (.ok (), after)) :
    ∃ edit f, decision = .ok edit ∧ after = home.update resource f ∧
      f (home.members resource) = edit.on attr (home.members resource) := by
  generalize outcomeEq : ((.ok (), after) : Except Failure Unit × Members) = outcome at decided
  cases decided with
  | refused failure => cases outcomeEq
  | carried edit f agrees =>
      cases outcomeEq
      exact ⟨edit, f, rfl, rfl, agrees⟩

/-- A decision for an edit is carried out. -/
theorem exists_outcome {edit : AttrEdit} {outcome : Except Failure Unit × Members}
    (decided : Decided home attr resource (.ok edit) outcome) :
    ∃ f, outcome = (.ok (), home.update resource f) ∧
      f (home.members resource) = edit.on attr (home.members resource) := by
  cases decided with
  | carried _ f agrees => exact ⟨f, rfl, agrees⟩

theorem refuse {failure : Failure} (refuses : step resource = .error failure) :
    Decided home attr resource (.error failure) ((Action.update step).run resource) := by
  rw [Action.run_update, refuses]
  exact .refused failure

theorem carry {edit : AttrEdit} {f : Members → Members}
    (changes : step resource = .ok (home.update resource f))
    (agrees : f (home.members resource) = edit.on attr (home.members resource)) :
    Decided home attr resource (.ok edit) ((Action.update step).run resource) := by
  rw [Action.run_update, changes]
  exact .carried edit f agrees

/-- Only the step at the resource itself matters. -/
theorem congr (other : Members → Except Failure Members) (same : step resource = other resource)
    (decided : Decided home attr resource decision ((Action.update other).run resource)) :
    Decided home attr resource decision ((Action.update step).run resource) := by
  rw [Action.run_update] at decided ⊢
  rw [same]
  exact decided

/-- What leaves the resource as it is keeps the attribute. -/
theorem leave (leaves : step resource = .ok resource) :
    Decided home attr resource (.ok .keep) ((Action.update step).run resource) := by
  have self : home.update resource id = resource := Home.update_self fun _ => rfl
  exact carry (f := id) (by rw [leaves, self]) rfl

theorem updateHome (decides : step (home.members resource) =
      decision.map (·.on attr (home.members resource))) :
    Decided home attr resource decision ((Patch.updateHome home step).run resource) := by
  cases decision with
  | error failure =>
      apply refuse
      rw [decides]
      rfl
  | ok edit =>
      apply carry (f := fun _ => edit.on attr (home.members resource))
      · rw [decides]
        rfl
      · rfl

end Decided

/-! ## Operations carry decisions out -/

/-- A change of selected elements puts the changed list in place. -/
theorem onItems_selected {filter : Filter} {index : Nat} {rest : List Nat}
    (chosen : selection schema path filter (Members.attr members attr) = .ok (index :: rest))
    (f : List Json → List Json) :
    onItems (place members attr) f members =
      setAttr members attr (.arr (f (itemsOf (Members.attr members attr)))) := by
  cases held : Members.attr members attr with
  | arr items => exact onItems_place held f
  | _ =>
      rw [held] at chosen
      cases chosen

theorem decided_setChecked (schema : Option ResourceSchema) (uri : Option String) (home : Home)
    (attr : String) (value : Json) (resource : Members) :
    Decided home attr resource
      (coerce schema attr none uri value >>= fun typed => Except.ok (AttrEdit.put typed))
      ((updateHome home fun members => setChecked schema uri members attr value).run resource) :=
  Decided.updateHome (setChecked_eq uri)

/-- Setting a sub-attribute of selected elements carries the decision out. -/
theorem decided_settingAt {filter : Filter} {index : Nat} {rest : List Nat}
    (chosen : selection schema path filter (Members.attr (home.members resource) attr) =
      .ok (index :: rest)) :
    Decided home attr resource
      (settingAt schema path attr sub value (index :: rest)
        (Members.attr (home.members resource) attr))
      ((Action.update (setSubAt schema path attr sub value
        ((index :: rest).map (elementAt home (place (home.members resource) attr))))).run
          resource) := by
  unfold settingAt
  cases typed : coerce schema attr (some sub) path.uri value with
  | error failure =>
      apply Decided.refuse
      rw [setSubAt, typed]
      rfl
  | ok typed =>
      apply Decided.carry
      · rw [setSubAt, typed]
        exact congrArg Except.ok (foldl_updateElement ..)
      · exact onItems_selected chosen _

section

variable (attrEq : path.attr = some attr)
  (reached : home.members resource = [] ∨ homeFor resource path schema = .ok (some home))
include attrEq reached

/-- What follows the selection of elements decides from their indexes. -/
theorem decided_selected {filter : Filter} (restricted : path.restriction = some filter)
    {decide : List Nat → Except Failure AttrEdit}
    {next : List Location → Members → Except Failure Members}
    (decides : ∀ indexes,
      selection schema path filter (Members.attr (home.members resource) attr) = .ok indexes →
        Decided home attr resource (decide indexes) ((Action.update (next
          (indexes.map (elementAt home (place (home.members resource) attr))))).run resource)) :
    Decided home attr resource
      (selection schema path filter (Members.attr (home.members resource) attr) >>= decide)
      ((Action.update fun resource =>
        selected schema path attr home resource >>= fun locations => next locations resource).run
          resource) := by
  have found := selected_eq restricted attrEq reached
  cases chosen : selection schema path filter (Members.attr (home.members resource) attr) with
  | error failure =>
      apply Decided.refuse
      rw [found, chosen]
      rfl
  | ok indexes =>
      have decided := decides indexes chosen
      rw [Action.run_update] at decided ⊢
      rw [found, chosen]
      exact decided

/-- An addition is decided in the home that was found or created for it. -/
theorem decided_add {start : Members} (value : Json)
    (ensured : (ensureHome schema path).run start = (.ok home, resource)) :
    Decided home attr resource
      (addition schema path attr value (Members.attr (home.members resource) attr))
      ((add schema path value).run start) := by
  unfold add addition
  rw [Action.run_bind_ok ensured, attrEq]
  dsimp only
  cases restricted : path.restriction with
  | some filter =>
      cases path.sub with
      | some sub =>
          apply decided_selected attrEq reached restricted
          intro indexes chosen
          cases indexes with
          | nil => exact Decided.refuse rfl
          | cons index rest => exact decided_settingAt chosen
      | none =>
          apply decided_selected attrEq reached restricted
          intro indexes chosen
          cases indexes with
          | nil => exact Decided.carry rfl append_eq
          | cons index rest => exact Decided.leave rfl
  | none =>
      cases path.sub with
      | some sub => exact Decided.updateHome (setSub_eq true)
      | none =>
          apply Decided.updateHome
          dsimp only
          split
          · rfl
          · exact putSingle_eq path.uri

/-- A replacement is decided in the home that was found or created for it. -/
theorem decided_replace {start : Members} (value : Json)
    (ensured : (ensureHome schema path).run start = (.ok home, resource)) :
    Decided home attr resource
      (replacement schema path attr value (Members.attr (home.members resource) attr))
      ((replace schema path value).run start) := by
  unfold replace replacement
  rw [Action.run_bind_ok ensured, attrEq]
  dsimp only
  cases restricted : path.restriction with
  | some filter =>
      apply decided_selected attrEq reached restricted
      intro indexes chosen
      cases indexes with
      | nil => exact Decided.refuse rfl
      | cons index rest =>
          cases path.sub with
          | some sub => exact decided_settingAt chosen
          | none =>
              apply Decided.carry
              · exact congrArg Except.ok (foldl_updateElement ..)
              · exact onItems_selected chosen _
  | none =>
      cases path.sub with
      | some sub => exact Decided.updateHome (setSub_eq false)
      | none =>
          apply Decided.updateHome
          dsimp only
          split
          · rfl
          · exact putSingle_eq path.uri

end

/-- Removing elements that a filter selects, or a sub-attribute of each, carries the
decision out. -/
theorem decided_removeSelected {filter : Filter} (restricted : path.restriction = some filter)
    (attrEq : path.attr = some attr) (found : homeFor resource path schema = .ok (some home))
    {items : List Json} (held : Members.attr (home.members resource) attr = .arr items) :
    Decided home attr resource (removal schema path value (.arr items))
      ((Action.update (removeSelected schema path attr home)).run resource) := by
  have located := matching_eq restricted attrEq found held
  have listed : restrictedList (home.members resource) attr path = .ok (.arr items) := by
    rw [restrictedList, held]
  unfold removal
  rw [restricted]
  change Decided home attr resource (selection schema path filter (.arr items) >>= _) _
  cases chosen : selection schema path filter (.arr items) with
  | error failure =>
      apply Decided.refuse
      rw [removeSelected, listed, located, chosen]
      rfl
  | ok indexes =>
      rw [chosen] at located
      cases subEq : path.sub with
      | some sub =>
          apply Decided.carry
          · rw [removeSelected, listed, located, subEq]
            exact congrArg Except.ok (foldl_updateElement ..)
          · exact onItems_place held _
      | none =>
          cases indexes with
          | nil =>
              apply Decided.leave
              rw [removeSelected, listed, located, subEq]
              rfl
          | cons index rest =>
              have removed := foldr_delete home (place (home.members resource) attr)
                (index :: rest) resource
              apply Decided.carry
              · rw [removeSelected, listed, located, subEq]
                exact congrArg (fun remaining =>
                  Except.ok (home.update remaining (dropEmpty · attr))) removed |>.trans
                    (congrArg Except.ok (Home.update_update ..))
              · exact (congrArg (dropEmpty · attr) (onItems_place held _)).trans
                  (on_unlessEmpty _).symm

/-- A removal is decided in the home of its path. -/
theorem decided_remove (attrEq : path.attr = some attr)
    (found : homeFor resource path schema = .ok (some home)) (value : Json) :
    Decided home attr resource
      (removal schema path value (Members.attr (home.members resource) attr))
      ((remove schema path value).run resource) := by
  have examined : (Action.examine (homeFor · path schema)).run resource =
      (.ok (some home), resource) := by rw [Action.run_examine, found]
  unfold remove
  rw [Action.run_bind_ok examined, attrEq]
  dsimp only
  cases null : (Members.attr (home.members resource) attr).isNull with
  | true =>
      rw [removal, null, if_pos rfl]
      apply Decided.leave
      rw [null, if_pos rfl]
      rfl
  | false =>
      cases restricted : path.restriction with
      | some filter =>
          apply Decided.congr (removeSelected schema path attr home)
          · exact if_neg (Bool.eq_false_iff.mp null)
          · cases held : Members.attr (home.members resource) attr with
            | arr items => exact decided_removeSelected restricted attrEq found held
            | null =>
                rw [held] at null
                cases null
            | _ =>
                rw [removal, restricted]
                apply Decided.refuse
                rw [removeSelected, restrictedList, held]
                rfl
      | none =>
          rw [removal, null, if_neg Bool.false_ne_true, restricted]
          cases path.sub with
          | some sub =>
              apply Decided.congr fun resource => return home.update resource (removeSub attr sub)
              · exact if_neg (Bool.eq_false_iff.mp null)
              · exact Decided.carry rfl removeSub_eq
          | none =>
              apply Decided.congr fun resource => return home.update resource (removeValue attr value)
              · exact if_neg (Bool.eq_false_iff.mp null)
              · exact Decided.carry rfl removeValue_eq

end Patch

end Scim
