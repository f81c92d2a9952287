import Scim.Proofs.Patch.Absorbing
import Scim.Proofs.Patch.Matching
import Scim.Proofs.Patch.Requests
import Scim.Proofs.Patch.Returning

/-!
# What a removal leaves at its path

A removal leaves nothing at its path: the attribute is gone, or none of its values has the
sub-attribute, or no element that still satisfies the filter has it.  Looking for the path again
says so, unless the look fails.  It can fail on an element from which the removal took the
sub-attribute, where the filter, which did not crash before, crashes without it; and on a URN which
the removal has withdrawn from the declared ones.
-/

namespace Scim

open Members Json

variable {schema : ResourceSchema} {path : AttributePath} {attr sub uri : String}
  {filter : Filter} {value current : Json} {items : List Json} {members resource after : Members}
  {home : Home} {edit : AttrEdit}

/-! ## Slots in a home -/

/-- The slots of a path in the home that it leads to are those under its attribute. -/
theorem resolve_of_homeFor {schema : Option ResourceSchema}
    (found : homeFor resource path schema = .ok (some home)) (attrEq : path.attr = some attr) :
    resolve resource path schema =
      if (Members.attr (home.members resource) attr).isNull then .ok []
      else locationsUnder home (place (home.members resource) attr)
        (Members.attr (home.members resource) attr) path schema := by
  unfold resolve
  rw [found, attrEq]
  dsimp only [bind, Except.bind]
  cases keyEq : key? (home.members resource) attr with
  | none =>
      rw [Members.attr, attr?, keyEq]
      rfl
  | some key =>
      have same : (get? (home.members resource) key).getD .null =
          Members.attr (home.members resource) attr := by
        rw [Members.attr, attr?, keyEq, Option.bind_some]
      dsimp only
      rw [same, place_of_key? keyEq]
      cases Members.attr (home.members resource) attr <;> rfl

/-- The entries that a filter selects are objects of the list that satisfy it. -/
theorem mem_of_matchingIndexes {scope : Scope} {start : Nat} {entries : List (Nat × Members)}
    (found : matchingIndexes scope filter start items = .ok entries) {entry : Nat × Members}
    (held : entry ∈ entries) :
    .obj entry.2 ∈ items ∧ filter.eval scope (.obj entry.2) = .ok true := by
  induction items generalizing start entries with
  | nil =>
      cases found
      cases held
  | cons item rest ih =>
      cases item with
      | obj element =>
          obtain ⟨holds, evaluated, found⟩ := bind_eq_ok_iff.mp found
          obtain ⟨others, foundRest, found⟩ := bind_eq_ok_iff.mp found
          have later (inOthers : entry ∈ others) :
              .obj entry.2 ∈ Json.obj element :: rest ∧
                filter.eval scope (.obj entry.2) = .ok true :=
            (ih foundRest inOthers).imp_left (List.mem_cons_of_mem _)
          cases holds with
          | false =>
              cases found
              exact later held
          | true =>
              cases found
              rcases List.mem_cons.mp held with rfl | inOthers
              · exact ⟨List.mem_cons_self, evaluated⟩
              · exact later inOthers
      | _ => exact (ih found held).imp_left (List.mem_cons_of_mem _)

theorem Json.unambiguous_members (unambiguous : (Json.obj resource).unambiguous = true)
    (home : Home) : (Json.obj (home.members resource)).unambiguous = true := by
  cases home with
  | core => exact unambiguous
  | extension key =>
      rw [Home.members]
      split
      · next held => exact AllUnambiguous.get? (unambiguous_obj_iff.mp unambiguous).2 held
      · rfl

namespace Patch

/-! ## Cleared values -/

/-- Whether nothing is left for a path in the value of its attribute: there is none, or a filter
selects nothing that has the sub-attribute, or no element has it, or the single value has not. -/
inductive IsCleared (schema : ResourceSchema) (path : AttributePath) : Json → Prop
  | absent : IsCleared schema path .null
  | selected {filter : Filter} {items : List Json} (restricted : path.restriction = some filter)
      (nothing : ∀ element, .obj element ∈ items →
        filter.eval (.within (some schema) path) (.obj element) = .ok true →
          ∃ sub, path.sub = some sub ∧ hasSub sub (.obj element) = false) :
      IsCleared schema path (.arr items)
  | elements {sub : String} {items : List Json} (unrestricted : path.restriction = none)
      (subEq : path.sub = some sub) (nothing : ∀ item ∈ items, hasSub sub item = false) :
      IsCleared schema path (.arr items)
  | single {sub : String} {value : Json} (unrestricted : path.restriction = none)
      (subEq : path.sub = some sub) (notList : value.isArr = false)
      (nothing : hasSub sub value = false) : IsCleared schema path value

theorem indexesWithSub_eq_nil {start : Nat} (nothing : ∀ item ∈ items, hasSub sub item = false) :
    indexesWithSub sub start items = [] := by
  induction items generalizing start with
  | nil => rfl
  | cons item rest ih =>
      obtain ⟨first, others⟩ := List.forall_mem_cons.mp nothing
      rw [indexesWithSub, first, if_neg Bool.false_ne_true, ih others]

/-- There are no slots in a cleared value, if the filter does not crash on its elements. -/
theorem IsCleared.locationsUnder_eq_nil (cleared : IsCleared schema path value)
    (present : value.isNull = false) (home : Home) (key : String)
    (safe : ¬ SelectionStumbles schema path value) :
    locationsUnder home key value path (some schema) = .ok [] := by
  unfold locationsUnder
  cases cleared with
  | absent => cases present
  | @selected filter items restricted nothing =>
      have sound : ∀ element, .obj element ∈ items →
          ¬ filter.Stumbles (.within (some schema) path) element :=
        fun element held stumbles => safe ⟨filter, items, element, restricted, rfl, held, stumbles⟩
      obtain ⟨entries, found, _⟩ := map_eq_ok_iff.mp (matchingIndexes_fst 0 sound)
      rw [restricted]
      dsimp only
      rw [found]
      cases subEq : path.sub with
      | none =>
          cases entries with
          | nil => rfl
          | cons entry rest =>
              obtain ⟨held, satisfied⟩ := mem_of_matchingIndexes found List.mem_cons_self
              obtain ⟨sub, isSub, _⟩ := nothing entry.2 held satisfied
              rw [subEq] at isSub
              cases isSub
      | some sub =>
          have gone : entries.filter (fun entry => hasSub sub (.obj entry.2)) = [] := by
            rw [List.filter_eq_nil_iff]
            intro entry inEntries
            obtain ⟨held, satisfied⟩ := mem_of_matchingIndexes found inEntries
            obtain ⟨other, isSub, without⟩ := nothing entry.2 held satisfied
            cases subEq.symm.trans isSub
            rw [without]
            exact Bool.false_ne_true
          change Except.ok ((entries.filter fun entry => hasSub sub (.obj entry.2)).map _) = _
          rw [gone]
          rfl
  | @elements sub items unrestricted subEq nothing =>
      rw [unrestricted, subEq]
      dsimp only
      rw [indexesWithSub_eq_nil nothing]
      rfl
  | @single sub value unrestricted subEq notList nothing =>
      rw [unrestricted, subEq]
      cases value with
      | arr items => cases notList
      | _ =>
          dsimp only
          rw [nothing]
          rfl

/-- The slots of a path are not found where its filter crashes. -/
theorem not_selectionStumbles_of_locationsUnder {key : String} {locations : List Location}
    (found : locationsUnder home key value path (some schema) = .ok locations) :
    ¬ SelectionStumbles schema path value := by
  rintro ⟨filter, items, element, restricted, rfl, held, stumbles⟩
  unfold locationsUnder at found
  rw [restricted] at found
  obtain ⟨entries, selected, _⟩ := bind_eq_ok_iff.mp found
  have crashed : Crashes (matchingIndexes (.within (some schema) path) filter 0 items) :=
    crashes_matchingIndexes_iff.mpr ⟨element, held, stumbles⟩
  rw [selected] at crashed
  exact crashed

/-- A path whose value is cleared is found to be so exactly if the filter does not crash. -/
theorem IsCleared.resolve_iff (found : homeFor resource path (some schema) = .ok (some home))
    (attrEq : path.attr = some attr)
    (cleared : IsCleared schema path (Members.attr (home.members resource) attr)) :
    resolve resource path (some schema) = .ok [] ↔
      ¬ SelectionStumbles schema path (Members.attr (home.members resource) attr) := by
  rw [resolve_of_homeFor found attrEq]
  generalize Members.attr (home.members resource) attr = value at cleared
  cases null : value.isNull with
  | true =>
      refine iff_of_true rfl ?_
      rintro ⟨_, _, _, _, rfl, _⟩
      cases null
  | false =>
      rw [if_neg Bool.false_ne_true]
      exact ⟨not_selectionStumbles_of_locationsUnder, cleared.locationsUnder_eq_nil null home _⟩

/-! ## What is left in an element -/

theorem hasSub_deleteSubIn {item : Json} (unambiguous : item.unambiguous = true) :
    hasSub sub (deleteSubIn sub item) = false := by
  cases item with
  | obj element =>
      rw [deleteSubIn, hasSub,
        ((unambiguous_obj_iff.mp unambiguous).1.lacks_delAttr sub).attr_eq]
      rfl
  | _ => rfl

/-! ## Removals -/

/-- Whether a removal takes the sub-attribute from an element on which the filter crashes
afterwards. -/
def RemovalStumbles (schema : ResourceSchema) (path : AttributePath) (current : Json) : Prop :=
  ∃ filter sub items element, path.restriction = some filter ∧ path.sub = some sub ∧
    current = .arr items ∧ .obj element ∈ items ∧
    filter.eval (.within (some schema) path) (.obj element) = .ok true ∧
    filter.Stumbles (.within (some schema) path) (delAttr element sub)

/-- The value of an attribute that is dropped if it is empty. -/
theorem attr_on_unlessEmpty (distinct : Distinct members) (value : Json) :
    Members.attr ((AttrEdit.unlessEmpty value).on attr members) attr = .null ∨
      Members.attr ((AttrEdit.unlessEmpty value).on attr members) attr = value := by
  unfold AttrEdit.unlessEmpty
  split
  · exact .inl (distinct.lacks_delAttr attr).attr_eq
  · exact .inl (distinct.lacks_delAttr attr).attr_eq
  · exact .inr (attr_setAttr_self members attr _)

theorem selects_eq_true_iff {item : Json} :
    filter.selects schema path item = true ↔
      ∃ element, item = .obj element ∧
        filter.eval (.within (some schema) path) (.obj element) = .ok true := by
  rw [Filter.selects, Bool.and_eq_true, beq_iff_eq]
  constructor
  · rintro ⟨isObj, satisfied⟩
    obtain ⟨element, rfl⟩ := isObj_iff.mp isObj
    exact ⟨element, rfl, eq_ok_of_toOption satisfied⟩
  · rintro ⟨element, rfl, satisfied⟩
    exact ⟨rfl, by rw [satisfied]; rfl⟩

theorem not_selectionStumbles_of_removal
    (removed : removal (some schema) path value current = .ok edit) :
    ¬ SelectionStumbles schema path current := by
  intro stumbles
  have crashed : Crashes (removal (some schema) path value current) :=
    crashes_removal_iff.mpr stumbles
  rw [removed] at crashed
  exact crashed

/-- Where a removal under a filter succeeds, it decides on the selected elements at once. -/
theorem removal_selected (restricted : path.restriction = some filter)
    (removed : removal (some schema) path .null (.arr items) = .ok edit) :
    edit = match path.sub with
      | some sub =>
        .put (.arr (changeSelected (filter.selects schema path) (deleteSubIn sub) items))
      | none =>
        if items.any (filter.selects schema path) then
          .unlessEmpty (.arr (items.filter (!filter.selects schema path ·)))
        else .keep := by
  have safe := not_selectionStumbles_of_removal removed
  have decided : removal (some schema) path .null (.arr items) =
      PatchOperation.onSelected ⟨.remove, none, .null⟩ schema path ""
        (filter.selects schema path) items :=
    PatchOperation.decision_eq_onSelected ⟨.remove, none, .null⟩ restricted safe
  rw [removed, PatchOperation.onSelected] at decided
  cases subEq : path.sub <;> rw [subEq] at decided <;> exact Except.ok.inj decided

/-- A removal under a filter clears a list. -/
theorem isCleared_of_selected (distinct : Distinct members)
    (unambiguous : ∀ item ∈ items, item.unambiguous = true)
    (held : Members.attr members attr = .arr items) (restricted : path.restriction = some filter)
    (removed : removal (some schema) path .null (.arr items) = .ok edit) :
    IsCleared schema path (Members.attr (edit.on attr members) attr) := by
  have decided := removal_selected restricted removed
  cases subEq : path.sub with
  | some sub =>
      rw [subEq] at decided
      subst decided
      rw [AttrEdit.on, attr_setAttr_self]
      refine .selected restricted fun element inList satisfied => ⟨sub, subEq, ?_⟩
      obtain ⟨item, inItems, equal⟩ := List.mem_map.mp inList
      split at equal
      · rw [← equal]
        exact hasSub_deleteSubIn (unambiguous item inItems)
      · next passedOver =>
        subst equal
        exact absurd (selects_eq_true_iff.mpr ⟨element, rfl, satisfied⟩) passedOver
  | none =>
      rw [subEq] at decided
      have remaining :
          IsCleared schema path (.arr (items.filter (!filter.selects schema path ·))) := by
        refine .selected restricted fun element inList satisfied => ?_
        have passedOver := (List.mem_filter.mp inList).2
        rw [selects_eq_true_iff.mpr ⟨element, rfl, satisfied⟩] at passedOver
        cases passedOver
      dsimp only at decided
      split at decided
      · subst decided
        rcases attr_on_unlessEmpty distinct _ with gone | left
        · rw [gone]
          exact .absent
        · rw [left]
          exact remaining
      · next missing =>
        subst decided
        have all : items.filter (!filter.selects schema path ·) = items :=
          List.filter_eq_self.mpr fun item inItems => by
            rw [Bool.not_eq_true, List.any_eq_false] at missing
            simpa using missing item inItems
        rw [AttrEdit.on, held, ← all]
        exact remaining

/-- Nothing has a sub-attribute that is removed without a filter. -/
theorem isCleared_droppingSub (distinct : Distinct members)
    (unambiguous : current.unambiguous = true) (held : Members.attr members attr = current)
    (unrestricted : path.restriction = none) (subEq : path.sub = some sub) :
    IsCleared schema path (Members.attr ((droppingSub sub current).on attr members) attr) := by
  cases current with
  | arr items =>
      rw [droppingSub, AttrEdit.on, attr_setAttr_self]
      refine .elements unrestricted subEq fun item inList => ?_
      obtain ⟨before, inItems, rfl⟩ := List.mem_map.mp inList
      exact hasSub_deleteSubIn (unambiguous_arr_iff.mp unambiguous before inItems)
  | obj element =>
      rw [droppingSub]
      rcases attr_on_unlessEmpty distinct (.obj (delAttr element sub)) with gone | left
      · rw [gone]
        exact .absent
      · rw [left]
        exact .single unrestricted subEq rfl (hasSub_deleteSubIn unambiguous)
  | _ =>
      change IsCleared schema path (Members.attr members attr)
      rw [held]
      exact .single unrestricted subEq rfl rfl

/-- A removal without a filter clears the value of the attribute. -/
theorem isCleared_of_unrestricted (distinct : Distinct members)
    (unambiguous : (Members.attr members attr).unambiguous = true)
    (unrestricted : path.restriction = none)
    (removed : removal (some schema) path .null (Members.attr members attr) = .ok edit) :
    IsCleared schema path (Members.attr (edit.on attr members) attr) := by
  cases null : (Members.attr members attr).isNull with
  | true =>
      rw [removal, null, if_pos rfl] at removed
      cases removed
      change IsCleared schema path (Members.attr members attr)
      generalize Members.attr members attr = value at null
      cases value with
      | null => exact .absent
      | _ => cases null
  | false =>
      rw [removal, null, if_neg Bool.false_ne_true, unrestricted] at removed
      cases subEq : path.sub with
      | some sub =>
          rw [subEq] at removed
          cases removed
          exact isCleared_droppingSub distinct unambiguous rfl unrestricted subEq
      | none =>
          have dropped : dropping .null (Members.attr members attr) = .drop := by
            cases Members.attr members attr <;> rfl
          rw [subEq] at removed
          dsimp only at removed
          rw [dropped] at removed
          cases removed
          change IsCleared schema path (Members.attr (delAttr members attr) attr)
          rw [(distinct.lacks_delAttr attr).attr_eq]
          exact .absent

/-- A removal clears the attribute of its path. -/
theorem isCleared_of_removal (unambiguous : (Json.obj members).unambiguous = true)
    (removed : removal (some schema) path .null (Members.attr members attr) = .ok edit) :
    IsCleared schema path (Members.attr (edit.on attr members) attr) := by
  have distinct := (unambiguous_obj_iff.mp unambiguous).1
  have unambiguousValue := unambiguous_attr unambiguous attr
  cases restricted : path.restriction with
  | none => exact isCleared_of_unrestricted distinct unambiguousValue restricted removed
  | some filter =>
      cases held : Members.attr members attr with
      | null =>
          rw [held] at removed
          cases removed
          rw [AttrEdit.on, held]
          exact .absent
      | arr items =>
          rw [held] at removed unambiguousValue
          exact isCleared_of_selected distinct (unambiguous_arr_iff.mp unambiguousValue) held
            restricted removed
      | _ =>
          rw [held, removal, restricted] at removed
          cases removed

/-- On the elements that lost the sub-attribute, or stay as they are, the filter crashes exactly if
it crashes on one of the former. -/
theorem selectionStumbles_changed_iff (restricted : path.restriction = some filter)
    (subEq : path.sub = some sub) (safe : ¬ SelectionStumbles schema path (.arr items)) :
    SelectionStumbles schema path
        (.arr (changeSelected (filter.selects schema path) (deleteSubIn sub) items)) ↔
      RemovalStumbles schema path (.arr items) := by
  constructor
  · rintro ⟨other, _, element, isFilter, ⟨⟩, inList, stumbles⟩
    cases restricted.symm.trans isFilter
    obtain ⟨item, inItems, equal⟩ := List.mem_map.mp inList
    split at equal
    · next selected =>
      obtain ⟨before, rfl, satisfied⟩ := selects_eq_true_iff.mp selected
      cases equal
      exact ⟨filter, sub, items, before, restricted, subEq, rfl, inItems, satisfied, stumbles⟩
    · subst equal
      exact absurd ⟨filter, items, element, restricted, rfl, inItems, stumbles⟩ safe
  · rintro ⟨other, isSub, _, element, isFilter, isSubEq, ⟨⟩, inItems, satisfied, stumbles⟩
    cases restricted.symm.trans isFilter
    cases subEq.symm.trans isSubEq
    refine ⟨filter, _, delAttr element sub, restricted, rfl, ?_, stumbles⟩
    refine List.mem_map.mpr ⟨.obj element, inItems, ?_⟩
    rw [selects_eq_true_iff.mpr ⟨element, rfl, satisfied⟩]
    rfl

/-- The filter crashes on the value that a removal leaves exactly if it crashes on an element that
lost the sub-attribute. -/
theorem selectionStumbles_removal_iff (distinct : Distinct members)
    (removed : removal (some schema) path .null (Members.attr members attr) = .ok edit) :
    SelectionStumbles schema path (Members.attr (edit.on attr members) attr) ↔
      RemovalStumbles schema path (Members.attr members attr) := by
  have safe := not_selectionStumbles_of_removal removed
  cases restricted : path.restriction with
  | none =>
      refine iff_of_false (not_selectionStumbles restricted) ?_
      rintro ⟨filter, _, _, _, isFilter, _⟩
      rw [restricted] at isFilter
      cases isFilter
  | some filter =>
      cases held : Members.attr members attr with
      | null =>
          rw [held] at removed
          cases removed
          change SelectionStumbles schema path (Members.attr members attr) ↔ _
          refine iff_of_false safe ?_
          rintro ⟨_, _, _, _, _, _, ⟨⟩, _⟩
      | arr items =>
          rw [held] at removed safe
          have decided := removal_selected restricted removed
          cases subEq : path.sub with
          | some sub =>
              rw [subEq] at decided
              subst decided
              rw [AttrEdit.on, attr_setAttr_self]
              exact selectionStumbles_changed_iff restricted subEq safe
          | none =>
              -- the elements that are left were there before
              refine iff_of_false ?_ ?_
              · rintro ⟨other, fewer, element, isFilter, left, inFewer, stumbles⟩
                refine safe ⟨other, items, element, isFilter, rfl, ?_, stumbles⟩
                rw [subEq] at decided
                dsimp only at decided
                split at decided
                · subst decided
                  rcases attr_on_unlessEmpty distinct _ with gone | remaining
                  · cases gone.symm.trans left
                  · cases remaining.symm.trans left
                    exact (List.mem_filter.mp inFewer).1
                · subst decided
                  cases held.symm.trans left
                  exact inFewer
              · rintro ⟨_, _, _, _, _, isSub, _⟩
                rw [subEq] at isSub
                cases isSub
      | _ =>
          rw [held, removal, restricted] at removed
          cases removed

/-- A removal in a home that is there edits the attribute there as it decides. -/
theorem exists_update_of_remove (found : homeFor resource path (some schema) = .ok (some home))
    (attrEq : path.attr = some attr)
    (ran : (remove (some schema) path .null).run resource = (.ok (), after)) :
    ∃ edit f, removal (some schema) path .null (Members.attr (home.members resource) attr) =
        .ok edit ∧ after = home.update resource f ∧
      home.members after = edit.on attr (home.members resource) := by
  have decided := decided_remove attrEq found .null
  rw [ran] at decided
  obtain ⟨edit, f, decision, rfl, agrees⟩ := decided.exists_update
  exact ⟨edit, f, decision, rfl, ((isThere_of_homeFor found).members_update f).trans agrees⟩

/-- A removal in a home that is there clears the attribute there. -/
theorem resolve_removed_iff_of_found (unambiguous : (Json.obj resource).unambiguous = true)
    (found : homeFor resource path (some schema) = .ok (some home)) (attrEq : path.attr = some attr)
    (ran : (remove (some schema) path .null).run resource = (.ok (), after))
    (known : ∀ uri, path.uri = some uri → checkUri after uri (some schema) = .ok ()) :
    resolve after path (some schema) = .ok [] ↔
      ¬ RemovalStumbles schema path (Members.attr (home.members resource) attr) := by
  have unambiguousHome := unambiguous_members unambiguous home
  have distinct := (unambiguous_obj_iff.mp unambiguousHome).1
  obtain ⟨edit, f, decided, rfl, edited⟩ := exists_update_of_remove found attrEq ran
  have cleared := isCleared_of_removal unambiguousHome decided
  rw [← selectionStumbles_removal_iff distinct decided]
  rw [← edited] at cleared ⊢
  exact cleared.resolve_iff (homeFor_update found f known) attrEq

/-- An extension that was removed is not found again. -/
theorem resolve_removedExtension (distinct : Distinct resource) (uriEq : path.uri = some uri)
    (whole : path.attr = none) (isUrn : ':' ∈ uri.toList)
    (registered : (Schema.find? uri).isSome = true)
    (ran : (removeExtension uri).run resource = (.ok (), after)) :
    resolve after path (some schema) = .ok [] := by
  obtain ⟨_, middle, deleted, ran⟩ := Action.run_bind_eq_ok_iff.mp ran
  cases deleted
  rw [Action.run_update] at ran
  split at ran
  · next changed stepEq =>
    cases ran
    obtain ⟨urns, _, stepEq⟩ := bind_eq_ok_iff.mp stepEq
    split at stepEq
    · cases stepEq
      have gone (value : Json) :
          key? (Members.set (delAttr resource uri) "schemas" value) uri = none := by
        rw [key?_eq_none_iff]
        intro key held
        rcases (mem_names_set _ _ _ _).mp held with rfl | inside
        · exact sameName_schemas_of_colon isUrn
        · exact distinct.lacks_delAttr uri key inside
      have known (value : Json) : checkUri (Members.set (delAttr resource uri) "schemas" value) uri
          (some schema) = .ok () :=
        checkUri_eq_ok_iff.mpr (.inl (recognizes_of_registered registered))
      unfold resolve
      rw [homeFor_of_checkUri uriEq (known _), whole, uriEq, Option.getD_some]
      dsimp only [bind, Except.bind]
      rw [gone]
      split <;> rfl
    · cases stepEq
  · cases ran

end Patch

/-! ## Requests -/

/-- What keeps the look for a path from saying that nothing is there, after a removal there: the URN
of the path, a spelling of the name under which the URNs are declared, is not known any more; or the
filter crashes on an element that lost the sub-attribute. -/
inductive Patch.Hides (schema : ResourceSchema) (path : AttributePath) (resource after : Members) :
    Prop
  | unknown {uri : String} (uriEq : path.uri = some uri)
      (spelled : sameName uri "schemas" = true)
      (refused : checkUri after uri (some schema) ≠ .ok ()) : Hides schema path resource after
  | stumbling {attr : String} {home : Home} (attrEq : path.attr = some attr)
      (found : homeFor resource path (some schema) = .ok (some home))
      (stumbles : Patch.RemovalStumbles schema path (Members.attr (home.members resource) attr)) :
      Hides schema path resource after

/-- After a removal nothing is found at its path, unless the look for it fails. -/
theorem resolve_of_removed_iff {removal : PatchEntry} {text : String}
    (unambiguous : (Json.obj resource).unambiguous = true)
    (read : removal.read 0 = .ok ⟨.remove, some text, .null⟩)
    (parsed : PathOf.parse text = .ok path)
    (applied : applyPatch resource [removal] (some schema) = .ok after) :
    resolve after path (some schema) = .ok [] ↔ ¬ Patch.Hides schema path resource after := by
  have ran := PatchOperation.run_at_path rfl parsed ((applyPatch_singleton_iff read).mp applied)
  dsimp only at ran
  obtain ⟨home?, start, examined, rest⟩ := Action.run_bind_eq_ok_iff.mp ran
  obtain ⟨found, rfl⟩ := Prod.mk.inj examined
  dsimp only at found
  cases home? with
  | none =>
      cases rest
      refine iff_of_true (by rw [resolve, found]; rfl) ?_
      rintro (⟨uriEq, _, refused⟩ | ⟨_, foundToo, _⟩)
      · exact refused (checkUri_of_homeFor uriEq found)
      · cases found.symm.trans foundToo
  | some home =>
      cases attrEq : path.attr with
      | none =>
          obtain ⟨uri, uriEq, isUrn, registered⟩ := PathOf.registered_of_parse parsed attrEq
          rw [attrEq, uriEq, Option.getD_some] at rest
          have distinct := (unambiguous_obj_iff.mp unambiguous).1
          refine iff_of_true
            (Patch.resolve_removedExtension distinct uriEq attrEq isUrn registered rest) ?_
          rintro (⟨isUri, _, refused⟩ | ⟨isAttr, _⟩)
          · cases uriEq.symm.trans isUri
            exact refused (checkUri_eq_ok_iff.mpr (.inl (recognizes_of_registered registered)))
          · cases attrEq.symm.trans isAttr
      | some attr =>
          constructor
          · rintro resolved (⟨uriEq, _, refused⟩ | ⟨isAttr, foundToo, stumbles⟩)
            · obtain ⟨_, foundAfter, _⟩ := bind_eq_ok_iff.mp resolved
              exact refused (checkUri_of_homeFor uriEq foundAfter)
            · obtain ⟨_, foundAfter, _⟩ := bind_eq_ok_iff.mp resolved
              cases attrEq.symm.trans isAttr
              cases found.symm.trans foundToo
              exact (Patch.resolve_removed_iff_of_found unambiguous found attrEq ran
                fun uri uriEq => checkUri_of_homeFor uriEq foundAfter).mp resolved stumbles
          · intro seen
            refine (Patch.resolve_removed_iff_of_found unambiguous found attrEq ran ?_).mpr
              fun stumbles => seen (.stumbling attrEq found stumbles)
            intro uri uriEq
            obtain ⟨edit, f, _, rfl, _⟩ := Patch.exists_update_of_remove found attrEq ran
            by_contra refused
            cases spelled : sameName uri "schemas" with
            | true => exact seen (.unknown uriEq spelled refused)
            | false => exact refused (checkUri_update uriEq spelled found f)

/-- A sub-attribute of the elements of one type. -/
theorem resolve_of_removed_iff_work :
    let resource : Members := [("emails", .arr [.obj [("type", .str "work"), ("value", .str "a")],
      .obj [("type", .str "home"), ("value", .str "b")]])]
    let text := "emails[type eq \"work\"].value"
    let removal : PatchEntry := .ready ⟨.remove, some text, .null⟩
    (Json.obj resource).unambiguous = true ∧
      ∃ path after, PathOf.parse text = .ok path ∧
        applyPatch resource [removal] (some .user) = .ok after ∧
        (resolve after path (some .user) = .ok [] ↔ ¬ Patch.Hides .user path resource after) := by
  intro resource text removal
  have unambiguous : (Json.obj resource).unambiguous = true := by decide +kernel
  have read : removal.read 0 = .ok ⟨.remove, some text, .null⟩ := rfl
  have parses : ((PathOf.parse text : Except _ AttributePath)).isOk = true := by decide +kernel
  have applies : (applyPatch resource [removal] (some .user)).isOk = true := by decide +kernel
  obtain ⟨path, parsed⟩ := exists_eq_ok_of_isOk parses
  obtain ⟨after, applied⟩ := exists_eq_ok_of_isOk applies
  exact ⟨unambiguous, path, after, parsed, applied,
    resolve_of_removed_iff unambiguous read parsed applied⟩

/-- An element whose own `schemas` is no list, and which satisfied the filter by the value that it
lost, crashes the look for the path. -/
theorem not_resolve_of_removed :
    ¬ ∀ (schema : ResourceSchema) (resource after : Members) (removal : PatchEntry) (text : String)
        (path : AttributePath), (Json.obj resource).unambiguous = true →
      removal.read 0 = .ok ⟨.remove, some text, .null⟩ → PathOf.parse text = .ok path →
      applyPatch resource [removal] (some schema) = .ok after →
      resolve after path (some schema) = .ok [] := by
  intro always
  let resource : Members :=
    [("emails", .arr [.obj [("schemas", .bool true), ("value", .str "a")]])]
  let text := "emails[value pr or urn:x:y:z eq 1].value"
  let removal : PatchEntry := .ready ⟨.remove, some text, .null⟩
  have lost : ((applyPatch resource [removal] (some .user)).toOption.bind fun after =>
      (PathOf.parse text).toOption.map fun path =>
        (resolve after path (some .user)).isOk) = some false := by decide +kernel
  obtain ⟨after, applied, rest⟩ := Option.bind_eq_some_iff.mp lost
  obtain ⟨path, parsed, failed⟩ := Option.map_eq_some_iff.mp rest
  have found := always .user resource after removal text path (by decide +kernel) rfl
    (eq_ok_of_toOption parsed) (eq_ok_of_toOption applied)
  rw [found] at failed
  cases failed

end Scim
