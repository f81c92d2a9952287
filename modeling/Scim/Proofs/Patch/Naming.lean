import Scim.Proofs.Patch.Carrying
import Scim.Proofs.Resource.Ambiguity

/-!
# Decisions are unambiguous

What an operation decides to put in the place of an attribute is put together from the
current value and the one that it was given, through changes of attributes.  If these are
unambiguous, so is what is put there.
-/

namespace Scim

open Members Json

variable {schema : Option ResourceSchema} {path : AttributePath} {attr sub : String}
  {uri : Option String} {value current typed : Json} {items values : List Json} {edit : AttrEdit}

/-- Whether what an edit puts in place is unambiguous. -/
def AttrEdit.Unambiguous (edit : AttrEdit) : Prop :=
  ∀ value, edit = .put value → value.unambiguous = true

theorem AttrEdit.unambiguous_keep : AttrEdit.keep.Unambiguous := by
  intro value equal
  cases equal

theorem AttrEdit.unambiguous_drop : AttrEdit.drop.Unambiguous := by
  intro value equal
  cases equal

theorem AttrEdit.unambiguous_put (unambiguous : value.unambiguous = true) :
    (AttrEdit.put value).Unambiguous := by
  intro other equal
  cases equal
  exact unambiguous

theorem AttrEdit.unambiguous_unlessEmpty (unambiguous : value.unambiguous = true) :
    (AttrEdit.unlessEmpty value).Unambiguous := by
  unfold unlessEmpty
  split
  · exact unambiguous_drop
  · exact unambiguous_drop
  · exact unambiguous_put unambiguous

namespace Patch

/-! ## Values and their elements -/

/-- A value of its stated type is the given one or a truth value. -/
theorem coerce_eq_ok {sub : Option String} (typedEq : coerce schema attr sub uri value = .ok typed) :
    typed = value ∨ ∃ b, typed = .bool b := by
  unfold coerce at typedEq
  extract_lets name at typedEq
  clear_value name
  split at typedEq
  · cases typedEq
    exact .inl rfl
  · split at typedEq
    · split at typedEq
      · cases typedEq
        exact .inl rfl
      · split at typedEq
        · cases typedEq
          exact .inr ⟨true, rfl⟩
        · split at typedEq
          · cases typedEq
            exact .inr ⟨false, rfl⟩
          · cases typedEq
      · cases typedEq
    · split at typedEq
      · cases typedEq
        exact .inl rfl
      · cases typedEq
    · split at typedEq
      · split at typedEq
        · split at typedEq
          · cases typedEq
          · cases typedEq
            exact .inl rfl
        · cases typedEq
      · cases typedEq
        exact .inl rfl
    · cases typedEq
      exact .inl rfl

theorem unambiguous_coerce {sub : Option String}
    (typedEq : coerce schema attr sub uri value = .ok typed)
    (unambiguous : value.unambiguous = true) : typed.unambiguous = true := by
  cases coerce_eq_ok typedEq with
  | inl same =>
      rw [same]
      exact unambiguous
  | inr isBool =>
      obtain ⟨b, rfl⟩ := isBool
      rfl

theorem unambiguous_itemsOf (unambiguous : current.unambiguous = true) :
    (Json.arr (itemsOf current)).unambiguous = true := by
  cases current with
  | arr items => exact unambiguous
  | _ => rfl

theorem unambiguous_asItems (unambiguous : value.unambiguous = true) :
    (Json.arr (asItems value)).unambiguous = true := by
  rw [unambiguous_arr_iff]
  cases value with
  | arr items => exact unambiguous_arr_iff.mp unambiguous
  | _ =>
      intro item held
      cases List.mem_singleton.mp held
      exact unambiguous

theorem unambiguous_addMissing (array : (Json.arr items).unambiguous = true)
    (added : (Json.arr values).unambiguous = true) :
    (Json.arr (addMissing items values)).unambiguous = true := by
  rw [unambiguous_arr_iff] at added
  induction values generalizing items with
  | nil => exact array
  | cons value rest ih =>
      apply ih
      · dsimp only
        split
        · exact array
        · rw [unambiguous_arr_iff] at array ⊢
          intro item held
          cases List.mem_append.mp held with
          | inl there => exact array item there
          | inr last =>
              cases List.mem_singleton.mp last
              exact added value List.mem_cons_self
      · exact fun item held => added item (List.mem_cons_of_mem _ held)

theorem unambiguous_setSubIn (unambiguousValue : value.unambiguous = true) (item : Json)
    (unambiguous : item.unambiguous = true) : (setSubIn sub value item).unambiguous = true := by
  cases item with
  | obj element => exact unambiguous_setAttr unambiguous sub unambiguousValue
  | _ => exact unambiguous

theorem unambiguous_deleteSubIn (item : Json) (unambiguous : item.unambiguous = true) :
    (deleteSubIn sub item).unambiguous = true := by
  cases item with
  | obj element => exact unambiguous_delAttr unambiguous sub
  | _ => exact unambiguous

theorem unambiguous_replaceElement (unambiguousValue : value.unambiguous = true) (item : Json)
    (unambiguous : item.unambiguous = true) : (replaceElement value item).unambiguous = true := by
  cases item with
  | obj element =>
      cases value with
      | obj values =>
          exact unambiguous_merge unambiguous (unambiguous_obj_iff.mp unambiguousValue).2
      | _ => exact unambiguousValue
  | _ => exact unambiguousValue

theorem unambiguous_changeAt {f : Json → Json} (array : (Json.arr items).unambiguous = true)
    (kept : ∀ item : Json, item.unambiguous = true → (f item).unambiguous = true)
    (indexes : List Nat) : (Json.arr (changeAt f indexes items)).unambiguous = true := by
  induction indexes generalizing items with
  | nil => exact array
  | cons index rest ih =>
      apply ih
      rw [unambiguous_arr_iff] at array ⊢
      intro changed held
      obtain ⟨place, found⟩ := List.mem_iff_getElem?.mp held
      rw [List.getElem?_modify] at found
      obtain ⟨item, there, rfl⟩ := Option.map_eq_some_iff.mp found
      have inItems := array item (List.mem_of_getElem? there)
      split
      · exact kept item inItems
      · exact inItems

theorem removeAt_sublist (indexes : List Nat) (items : List Json) :
    (removeAt indexes items).Sublist items := by
  induction indexes with
  | nil => exact .refl items
  | cons index rest ih => exact (List.eraseIdx_sublist _ index).trans ih

/-! ## Decisions -/

section

variable (unambiguousCurrent : current.unambiguous = true)
  (unambiguousValue : value.unambiguous = true)
include unambiguousCurrent unambiguousValue

theorem unambiguous_settingAt {indexes : List Nat}
    (decided : settingAt schema path attr sub value indexes current = .ok edit) :
    edit.Unambiguous := by
  obtain ⟨typed, typedEq, rest⟩ := bind_eq_ok_iff.mp decided
  cases rest
  apply AttrEdit.unambiguous_put
  apply unambiguous_changeAt (unambiguous_itemsOf unambiguousCurrent)
  exact unambiguous_setSubIn (unambiguous_coerce typedEq unambiguousValue)

theorem unambiguous_settingSub {merge : Bool}
    (decided : settingSub schema path attr sub merge value current = .ok edit) :
    edit.Unambiguous := by
  obtain ⟨typed, typedEq, rest⟩ := bind_eq_ok_iff.mp decided
  have unambiguousTyped := unambiguous_coerce typedEq unambiguousValue
  cases current with
  | arr items =>
      cases rest
      apply AttrEdit.unambiguous_put
      exact unambiguous_map unambiguousCurrent (unambiguous_setSubIn unambiguousTyped)
  | obj element =>
      cases rest
      apply AttrEdit.unambiguous_put
      apply unambiguous_setAttr unambiguousCurrent
      split
      · next existing values held =>
        have unambiguousSub := unambiguous_attr unambiguousCurrent sub
        rw [held] at unambiguousSub
        exact unambiguous_merge unambiguousSub (unambiguous_obj_iff.mp unambiguousTyped).2
      · exact unambiguousTyped
  | null =>
      cases rest
      exact AttrEdit.unambiguous_put (unambiguous_singleton sub unambiguousTyped)
  | _ => cases rest

theorem unambiguous_settingSingle
    (decided : settingSingle schema uri attr value current = .ok edit) : edit.Unambiguous := by
  unfold settingSingle at decided
  split at decided
  · cases decided
    apply AttrEdit.unambiguous_put
    exact unambiguous_merge unambiguousCurrent (unambiguous_obj_iff.mp unambiguousValue).2
  · obtain ⟨typed, typedEq, rest⟩ := bind_eq_ok_iff.mp decided
    cases rest
    exact AttrEdit.unambiguous_put (unambiguous_coerce typedEq unambiguousValue)

theorem unambiguous_appending : (appending value current).Unambiguous :=
  AttrEdit.unambiguous_put (unambiguous_addMissing (unambiguous_itemsOf unambiguousCurrent)
    (unambiguous_asItems unambiguousValue))

theorem unambiguous_addition (decided : addition schema path attr value current = .ok edit) :
    edit.Unambiguous := by
  unfold addition at decided
  split at decided
  · obtain ⟨indexes, _, rest⟩ := bind_eq_ok_iff.mp decided
    split at rest
    · cases rest
    · exact unambiguous_settingAt unambiguousCurrent unambiguousValue rest
  · obtain ⟨indexes, _, rest⟩ := bind_eq_ok_iff.mp decided
    split at rest
    · cases rest
      exact unambiguous_appending unambiguousCurrent unambiguousValue
    · cases rest
      exact AttrEdit.unambiguous_keep
  · exact unambiguous_settingSub unambiguousCurrent unambiguousValue decided
  · split at decided
    · cases decided
      exact unambiguous_appending unambiguousCurrent unambiguousValue
    · exact unambiguous_settingSingle unambiguousCurrent unambiguousValue decided

theorem unambiguous_replacement
    (decided : replacement schema path attr value current = .ok edit) : edit.Unambiguous := by
  unfold replacement at decided
  split at decided
  · obtain ⟨indexes, _, rest⟩ := bind_eq_ok_iff.mp decided
    split at rest
    · cases rest
    · exact unambiguous_settingAt unambiguousCurrent unambiguousValue rest
    · cases rest
      apply AttrEdit.unambiguous_put
      exact unambiguous_changeAt (unambiguous_itemsOf unambiguousCurrent)
        (unambiguous_replaceElement unambiguousValue) _
  · exact unambiguous_settingSub unambiguousCurrent unambiguousValue decided
  · split at decided
    · cases decided
      exact AttrEdit.unambiguous_put (unambiguous_asItems unambiguousValue)
    · exact unambiguous_settingSingle unambiguousCurrent unambiguousValue decided

omit unambiguousValue

theorem unambiguous_droppingSub : (droppingSub sub current).Unambiguous := by
  cases current with
  | arr items =>
      exact AttrEdit.unambiguous_put (unambiguous_map unambiguousCurrent unambiguous_deleteSubIn)
  | obj element =>
      exact AttrEdit.unambiguous_unlessEmpty (unambiguous_delAttr unambiguousCurrent sub)
  | _ => exact AttrEdit.unambiguous_keep

theorem unambiguous_dropping : (dropping value current).Unambiguous := by
  cases current with
  | arr items =>
      unfold dropping
      dsimp only
      split
      · exact AttrEdit.unambiguous_drop
      · exact AttrEdit.unambiguous_unlessEmpty (unambiguous_of_subset unambiguousCurrent
          fun item held => (List.mem_filter.mp held).1)
  | _ => exact AttrEdit.unambiguous_drop

theorem unambiguous_removal (decided : removal schema path value current = .ok edit) :
    edit.Unambiguous := by
  unfold removal at decided
  split at decided
  · cases decided
    exact AttrEdit.unambiguous_keep
  · split at decided
    · obtain ⟨indexes, _, rest⟩ := bind_eq_ok_iff.mp decided
      have listed := unambiguous_itemsOf unambiguousCurrent
      split at rest
      · cases rest
        apply AttrEdit.unambiguous_put
        exact unambiguous_changeAt listed unambiguous_deleteSubIn indexes
      · cases rest
        split
        · exact AttrEdit.unambiguous_keep
        · exact AttrEdit.unambiguous_unlessEmpty (unambiguous_of_subset listed
            fun item held => (removeAt_sublist indexes _).subset held)
    · cases decided
      exact unambiguous_droppingSub unambiguousCurrent
    · cases decided
      exact unambiguous_dropping unambiguousCurrent

end

end Patch

end Scim
