import Scim.Patch.Edit
import Scim.Proofs.Resource.Places

/-!
# Unambiguous names

A name finds at most one member of an object if no two members have spellings of one name.
A value in which this holds of every object is unambiguous.  Setting, removing and merging
attributes keep it so, because they go by the stored spelling.
-/

namespace Scim

open Members

variable {members values : Members} {name : String} {value : Json} {items : List Json}

instance (members : Members) : Decidable (Distinct members) :=
  inferInstanceAs (Decidable (List.Pairwise _ _))

namespace Json

mutual

/-- Whether no object in a value has two members whose names are spellings of one name. -/
def unambiguous : Json → Bool
  | .arr items => unambiguousItems items
  | .obj members => decide (Distinct members) && unambiguousMembers members
  | _ => true

/-- Whether each item of an array is unambiguous. -/
def unambiguousItems : List Json → Bool
  | [] => true
  | item :: rest => unambiguous item && unambiguousItems rest

/-- Whether the value of each member is unambiguous. -/
def unambiguousMembers : List (String × Json) → Bool
  | [] => true
  | (_, value) :: rest => unambiguous value && unambiguousMembers rest

end

theorem unambiguousItems_iff :
    unambiguousItems items = true ↔ ∀ item ∈ items, item.unambiguous = true := by
  induction items with
  | nil => simp [unambiguousItems]
  | cons item rest ih => simp [unambiguousItems, ih]

theorem unambiguousMembers_iff :
    unambiguousMembers members = true ↔ ∀ member ∈ members, member.2.unambiguous = true := by
  induction members with
  | nil => simp [unambiguousMembers]
  | cons member rest ih => simp [unambiguousMembers, ih]

theorem unambiguous_arr_iff :
    unambiguous (.arr items) = true ↔ ∀ item ∈ items, item.unambiguous = true := by
  rw [unambiguous, unambiguousItems_iff]

theorem unambiguous_obj_iff :
    unambiguous (.obj members) = true ↔
      Distinct members ∧ ∀ member ∈ members, member.2.unambiguous = true := by
  rw [unambiguous, Bool.and_eq_true, decide_eq_true_iff, unambiguousMembers_iff]

end Json

/-! ## Names -/

namespace Members

theorem names_set_of_not_mem (absent : name ∉ names members) (value : Json) :
    names (set members name value) = names members ++ [name] := by
  rw [set_of_not_mem absent, names, List.map_append]
  rfl

/-- Setting an attribute adds its name, if anything. -/
theorem names_setAttr (members : Members) (attr : String) (value : Json) :
    names (setAttr members attr value) = names members ∨
      names (setAttr members attr value) = names members ++ [attr] ∧ Lacks members attr := by
  cases found : key? members attr with
  | some key =>
      rw [setAttr, found, Option.getD_some]
      exact .inl (names_set_of_mem (key?_eq_some found).1 value)
  | none =>
      have lacks := key?_eq_none_iff.mp found
      rw [setAttr, found, Option.getD_none]
      exact .inr ⟨names_set_of_not_mem lacks.not_mem value, lacks⟩

/-- A member behind an assignment is the assigned one or was there. -/
theorem mem_set {member : String × Json} (held : member ∈ set members name value) :
    member.2 = value ∨ member ∈ members := by
  induction members with
  | nil =>
      cases List.mem_singleton.mp held
      exact .inl rfl
  | cons first rest ih =>
      obtain ⟨key, stored⟩ := first
      rw [set] at held
      split at held
      · cases List.mem_cons.mp held with
        | inl equal =>
            subst equal
            exact .inl rfl
        | inr inRest => exact .inr (List.mem_cons_of_mem _ inRest)
      · cases List.mem_cons.mp held with
        | inl equal =>
            subst equal
            exact .inr List.mem_cons_self
        | inr inRest =>
            cases ih inRest with
            | inl equal => exact .inl equal
            | inr there => exact .inr (List.mem_cons_of_mem _ there)

theorem Distinct.setAttr (distinct : Distinct members) (attr : String) (value : Json) :
    Distinct (Members.setAttr members attr value) := by
  unfold Distinct
  cases names_setAttr members attr value with
  | inl same =>
      rw [same]
      exact distinct
  | inr added =>
      rw [added.1, List.pairwise_append]
      refine ⟨distinct, List.pairwise_singleton _ _, fun key held other isAttr => ?_⟩
      cases List.mem_singleton.mp isAttr
      exact added.2 key held

/-! ## Changes of unambiguous objects -/

/-- Whether the value of each member is unambiguous. -/
def AllUnambiguous (members : Members) : Prop :=
  ∀ member ∈ members, member.2.unambiguous = true

theorem AllUnambiguous.set (all : AllUnambiguous members) (name : String)
    (unambiguous : value.unambiguous = true) : AllUnambiguous (set members name value) := by
  intro member held
  cases mem_set held with
  | inl equal =>
      rw [equal]
      exact unambiguous
  | inr there => exact all member there

theorem AllUnambiguous.of_sublist {fewer : Members} (all : AllUnambiguous members)
    (sublist : fewer.Sublist members) : AllUnambiguous fewer :=
  fun member held => all member (sublist.subset held)

theorem AllUnambiguous.get? (all : AllUnambiguous members) {key : String}
    (held : Members.get? members key = some value) : value.unambiguous = true :=
  all (key, value) (mem_of_get? held)

theorem AllUnambiguous.attr (all : AllUnambiguous members) (name : String) :
    (Members.attr members name).unambiguous = true := by
  rw [Members.attr, ← get?_place]
  cases held : Members.get? members (place members name) with
  | none => rfl
  | some value => exact all.get? held

end Members

namespace Json

theorem unambiguous_setAttr (object : unambiguous (.obj members) = true) (attr : String)
    (unambiguousValue : value.unambiguous = true) :
    unambiguous (.obj (setAttr members attr value)) = true := by
  rw [unambiguous_obj_iff] at object ⊢
  exact ⟨object.1.setAttr attr value, AllUnambiguous.set object.2 _ unambiguousValue⟩

theorem unambiguous_delAttr (object : unambiguous (.obj members) = true) (attr : String) :
    unambiguous (.obj (delAttr members attr)) = true := by
  rw [unambiguous_obj_iff] at object ⊢
  have fewer := delAttr_sublist members attr
  exact ⟨object.1.of_sublist fewer, AllUnambiguous.of_sublist object.2 fewer⟩

theorem unambiguous_merge (object : unambiguous (.obj members) = true)
    (all : AllUnambiguous values) : unambiguous (.obj (merge members values)) = true := by
  induction values generalizing members with
  | nil => exact object
  | cons member rest ih =>
      apply ih
      · exact unambiguous_setAttr object member.1 (all member List.mem_cons_self)
      · exact fun other held => all other (List.mem_cons_of_mem _ held)

theorem unambiguous_singleton (name : String) (unambiguousValue : value.unambiguous = true) :
    unambiguous (.obj [(name, value)]) = true := by
  rw [unambiguous_obj_iff]
  refine ⟨List.pairwise_singleton _ _, fun member held => ?_⟩
  cases List.mem_singleton.mp held
  exact unambiguousValue

theorem unambiguous_attr (object : unambiguous (.obj members) = true) (name : String) :
    (Members.attr members name).unambiguous = true :=
  AllUnambiguous.attr (unambiguous_obj_iff.mp object).2 name

theorem unambiguous_map {f : Json → Json} (array : unambiguous (.arr items) = true)
    (kept : ∀ item : Json, item.unambiguous = true → (f item).unambiguous = true) :
    unambiguous (.arr (items.map f)) = true := by
  rw [unambiguous_arr_iff] at array ⊢
  intro changed held
  obtain ⟨item, inItems, rfl⟩ := List.mem_map.mp held
  exact kept item (array item inItems)

theorem unambiguous_of_subset {fewer : List Json} (array : unambiguous (.arr items) = true)
    (subset : ∀ item ∈ fewer, item ∈ items) : unambiguous (.arr fewer) = true := by
  rw [unambiguous_arr_iff] at array ⊢
  exact fun item held => array item (subset item held)

end Json

end Scim
