import Mathlib.Data.List.Pairwise
import Scim.Proofs.Resource.Spellings

/-!
# Removing attributes

Removing an attribute takes one member away, so nothing is left of an attribute whose name
has one spelling only.  What is not there can be removed and is appended when it is set.
-/

namespace Scim.Members

variable {members : Members} {name other : String}

/-! ## Members of distinct names -/

/-- Whether no two names of the members are spellings of one name. -/
def Distinct (members : Members) : Prop :=
  (names members).Pairwise fun a b => sameName a b = false

/-- Whether no name of the members is a spelling of a name. -/
def Lacks (members : Members) (name : String) : Prop :=
  ∀ key ∈ names members, sameName key name = false

theorem key?_eq_none_iff : key? members name = none ↔ Lacks members name := by
  rw [key?_eq]
  constructor
  · intro missing key held
    split at missing
    · cases missing
    · simpa using List.find?_eq_none.mp missing key held
  · intro lacks
    have exact : name ∉ names members := by
      intro held
      have differ := lacks name held
      rw [sameName_refl] at differ
      cases differ
    rw [if_neg exact, List.find?_eq_none]
    exact fun key held => by simp [lacks key held]

theorem Lacks.attr_eq (lacks : Lacks members name) : attr members name = .null := by
  rw [attr, attr?, key?_eq_none_iff.mpr lacks]
  rfl

theorem delAttr_sublist (members : Members) (name : String) :
    (delAttr members name).Sublist members := by
  unfold delAttr
  cases key? members name with
  | none => exact .refl _
  | some key => exact List.filter_sublist

theorem Distinct.of_sublist {fewer : Members} (distinct : Distinct members)
    (sublist : fewer.Sublist members) : Distinct fewer :=
  distinct.sublist (sublist.map _)

theorem Lacks.of_sublist {fewer : Members} (lacks : Lacks members name)
    (sublist : fewer.Sublist members) : Lacks fewer name :=
  fun key held => lacks key ((sublist.map _).subset held)

/-- What is not there is removed without a change. -/
theorem Lacks.delAttr_eq (lacks : Lacks members name) : delAttr members name = members := by
  rw [delAttr, key?_eq_none_iff.mpr lacks]

/-- Nothing is left of an attribute that is removed. -/
theorem Distinct.lacks_delAttr (distinct : Distinct members) (name : String) :
    Lacks (delAttr members name) name := by
  unfold delAttr
  cases found : key? members name with
  | none => exact key?_eq_none_iff.mp found
  | some key =>
      obtain ⟨held, same⟩ := key?_eq_some found
      intro other kept
      obtain ⟨member, inErased, rfl⟩ := List.mem_map.mp kept
      obtain ⟨inMembers, differs⟩ := List.mem_filter.mp inErased
      have : Std.Symm fun a b => sameName a b = false :=
        ⟨fun a b differ => (sameName_comm b a).trans differ⟩
      have differ := List.Pairwise.forall distinct (List.mem_map_of_mem inMembers) held
        (by simpa using differs)
      rw [sameName_congr_right same] at differ
      exact differ

/-! ## Setting what is there and what is not -/

/-- Setting a member to the value it has changes nothing. -/
theorem set_of_get? {key : String} {value : Json} (held : get? members key = some value) :
    set members key value = members := by
  induction members with
  | nil => cases held
  | cons member rest ih =>
      obtain ⟨first, stored⟩ := member
      rw [get?_cons] at held
      rw [set]
      by_cases equal : key = first
      · rw [if_pos equal] at held
        cases held
        rw [if_pos equal.symm]
      · rw [if_neg equal] at held
        rw [if_neg (Ne.symm equal), ih held]

/-- Setting an attribute to the value it has changes nothing. -/
theorem setAttr_of_attr? {value : Json} (held : attr? members name = some value) :
    setAttr members name value = members := by
  obtain ⟨key, found, stored⟩ := Option.bind_eq_some_iff.mp held
  rw [setAttr, found, Option.getD_some, set_of_get? stored]

theorem set_of_not_mem {key : String} (absent : key ∉ names members) (value : Json) :
    set members key value = members ++ [(key, value)] := by
  induction members with
  | nil => rfl
  | cons member rest ih =>
      obtain ⟨first, stored⟩ := member
      rw [names, List.map_cons, List.mem_cons, not_or] at absent
      rw [set, if_neg (Ne.symm absent.1), ih absent.2, List.cons_append]

theorem Lacks.not_mem (lacks : Lacks members name) : name ∉ names members := by
  intro held
  have differ := lacks name held
  rw [sameName_refl] at differ
  cases differ

/-- An attribute that is not there is appended when it is set. -/
theorem Lacks.setAttr_eq (lacks : Lacks members name) (value : Json) :
    setAttr members name value = members ++ [(name, value)] := by
  rw [setAttr, key?_eq_none_iff.mpr lacks, Option.getD_none, set_of_not_mem lacks.not_mem]

theorem Lacks.append (lacks : Lacks members name) (differ : sameName other name = false)
    (value : Json) : Lacks (members ++ [(other, value)]) name := by
  intro key held
  rw [names, List.map_append, List.mem_append] at held
  cases held with
  | inl inside => exact lacks key inside
  | inr last =>
      cases List.mem_singleton.mp last
      exact differ

/-- An attribute that was appended is taken away again. -/
theorem Lacks.delAttr_append (lacks : Lacks members name) (value : Json) :
    delAttr (members ++ [(name, value)]) name = members := by
  have held : name ∈ names (members ++ [(name, value)]) := by simp [names]
  rw [delAttr, key?_of_mem held]
  have kept : members.filter (fun member => member.1 ≠ name) = members := by
    refine List.filter_eq_self.mpr fun member inMembers => ?_
    have other : member.1 ≠ name := by
      rintro rfl
      exact lacks.not_mem (List.mem_map_of_mem inMembers)
    simpa using other
  simp only [erase, List.filter_append, kept]
  simp

end Scim.Members
