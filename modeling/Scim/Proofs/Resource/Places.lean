import Scim.Proofs.Resource.Removal

/-!
# Members in their places

An attribute has one place among the members of an object: that of its stored spelling, or
the end if there is none.  Setting or removing it acts on this place only.  Changes in
different places can be made in either order, up to the order in which new members are
appended.
-/

namespace Scim.Members

variable {members : Members} {key other attr name : String}

/-! ## Members under exact names -/

theorem set_set (members : Members) (key : String) (first last : Json) :
    set (set members key first) key last = set members key last := by
  induction members with
  | nil => simp [set]
  | cons member rest ih =>
      obtain ⟨n, stored⟩ := member
      by_cases equal : n = key
      · simp [set, equal]
      · simp [set, equal, ih]

@[simp] theorem erase_cons (n : String) (value : Json) (rest : Members) (key : String) :
    erase ((n, value) :: rest) key =
      if n = key then erase rest key else (n, value) :: erase rest key := by
  by_cases equal : n = key <;> simp [erase, equal]

theorem erase_set (members : Members) (key : String) (value : Json) :
    erase (set members key value) key = erase members key := by
  induction members with
  | nil => simp [set, erase]
  | cons member rest ih =>
      obtain ⟨n, stored⟩ := member
      by_cases equal : n = key
      · simp [set, equal]
      · simp [set, equal, ih]

theorem erase_set_of_ne (differ : other ≠ key) (members : Members) (value : Json) :
    erase (set members key value) other = set (erase members other) key value := by
  induction members with
  | nil => simp [set, erase, differ.symm]
  | cons member rest ih =>
      obtain ⟨n, stored⟩ := member
      by_cases here : n = key
      · simp [set, here, differ.symm]
      · by_cases gone : n = other
        · simp [set, gone, differ, ih]
        · simp [set, here, gone, ih]

theorem erase_comm (members : Members) (key other : String) :
    erase (erase members key) other = erase (erase members other) key := by
  simp only [erase, List.filter_filter, Bool.and_comm]

/-- Two members can be set in either order, but new ones are appended in that order. -/
theorem set_set_perm (differ : key ≠ other) (members : Members) (value second : Json) :
    (set (set members key value) other second).Perm
      (set (set members other second) key value) := by
  induction members with
  | nil =>
      simp only [set, if_neg differ, if_neg differ.symm]
      exact .swap ..
  | cons member rest ih =>
      obtain ⟨n, stored⟩ := member
      by_cases here : n = key
      · simp [set, here, differ]
      · by_cases there : n = other
        · simp [set, there, differ.symm]
        · simp only [set, if_neg here, if_neg there]
          exact ih.cons _

/-- What is removed was there under no other name. -/
theorem erase_eq_self (absent : key ∉ names members) : erase members key = members := by
  refine List.filter_eq_self.mpr fun member held => ?_
  have differ : member.1 ≠ key := by
    rintro rfl
    exact absent (List.mem_map_of_mem held)
  simpa using differ

theorem mem_erase {member : String × Json} :
    member ∈ erase members key ↔ member ∈ members ∧ member.1 ≠ key := by
  simp [erase]

/-- What is found under a key is a member. -/
theorem mem_of_get? {value : Json} (held : get? members key = some value) :
    (key, value) ∈ members := by
  obtain ⟨before, behind, whole, _⟩ := List.lookup_eq_some_iff.mp held
  rw [whole]
  exact List.mem_append_right _ List.mem_cons_self

/-- In an object whose names are distinct a member is found under its name. -/
theorem get?_of_mem {value : Json} (nodup : (names members).Nodup)
    (held : (name, value) ∈ members) : get? members name = some value := by
  induction members with
  | nil => cases held
  | cons member rest ih =>
      obtain ⟨first, stored⟩ := member
      obtain ⟨fresh, nodup⟩ := List.nodup_cons.mp nodup
      rw [get?_cons]
      cases List.mem_cons.mp held with
      | inl equal =>
          cases equal
          rw [if_pos rfl]
      | inr inRest =>
          have inNames : name ∈ names rest := List.mem_map_of_mem inRest
          have other : name ≠ first := by
            rintro rfl
            exact fresh inNames
          rw [if_neg other, ih nodup inRest]

theorem get?_erase (members : Members) (key other : String) :
    get? (erase members key) other = if other = key then none else get? members other := by
  induction members with
  | nil => simp [erase]
  | cons member rest ih =>
      obtain ⟨n, stored⟩ := member
      by_cases gone : n = key <;> by_cases here : other = n <;> simp_all

/-! ## Modifying a member -/

theorem modify_cons (n : String) (value : Json) (rest : Members) (key : String)
    (f : Json → Json) :
    modify ((n, value) :: rest) key f =
      (n, if n = key then f value else value) :: modify rest key f := by
  by_cases equal : n = key <;> simp [modify, equal]

theorem get?_modify (members : Members) (key other : String) (f : Json → Json) :
    get? (modify members key f) other =
      if other = key then (get? members key).map f else get? members other := by
  induction members with
  | nil => simp [modify]
  | cons member rest ih =>
      obtain ⟨n, value⟩ := member
      rw [modify_cons, get?_cons, ih, get?_cons, get?_cons]
      by_cases here : other = n
      · by_cases equal : n = key <;> simp [here, equal]
      · by_cases equal : other = key
        · subst equal
          simp [here]
        · simp [here, equal]

@[simp] theorem names_modify (members : Members) (key : String) (f : Json → Json) :
    names (modify members key f) = names members := by
  induction members with
  | nil => rfl
  | cons member rest ih =>
      rw [modify_cons, names, List.map_cons, ← names, ih]
      rfl

theorem erase_modify (members : Members) (key : String) (f : Json → Json) :
    erase (modify members key f) key = erase members key := by
  induction members with
  | nil => rfl
  | cons member rest ih =>
      obtain ⟨n, value⟩ := member
      rw [modify_cons, erase_cons, erase_cons, ih]
      by_cases equal : n = key <;> simp [equal]

theorem modify_modify (members : Members) (key : String) (f g : Json → Json) :
    modify (modify members key f) key g = modify members key (g ∘ f) := by
  induction members with
  | nil => rfl
  | cons member rest ih =>
      obtain ⟨n, value⟩ := member
      rw [modify_cons, modify_cons, modify_cons, ih]
      by_cases equal : n = key <;> simp [equal]

theorem modify_id (members : Members) (key : String) : modify members key id = members := by
  induction members with
  | nil => rfl
  | cons member rest ih =>
      obtain ⟨n, value⟩ := member
      rw [modify_cons, ih]
      by_cases equal : n = key <;> simp [equal]

/-! ## The place of an attribute -/

/-- The name under which an attribute is stored, or would be if it were set. -/
def place (members : Members) (attr : String) : String := (key? members attr).getD attr

theorem sameName_place (members : Members) (attr : String) :
    sameName (place members attr) attr = true := by
  unfold place
  cases found : key? members attr with
  | none => exact sameName_refl attr
  | some key => exact (key?_eq_some found).2

theorem setAttr_eq_set (members : Members) (attr : String) (value : Json) :
    setAttr members attr value = set members (place members attr) value := rfl

theorem delAttr_eq_erase (members : Members) (attr : String) :
    delAttr members attr = erase members (place members attr) := by
  unfold delAttr place
  cases found : key? members attr with
  | some key => rfl
  | none => exact (erase_eq_self (key?_eq_none_iff.mp found).not_mem).symm

theorem place_of_key? (found : key? members attr = some key) : place members attr = key := by
  rw [place, found, Option.getD_some]

theorem get?_place (members : Members) (attr : String) :
    get? members (place members attr) = attr? members attr := by
  cases found : key? members attr with
  | some key => rw [place_of_key? found, attr?, found, Option.bind_some]
  | none =>
      have absent : ¬ (get? members attr).isSome = true := by
        rw [get?_isSome_iff]
        exact (key?_eq_none_iff.mp found).not_mem
      rw [place, attr?, found]
      simpa using absent

theorem attr?_eq_some_of_attr {value : Json} (held : Members.attr members attr = value)
    (notNull : value.isNull = false) : attr? members attr = some value := by
  rw [Members.attr] at held
  cases found : attr? members attr with
  | none =>
      rw [found] at held
      subst held
      cases notNull
  | some stored =>
      rw [found] at held
      exact congrArg some held

theorem isSome_key?_of_attr {value : Json} (held : Members.attr members attr = value)
    (notNull : value.isNull = false) : (key? members attr).isSome = true := by
  have stored := attr?_eq_some_of_attr held notNull
  by_contra absent
  rw [attr?, Option.not_isSome_iff_eq_none.mp absent] at stored
  cases stored

/-- A stored spelling is an attribute of its own, with the same value. -/
theorem attr?_place (held : (key? members attr).isSome = true) :
    attr? members (place members attr) = attr? members attr := by
  obtain ⟨key, found⟩ := Option.isSome_iff_exists.mp held
  rw [place_of_key? found, attr?, attr?, key?_of_mem (key?_eq_some found).1, found]

theorem attr_place (members : Members) (attr : String) :
    Members.attr members (place members attr) = Members.attr members attr := by
  cases found : key? members attr with
  | none => rw [place, found, Option.getD_none]
  | some key =>
      rw [Members.attr, attr?_place (by rw [found]; rfl)]
      rfl

theorem delAttr_place (members : Members) (attr : String) :
    delAttr members (place members attr) = delAttr members attr := by
  cases found : key? members attr with
  | none => rw [place, found, Option.getD_none]
  | some key =>
      rw [place_of_key? found, delAttr, delAttr, key?_of_mem (key?_eq_some found).1, found]

/-- Setting an attribute under its stored spelling sets the attribute. -/
theorem setAttr_place (held : (key? members attr).isSome = true) (value : Json) :
    setAttr members (place members attr) value = setAttr members attr value := by
  obtain ⟨key, found⟩ := Option.isSome_iff_exists.mp held
  rw [place_of_key? found, setAttr, setAttr, key?_of_mem (key?_eq_some found).1, found]
  rfl

@[simp] theorem place_setAttr (members : Members) (attr : String) (value : Json) :
    place (setAttr members attr value) attr = place members attr := by
  rw [place, key?_setAttr_self, Option.getD_some, place]

theorem setAttr_setAttr (members : Members) (attr : String) (first last : Json) :
    setAttr (setAttr members attr first) attr last = setAttr members attr last := by
  rw [setAttr_eq_set, place_setAttr, setAttr_eq_set, set_set, setAttr_eq_set]

/-- What is set and then removed is removed. -/
theorem delAttr_setAttr (members : Members) (attr : String) (value : Json) :
    delAttr (setAttr members attr value) attr = delAttr members attr := by
  rw [delAttr_eq_erase, place_setAttr, setAttr_eq_set, erase_set, delAttr_eq_erase]

/-- Other attributes are stored where they were. -/
theorem place_congr {before after : Members}
    (same : spellings before name = spellings after name) : place before name = place after name := by
  rw [place, place, ← key?_spellings (sameName_refl name), same, key?_spellings (sameName_refl name)]

/-- Names that are no spellings of one name have different places. -/
theorem place_ne (differ : sameName attr name = false) :
    place members attr ≠ place members name := by
  intro equal
  have same : sameName attr name = true := by
    rw [← sameName_congr_right (sameName_place members name), ← equal, sameName_comm]
    exact sameName_place members attr
  rw [same] at differ
  cases differ

end Scim.Members
