import Scim.Proofs.Resource.Attributes

/-!
# The spellings of a name

The members whose names are spellings of one name are all that a look-up of the name
examines.  A change of an attribute acts on its own spellings as it does on the whole
resource, and leaves those of every other name as they are, with their order.
-/

namespace Scim.Members

/-- The members whose names are spellings of a name, in order. -/
def spellings (members : Members) (name : String) : Members :=
  members.filter fun member => sameName member.1 name

variable {members : Members} {name other : String}

@[simp] theorem spellings_nil (name : String) : spellings [] name = [] := rfl

theorem spellings_cons (key : String) (value : Json) (rest : Members) (name : String) :
    spellings ((key, value) :: rest) name =
      if sameName key name then (key, value) :: spellings rest name else spellings rest name :=
  List.filter_cons

theorem mem_names_spellings (key : String) :
    key ∈ names (spellings members name) ↔ key ∈ names members ∧ sameName key name = true := by
  simp only [names, spellings, List.mem_map, List.mem_filter]
  constructor
  · rintro ⟨member, ⟨held, same⟩, rfl⟩
    exact ⟨⟨member, held, rfl⟩, same⟩
  · rintro ⟨⟨member, held, rfl⟩, same⟩
    exact ⟨member, ⟨held, same⟩, rfl⟩

/-! ## Looking up -/

theorem get?_spellings (same : sameName other name = true) :
    get? (spellings members name) other = get? members other := by
  induction members with
  | nil => rfl
  | cons member rest ih =>
      obtain ⟨key, value⟩ := member
      rw [spellings_cons]
      cases spelled : sameName key name with
      | true => rw [if_pos rfl, get?_cons, get?_cons, ih]
      | false =>
          have differs : other ≠ key := by
            rintro rfl
            rw [same] at spelled
            cases spelled
          rw [if_neg Bool.false_ne_true, get?_cons, if_neg differs, ih]

theorem key?_spellings (same : sameName other name = true) :
    key? (spellings members name) other = key? members other := by
  have exact : other ∈ names (spellings members name) ↔ other ∈ names members := by
    simp [mem_names_spellings, same]
  have found : (names (spellings members name)).find? (sameName · other) =
      (names members).find? (sameName · other) := by
    induction members with
    | nil => rfl
    | cons member rest ih =>
        obtain ⟨key, value⟩ := member
        have agree : sameName key name = sameName key other :=
          (sameName_congr_right same key).symm
        have later := ih (by simp [mem_names_spellings, same])
        rw [spellings_cons, agree]
        cases spelled : sameName key other with
        | true => simp [names, spelled]
        | false => simpa [names, spelled] using later
  rw [key?_eq, key?_eq, found]
  simp only [exact]

theorem attr?_spellings (same : sameName other name = true) :
    attr? (spellings members name) other = attr? members other := by
  unfold attr?
  rw [key?_spellings same]
  cases found : key? members other with
  | none => rfl
  | some key =>
      have spelled := (key?_eq_some found).2
      have sameKey : sameName key name = true := by rw [sameName_congr spelled, same]
      exact get?_spellings sameKey

/-- Resources with the same spellings of a name have the same value for it. -/
theorem attr?_congr {before after : Members} (same : spellings before name = spellings after name) :
    attr? before name = attr? after name := by
  rw [← attr?_spellings (sameName_refl name), same, attr?_spellings (sameName_refl name)]

/-! ## Changes under exact names -/

theorem spellings_set (members : Members) (key : String) (value : Json) (name : String) :
    spellings (set members key value) name =
      if sameName key name then set (spellings members name) key value
      else spellings members name := by
  induction members with
  | nil => cases same : sameName key name <;> simp [spellings_cons, set, same]
  | cons member rest ih =>
      obtain ⟨first, stored⟩ := member
      rw [set]
      by_cases equal : first = key
      · subst equal
        cases same : sameName first name <;> simp [spellings_cons, set, same]
      · rw [if_neg equal, spellings_cons, spellings_cons, ih]
        cases spelled : sameName first name <;> cases same : sameName key name <;>
          simp [set, equal]

theorem spellings_erase (members : Members) {key : String} (differ : sameName key name = false) :
    spellings (erase members key) name = spellings members name := by
  simp only [spellings, erase, List.filter_filter]
  refine List.filter_congr fun member _ => ?_
  by_cases equal : member.1 = key
  · simp [equal, differ]
  · simp [equal]

theorem spellings_modify (members : Members) {key : String} (differ : sameName key name = false)
    (f : Json → Json) : spellings (modify members key f) name = spellings members name := by
  induction members with
  | nil => rfl
  | cons member rest ih =>
      obtain ⟨first, value⟩ := member
      have step : modify ((first, value) :: rest) key f =
          (first, if first = key then f value else value) :: modify rest key f := by
        by_cases equal : first = key <;> simp [modify, equal]
      rw [step, spellings_cons, spellings_cons, ih]
      by_cases equal : first = key
      · simp [equal, differ]
      · simp [equal]

/-! ## Changes of attributes -/

/-- Setting an attribute acts on its own spellings. -/
theorem spellings_setAttr (members : Members) (attr : String) (value : Json) (name : String) :
    spellings (setAttr members attr value) name =
      if sameName attr name then setAttr (spellings members name) attr value
      else spellings members name := by
  have sameKey : sameName ((key? members attr).getD attr) name = sameName attr name := by
    cases found : key? members attr with
    | none => rfl
    | some key => exact sameName_congr (key?_eq_some found).2 name
  rw [setAttr, spellings_set, sameKey]
  cases same : sameName attr name with
  | true => rw [if_pos rfl, if_pos rfl, setAttr, key?_spellings same]
  | false => rfl

theorem spellings_setAttr_of_differ (members : Members) {attr : String}
    (differ : sameName attr name = false) (value : Json) :
    spellings (setAttr members attr value) name = spellings members name := by
  rw [spellings_setAttr, differ, if_neg Bool.false_ne_true]

theorem spellings_delAttr (members : Members) {attr : String}
    (differ : sameName attr name = false) :
    spellings (delAttr members attr) name = spellings members name := by
  unfold delAttr
  cases found : key? members attr with
  | none => rfl
  | some key =>
      refine spellings_erase members ?_
      rw [sameName_congr (key?_eq_some found).2, differ]

@[simp] theorem merge_nil (members : Members) : merge members [] = members := rfl

theorem merge_append (members first last : Members) :
    merge members (first ++ last) = merge (merge members first) last :=
  List.foldl_append

/-- Merging values acts on the spellings of a name as the values under spellings of it. -/
theorem spellings_merge (members values : Members) (name : String) :
    spellings (merge members values) name =
      merge (spellings members name) (spellings values name) := by
  induction values generalizing members with
  | nil => rfl
  | cons member rest ih =>
      obtain ⟨attr, value⟩ := member
      have step : merge members ((attr, value) :: rest) = merge (setAttr members attr value) rest :=
        rfl
      rw [step, ih, spellings_setAttr]
      cases same : sameName attr name with
      | true => simp [spellings_cons, same, merge]
      | false => simp [spellings_cons, same]

/-- The spellings of a name after a merge depend on those before. -/
theorem spellings_merge_congr {before after : Members}
    (same : spellings before name = spellings after name) (values : Members) :
    spellings (merge before values) name = spellings (merge after values) name := by
  rw [spellings_merge, spellings_merge, same]

end Scim.Members
