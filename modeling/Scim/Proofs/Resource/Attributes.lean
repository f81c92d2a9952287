import Scim.Resource
import Scim.Schema.Builtin

/-!
# Laws of attributes

What setting, removing and merging attributes does to the value of an attribute.
The members whose names are spellings of one name are the only ones that a look-up
of the name examines, and a change of another attribute leaves them alone.
-/

namespace Scim

theorem Json.isObj_iff {value : Json} : value.isObj = true ↔ ∃ members, value = .obj members := by
  cases value <;> simp [isObj]

theorem sameName_iff (a b : String) : sameName a b = true ↔ Text.lower a = Text.lower b := by
  simp [sameName]

theorem sameName_refl (name : String) : sameName name name = true := by
  simp [sameName]

theorem sameName_comm (a b : String) : sameName a b = sameName b a := by
  simp only [sameName, Bool.beq_comm]

/-- Spellings of one name are spellings of the same names. -/
theorem sameName_congr {a b : String} (same : sameName a b = true) (other : String) :
    sameName a other = sameName b other := by
  simp only [sameName, (sameName_iff a b).mp same]

theorem sameName_congr_right {a b : String} (same : sameName a b = true) (other : String) :
    sameName other a = sameName other b := by
  rw [sameName_comm other, sameName_comm other, sameName_congr same]

/-- Spellings of one URN are that of the same registered schema. -/
theorem Schema.find?_congr {a b : String} (same : sameName a b = true) :
    Schema.find? a = Schema.find? b := by
  simp only [Schema.find?, sameName_congr_right same]

namespace Members

/-! ## Members under exact names -/

theorem get?_isSome_iff (members : Members) (name : String) :
    (get? members name).isSome = true ↔ name ∈ names members := by
  induction members with
  | nil => simp [names]
  | cons member rest ih =>
      obtain ⟨n, value⟩ := member
      rw [get?_cons]
      by_cases equal : name = n
      · simp [names, equal]
      · rw [if_neg equal, ih]
        simp [names, equal]

theorem mem_names_set (members : Members) (name other : String) (value : Json) :
    other ∈ names (set members name value) ↔ other = name ∨ other ∈ names members := by
  rw [← get?_isSome_iff, get?_set, ← get?_isSome_iff]
  by_cases equal : other = name <;> simp [equal]

/-- Overwriting a member leaves the names as they are. -/
theorem names_set_of_mem {members : Members} {name : String} (present : name ∈ names members)
    (value : Json) : names (set members name value) = names members := by
  induction members with
  | nil => simp [names] at present
  | cons member rest ih =>
      obtain ⟨n, v⟩ := member
      by_cases equal : n = name
      · simp [set, names, equal]
      · have later : name ∈ names rest := by
          simpa [names, Ne.symm equal] using present
        simp only [set, if_neg equal, names, List.map_cons, List.cons.injEq, true_and]
        exact ih later

/-! ## Looking attributes up -/

theorem key?_eq (members : Members) (name : String) :
    key? members name =
      if name ∈ names members then some name
      else (names members).find? (sameName · name) := by
  have present : members.any (·.1 = name) = true ↔ name ∈ names members := by
    simp [names]
  unfold key?
  by_cases exact : name ∈ names members
  · rw [if_pos (present.mpr exact), if_pos exact]
  · rw [if_neg (mt present.mp exact), if_neg exact]
    rfl

/-- The stored spelling is a name of a member and a spelling of what was sought. -/
theorem key?_eq_some {members : Members} {name key : String}
    (found : key? members name = some key) :
    key ∈ names members ∧ sameName key name = true := by
  rw [key?_eq] at found
  split at found
  · next exact =>
      cases found
      exact ⟨exact, sameName_refl _⟩
  · have spelling := List.find?_some found
    exact ⟨List.mem_of_find?_eq_some found, spelling⟩

theorem key?_of_mem {members : Members} {name : String} (present : name ∈ names members) :
    key? members name = some name := by
  rw [key?_eq, if_pos present]

/-- Setting an attribute puts its value under the stored spelling, if there is one. -/
theorem key?_setAttr_self (members : Members) (name : String) (value : Json) :
    key? (setAttr members name value) name = some ((key? members name).getD name) := by
  unfold setAttr
  cases found : key? members name with
  | none => exact key?_of_mem ((mem_names_set ..).mpr (.inl rfl))
  | some key =>
      rw [Option.getD_some, key?_eq, names_set_of_mem (key?_eq_some found).1, ← key?_eq, found]

@[simp] theorem attr?_setAttr_self (members : Members) (name : String) (value : Json) :
    attr? (setAttr members name value) name = some value := by
  unfold attr?
  rw [key?_setAttr_self, Option.bind_some, setAttr, get?_set, if_pos rfl]

@[simp] theorem attr_setAttr_self (members : Members) (name : String) (value : Json) :
    attr (setAttr members name value) name = value := by
  rw [attr, attr?_setAttr_self, Option.getD_some]

end Members

end Scim
