import Scim.Proofs.Resource.Places

/-!
# Elements that are marked as primary

Marks are withdrawn from the end of a list on, so that the last marked element keeps its mark.  The
other elements and the values that are no lists stay as they are, and so do the lists in an object
under a name: only the lists at the top of a resource are examined.
-/

namespace Scim

open Members

/-- A value with the marks withdrawn, if it is a list, of all marked elements but the last. -/
def Json.singlyMarked : Json → Json
  | .arr items => .arr (keepLastPrimary items).1
  | value => value

namespace Members

variable {members : Members} {items kept : List Json} {key : String}

/-! ## The marks of a list -/

/-- Whether at most one element of a list is marked as primary. -/
def MarksOne (items : List Json) : Prop := items.countP isPrimary ≤ 1

instance (items : List Json) : Decidable (MarksOne items) := inferInstanceAs (Decidable (_ ≤ _))

/-- Whether a list is another one in which each marked element with a marked one behind it has lost
its mark. -/
def KeepsLastMark (items kept : List Json) : Prop :=
  ∀ i, kept[i]? = items[i]?.map fun item =>
    if isPrimary item && (items.drop (i + 1)).any isPrimary then unmark item else item

@[simp] theorem isPrimary_unmark (item : Json) : isPrimary (unmark item) = false := by
  cases item with
  | obj element => simp [unmark, isPrimary]
  | _ => rfl

@[simp] theorem keepLastPrimary_snd (items : List Json) :
    (keepLastPrimary items).2 = items.any isPrimary := by
  induction items with
  | nil => rfl
  | cons item rest ih =>
      rw [keepLastPrimary, List.any_cons, ← ih]
      cases marked : isPrimary item <;> simp

theorem keepLastPrimary_cons (item : Json) (rest : List Json) :
    (keepLastPrimary (item :: rest)).1 =
      (if isPrimary item && rest.any isPrimary then unmark item else item) ::
        (keepLastPrimary rest).1 := by
  rw [keepLastPrimary, ← keepLastPrimary_snd rest]
  cases isPrimary item <;> simp

theorem keepsLastMark_keepLastPrimary (items : List Json) :
    KeepsLastMark items (keepLastPrimary items).1 := by
  induction items with
  | nil => exact fun _ => rfl
  | cons item rest ih =>
      intro i
      rw [keepLastPrimary_cons]
      cases i with
      | zero => simp
      | succ i => simpa using ih i

/-- Of the marks of a list one is left, if there was any. -/
theorem countP_keepLastPrimary (items : List Json) :
    (keepLastPrimary items).1.countP isPrimary = if items.any isPrimary then 1 else 0 := by
  induction items with
  | nil => rfl
  | cons item rest ih =>
      rw [keepLastPrimary_cons, List.countP_cons, ih, List.any_cons]
      cases marked : isPrimary item <;> cases later : rest.any isPrimary <;> simp [marked]

theorem marksOne_keepLastPrimary (items : List Json) : MarksOne (keepLastPrimary items).1 := by
  rw [MarksOne, countP_keepLastPrimary]
  split <;> decide

/-! ## The marks of a resource -/

/-- Whether each list under a name has at most one marked element. -/
def SinglyMarked (members : Members) : Prop :=
  ∀ key items, get? members key = some (.arr items) → MarksOne items

/-- Whether each list in an object under a name has at most one marked element. -/
def SinglyMarkedWithin (members : Members) : Prop :=
  ∀ key object, get? members key = some (.obj object) → SinglyMarked object

theorem get?_singlePrimary_eq (members : Members) (key : String) :
    get? (singlePrimary members) key = (get? members key).map Json.singlyMarked := by
  induction members with
  | nil => rfl
  | cons member rest ih =>
      obtain ⟨name, value⟩ := member
      have split : singlePrimary ((name, value) :: rest) =
          (name, value.singlyMarked) :: singlePrimary rest := by
        cases value <;> rfl
      rw [split, get?_cons, get?_cons, ih]
      by_cases own : key = name <;> simp [own]

/-- What is no list has no elements to be marked as primary. -/
theorem get?_singlePrimary {value : Json} (held : get? members key = some value)
    (noList : value.isArr = false) : get? (singlePrimary members) key = some value := by
  rw [get?_singlePrimary_eq, held]
  cases value with
  | arr => cases noList
  | _ => rfl

theorem names_singlePrimary (members : Members) :
    names (singlePrimary members) = names members := by
  rw [names, singlePrimary, List.map_map]
  apply List.map_congr_left
  rintro ⟨name, value⟩ _
  cases value <;> rfl

theorem attr_singlePrimary {name : String} {value : Json} (held : attr members name = value)
    (given : value.isNull = false) (noList : value.isArr = false) :
    attr (singlePrimary members) name = value := by
  have stored := attr?_eq_some_of_attr held given
  rw [← get?_place] at stored
  have same : place (singlePrimary members) name = place members name := by
    rw [place, place, key?_eq, key?_eq, names_singlePrimary]
  rw [attr, ← get?_place, same, get?_singlePrimary stored noList, Option.getD_some]

theorem get?_singlePrimary_eq_arr_iff :
    get? (singlePrimary members) key = some (.arr kept) ↔
      ∃ items, get? members key = some (.arr items) ∧ kept = (keepLastPrimary items).1 := by
  rw [get?_singlePrimary_eq, Option.map_eq_some_iff]
  constructor
  · rintro ⟨value, held, is⟩
    cases value with
    | arr items =>
        cases is
        exact ⟨items, held, rfl⟩
    | _ => cases is
  · rintro ⟨items, held, rfl⟩
    exact ⟨_, held, rfl⟩

theorem get?_singlePrimary_eq_obj_iff {object : Members} :
    get? (singlePrimary members) key = some (.obj object) ↔
      get? members key = some (.obj object) := by
  rw [get?_singlePrimary_eq, Option.map_eq_some_iff]
  constructor
  · rintro ⟨value, held, is⟩
    cases value with
    | obj members =>
        cases is
        exact held
    | _ => cases is
  · exact fun held => ⟨_, held, rfl⟩

theorem singlyMarked_singlePrimary (members : Members) : (singlePrimary members).SinglyMarked := by
  intro key kept held
  obtain ⟨items, _, rfl⟩ := get?_singlePrimary_eq_arr_iff.mp held
  exact marksOne_keepLastPrimary items

end Members

end Scim
