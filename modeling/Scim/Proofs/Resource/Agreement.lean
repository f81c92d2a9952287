import Scim.Proofs.Resource.Places

/-!
# Objects that agree on a name

Two objects agree on a name if its spellings are found in the same places in both and have
values there that look the same.  Setting attributes to values that look the same keeps the
agreement, whatever the objects have beside.
-/

namespace Scim.Members

variable {α : Type} {view : Json → α} {members first second third : Members}
  {name attr other key : String} {value changed : Json}

/-- The stored spelling of an attribute that was set under one of its spellings. -/
theorem key?_setAttr (same : sameName other attr = true) (members : Members) (value : Json) :
    key? (setAttr members attr value) other = some ((key? members other).getD attr) := by
  unfold setAttr
  cases found : key? members attr with
  | none =>
      -- the attribute is appended under the spelling that is given
      have lacks : Lacks members attr := key?_eq_none_iff.mp found
      have lacksOther : Lacks members other := fun key held => by
        rw [sameName_congr_right same]
        exact lacks key held
      have appended : names (set members attr value) = names members ++ [attr] := by
        rw [set_of_not_mem lacks.not_mem, names, List.map_append]
        rfl
      have missing : (names members).find? (sameName · other) = none :=
        List.find?_eq_none.mpr fun key held => by simp [lacksOther key held]
      have spelled : sameName attr other = true := (sameName_comm attr other).trans same
      rw [Option.getD_none, key?_eq_none_iff.mpr lacksOther, Option.getD_none, key?_eq, appended,
        List.find?_append, missing]
      by_cases equal : other = attr
      · rw [if_pos (by simp [equal]), equal]
      · rw [if_neg (by simpa [equal] using lacksOther.not_mem)]
        simp [spelled]
  | some stored =>
      have present := (key?_eq_some found).1
      have kept : key? (set members stored value) other = key? members other := by
        rw [key?_eq, key?_eq, names_set_of_mem present]
      rw [Option.getD_some, kept]
      cases otherFound : key? members other with
      | some key => rfl
      | none =>
          have differ := key?_eq_none_iff.mp otherFound stored present
          rw [sameName_congr (key?_eq_some found).2, sameName_comm, same] at differ
          cases differ

theorem key?_setAttr_of_differ (differ : sameName attr other = false) (members : Members)
    (value : Json) : key? (setAttr members attr value) other = key? members other := by
  rw [← key?_spellings (sameName_refl other), spellings_setAttr_of_differ members differ,
    key?_spellings (sameName_refl other)]

theorem get?_setAttr_of_differ (differ : sameName attr other = false) (members : Members)
    (value : Json) : get? (setAttr members attr value) other = get? members other := by
  rw [← get?_spellings (sameName_refl other), spellings_setAttr_of_differ members differ,
    get?_spellings (sameName_refl other)]

/-- Whether two objects have the spellings of a name in the same places, with values that look the
same. -/
structure Agree (view : Json → α) (name : String) (first second : Members) : Prop where
  keys : ∀ attr, sameName attr name = true → key? first attr = key? second attr
  values : ∀ key, sameName key name = true →
    (get? first key).map view = (get? second key).map view

namespace Agree

theorem refl (view : Json → α) (name : String) (members : Members) :
    Agree view name members members := ⟨fun _ _ => rfl, fun _ _ => rfl⟩

theorem symm (agree : Agree view name first second) : Agree view name second first :=
  ⟨fun attr same => (agree.keys attr same).symm, fun key same => (agree.values key same).symm⟩

theorem trans (agree : Agree view name first second) (next : Agree view name second third) :
    Agree view name first third :=
  ⟨fun attr same => (agree.keys attr same).trans (next.keys attr same),
    fun key same => (agree.values key same).trans (next.values key same)⟩

theorem of_spellings (equal : spellings first name = spellings second name) :
    Agree view name first second := by
  constructor
  · intro attr same
    rw [← key?_spellings same, equal, key?_spellings same]
  · intro key same
    rw [← get?_spellings same, equal, get?_spellings same]

/-- What agrees in the values themselves agrees in what they look like. -/
theorem of_id (agree : Agree id name first second) (view : Json → α) :
    Agree view name first second := by
  refine ⟨agree.keys, fun key same => ?_⟩
  have equal := agree.values key same
  rw [Option.map_id_fun, id_eq, id_eq] at equal
  rw [equal]

theorem attr?_map (agree : Agree view name first second) (same : sameName attr name = true) :
    (Members.attr? first attr).map view = (Members.attr? second attr).map view := by
  unfold Members.attr?
  rw [agree.keys attr same]
  cases found : key? second attr with
  | none => rfl
  | some key =>
      have spelled : sameName key name = true := by rw [sameName_congr (key?_eq_some found).2, same]
      exact agree.values key spelled

theorem attr_eq (agree : Agree id name first second) (same : sameName attr name = true) :
    Members.attr first attr = Members.attr second attr := by
  have equal := agree.attr?_map same
  rw [Option.map_id_fun, id_eq, id_eq] at equal
  rw [Members.attr, equal, Members.attr]

/-- Setting an attribute to values that look the same. -/
theorem setAttr (agree : Agree view name first second) (attr : String)
    (same : view value = view changed) :
    Agree view name (setAttr first attr value) (setAttr second attr changed) := by
  constructor
  · intro other spelled
    cases own : sameName other attr with
    | true => rw [key?_setAttr own, key?_setAttr own, agree.keys other spelled]
    | false =>
        have differ : sameName attr other = false := (sameName_comm attr other).trans own
        rw [key?_setAttr_of_differ differ, key?_setAttr_of_differ differ,
          agree.keys other spelled]
  · intro key spelled
    cases own : sameName attr key with
    | true =>
        have attrSpelled : sameName attr name = true := by rw [sameName_congr own, spelled]
        rw [setAttr_eq_set, setAttr_eq_set, get?_set, get?_set, place, place,
          agree.keys attr attrSpelled]
        split
        · rw [Option.map_some, Option.map_some, same]
        · exact agree.values key spelled
    | false =>
        rw [get?_setAttr_of_differ own, get?_setAttr_of_differ own, agree.values key spelled]

theorem setAttr_of_differ (differ : sameName attr name = false) (members : Members)
    (value : Json) : Agree view name (Members.setAttr members attr value) members :=
  of_spellings (spellings_setAttr_of_differ members differ value)

/-- Setting an attribute by a function of its value. -/
theorem setAttr_by (agree : Agree id name first second) (attr : String) (f : Json → Json) :
    Agree id name (Members.setAttr first attr (f (Members.attr first attr)))
      (Members.setAttr second attr (f (Members.attr second attr))) := by
  cases own : sameName attr name with
  | true =>
      rw [agree.attr_eq own]
      exact agree.setAttr attr rfl
  | false => exact (setAttr_of_differ own _ _).trans (agree.trans (setAttr_of_differ own _ _).symm)

theorem merge (agree : Agree view name first second) (values : Members) :
    Agree view name (merge first values) (merge second values) := by
  induction values generalizing first second with
  | nil => exact agree
  | cons member rest ih => exact ih (agree.setAttr member.1 rfl)

/-- Modifying the member that is found for an attribute sets the attribute. -/
theorem of_modify (held : key? members attr = some key) (stored : get? members key = some value)
    (f : Json → Json) :
    Agree view name (modify members key f) (Members.setAttr members attr (f value)) := by
  have present := (key?_eq_some held).1
  have there : place members attr = key := place_of_key? held
  constructor
  · intro other _
    rw [setAttr_eq_set, there, key?_eq, key?_eq, names_modify, names_set_of_mem present]
  · intro other _
    rw [setAttr_eq_set, there, get?_modify, get?_set, stored]
    split <;> rfl

end Agree

/-! ## Names that lead to one attribute -/

/-- Whether a name leads to the attribute of an object to which another name leads. -/
def leads (members : Members) (name key : String) : Bool :=
  sameName key name && key? members key == key? members name

theorem key?_eq_none_congr (same : sameName attr name = true) :
    key? members attr = none ↔ key? members name = none := by
  rw [key?_eq_none_iff, key?_eq_none_iff]
  unfold Lacks
  simp only [sameName_congr_right same]

theorem exists_key?_of_sameName {there : String} (same : sameName attr name = true)
    (stored : key? members name = some there) : ∃ other, key? members attr = some other := by
  refine Option.ne_none_iff_exists'.mp fun missing => ?_
  rw [(key?_eq_none_congr same).mp missing] at stored
  cases stored

theorem attr_of_leads (led : leads members name key = true) :
    Members.attr members key = Members.attr members name := by
  obtain ⟨-, found⟩ := Bool.and_eq_true_iff.mp led
  rw [Members.attr, attr?, eq_of_beq found, Members.attr, attr?]

/-- Setting an attribute is seen under the names that lead to it. -/
theorem attr?_setAttr (members : Members) (key name : String) (value : Json) :
    attr? (setAttr members key value) name =
      if leads members name key then some value else attr? members name := by
  unfold leads
  cases same : sameName key name with
  | false =>
      rw [Bool.false_and, if_neg Bool.false_ne_true]
      exact attr?_congr (spellings_setAttr_of_differ members same value)
  | true =>
      have spelled : sameName name key = true := (sameName_comm name key).trans same
      rw [Bool.true_and, attr?, key?_setAttr spelled, Option.bind_some, setAttr_eq_set, get?_set,
        place]
      cases stored : key? members name with
      | none => simp [(key?_eq_none_congr same).mpr stored]
      | some there =>
          obtain ⟨other, found⟩ := exists_key?_of_sameName same stored
          rw [found, attr?, stored]
          by_cases equal : other = there
          · simp [equal]
          · simp [equal, Ne.symm equal]

theorem attr_setAttr (members : Members) (key name : String) (value : Json) :
    Members.attr (setAttr members key value) name =
      if leads members name key then value else Members.attr members name := by
  rw [Members.attr, attr?_setAttr]
  split <;> rfl

/-- The same names lead to an attribute after one was set. -/
theorem leads_setAttr (members : Members) (attr name : String) (value : Json) :
    leads (setAttr members attr value) name = leads members name := by
  funext key
  unfold leads
  cases same : sameName key name with
  | false => rfl
  | true =>
      rw [Bool.true_and, Bool.true_and]
      cases own : sameName attr name with
      | false =>
          have differ : sameName attr key = false := by rw [sameName_congr_right same, own]
          rw [key?_setAttr_of_differ differ, key?_setAttr_of_differ own]
      | true =>
          have ownKey : sameName key attr = true := by rw [sameName_congr_right own, same]
          have ownName : sameName name attr = true := (sameName_comm name attr).trans own
          rw [key?_setAttr ownKey, key?_setAttr ownName]
          cases stored : key? members name with
          | none => simp [(key?_eq_none_congr same).mpr stored]
          | some there =>
              obtain ⟨other, found⟩ := exists_key?_of_sameName same stored
              simp [found]

theorem leads_merge (members values : Members) (name : String) :
    leads (merge members values) name = leads members name := by
  induction values generalizing members with
  | nil => rfl
  | cons member rest ih => exact (ih _).trans (leads_setAttr members _ name _)

/-- Of the members that are merged into an object, the last that leads to an attribute is seen. -/
theorem attr_merge (members values : Members) (name : String) :
    Members.attr (merge members values) name =
      (values.filter (leads members name ·.1)).foldl (fun _ member => member.2)
        (Members.attr members name) := by
  induction values generalizing members with
  | nil => rfl
  | cons member rest ih =>
      obtain ⟨key, value⟩ := member
      change Members.attr (merge (setAttr members key value) rest) name = _
      rw [ih, leads_setAttr, attr_setAttr, List.filter_cons]
      cases leads members name key <;> rfl

end Scim.Members
