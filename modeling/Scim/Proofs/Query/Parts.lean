import Scim.Proofs.Json.Alikeness
import Scim.Proofs.Query.Leftovers

/-!
# Parts of values

A part of a value is what is left of it when members are taken away from its objects, however deep
they are; a list keeps its length, but has empty objects in the place of what is no object.  What is
alike to the whole in a part of a part is so in the part: what was taken away is not put back.
-/

namespace Scim

open Members

variable {members others object : Members} {value whole : Json} {place : Option Json}

/-- A name is looked up alike in objects of the same names, if each of these is spelled once. -/
theorem Members.Distinct.key?_congr (distinct : Distinct others)
    (same : ∀ key, key ∈ names members ↔ key ∈ names others) (name : String) :
    key? members name = key? others name := by
  cases found : key? members name with
  | some key =>
      obtain ⟨held, spelled⟩ := key?_eq_some found
      exact (distinct.key?_eq ((same key).mp held) spelled).symm
  | none =>
      have lacks := key?_eq_none_iff.mp found
      exact (key?_eq_none_iff.mpr fun key held => lacks key ((same key).mpr held)).symm

/-- Alike objects tell the URN of the core schema alike, or fail alike. -/
theorem Members.isCoreUri_congr_alike
    (alike : Json.AlikeAt (get? members "schemas") (get? others "schemas")) (uri : String) :
    isCoreUri members uri = isCoreUri others uri := by
  rw [isCoreUri, isCoreUri]
  cases Schema.find? uri with
  | some part => rfl
  | none =>
      dsimp only
      generalize get? members "schemas" = value at alike ⊢
      generalize get? others "schemas" = other at alike ⊢
      cases alike with
      | missing => rfl
      | there alike =>
          rw [Option.getD_some, Option.getD_some]
          cases alike with
          | refl => rfl
          | @arr items elements each =>
              have heads := each 0
              cases items with
              | nil =>
                  cases elements with
                  | nil => rfl
                  | cons => cases heads
              | cons item rest =>
                  cases elements with
                  | nil => cases heads
                  | cons element behind =>
                      cases heads with
                      | there alike =>
                          cases alike with
                          | refl => cases item <;> rfl
                          | arr | obj => rfl
          | @obj members others each =>
              have empty : members.isEmpty = others.isEmpty := by
                cases members with
                | nil =>
                    cases (Json.Alike.obj each).eq_empty
                    rfl
                | cons =>
                    cases others with
                    | nil => cases (Json.Alike.obj each).symm.eq_empty
                    | cons => rfl
              simp only [Json.isVoid, empty]
              rfl

/-- A name is looked up in fewer names as it is in all of them, unless it was taken away. -/
theorem Members.Distinct.key?_filter (distinct : Distinct members)
    (fewer : (names object).Subperm (names members)) (name : String) :
    key? object name = (key? members name).filter (· ∈ names object) := by
  cases found : key? members name with
  | none =>
      have lacks := key?_eq_none_iff.mp found
      exact key?_eq_none_iff.mpr fun key held => lacks key (fewer.subset held)
  | some key =>
      have spelled := (key?_eq_some found).2
      by_cases kept : key ∈ names object
      · rw [(distinct.of_subperm fewer).key?_eq kept spelled, Option.filter_some]
        simp [kept]
      · have differ : ∀ other, key? object name ≠ some other := by
          intro other foundThere
          obtain ⟨held, same⟩ := key?_eq_some foundThere
          rw [distinct.key?_eq (fewer.subset held) same] at found
          cases found
          exact kept held
        rw [Option.eq_none_iff_forall_ne_some.mpr differ, Option.filter_some]
        simp [kept]

/-- An attribute in fewer names is what is under the name that it has in all of them. -/
theorem Members.Distinct.attr?_eq (distinct : Distinct members)
    (fewer : (names object).Subperm (names members)) (name : String) :
    attr? object name = (key? members name).bind (get? object) := by
  rw [attr?, distinct.key?_filter fewer]
  cases key? members name with
  | none => rfl
  | some key =>
      rw [Option.filter_some]
      split
      · rfl
      · next absent =>
        rw [decide_eq_true_eq, ← get?_isSome_iff, Option.not_isSome_iff_eq_none] at absent
        exact absent.symm

namespace Json

/-! ## Less of a value, however deep -/

mutual

/-- Whether a value is what is left of another one when members are taken away from objects. -/
inductive PartOf : Json → Json → Prop where
  | refl (value : Json) : PartOf value value
  | arr {items elements : List Json} (each : ∀ i : Nat, ItemAt items[i]? elements[i]?) :
      PartOf (.arr items) (.arr elements)
  | obj {object members : Members} (fewer : (names object).Subperm (names members))
      (each : ∀ key, PartAt (get? object key) (get? members key)) :
      PartOf (.obj object) (.obj members)

/-- Whether a value is a part of another one, or is missing. -/
inductive PartAt : Option Json → Option Json → Prop where
  | missing (whole : Option Json) : PartAt none whole
  | there {value whole : Json} (part : PartOf value whole) : PartAt (some value) (some whole)

/-- Whether an element of a list is a part of another one, is missing, or is an empty object. -/
inductive ItemAt : Option Json → Option Json → Prop where
  | missing (whole : Option Json) : ItemAt none whole
  | there {value whole : Json} (part : PartOf value whole) : ItemAt (some value) (some whole)
  | emptied (whole : Json) : ItemAt (some (.obj [])) (some whole)

end

theorem PartAt.refl : (place : Option Json) → PartAt place place
  | none => .missing none
  | some value => .there (.refl value)

theorem partAt_some_iff : PartAt (some value) (some whole) ↔ PartOf value whole :=
  ⟨fun | .there part => part, .there⟩

theorem PartAt.eq_none (part : PartAt place none) : place = none := by
  cases part
  rfl

theorem ItemAt.refl : (place : Option Json) → ItemAt place place
  | none => .missing none
  | some value => .there (.refl value)

/-- The parts of an object are objects of fewer names, with parts of the values under them. -/
theorem partOf_obj_iff : PartOf value (.obj members) ↔
    ∃ object, value = .obj object ∧ (names object).Subperm (names members) ∧
      ∀ key, PartAt (get? object key) (get? members key) := by
  constructor
  · intro part
    cases part with
    | refl => exact ⟨members, rfl, .refl _, fun _ => .refl _⟩
    | obj fewer each => exact ⟨_, rfl, fewer, each⟩
  · rintro ⟨object, rfl, fewer, each⟩
    exact .obj fewer each

theorem PartOf.eq_empty (part : PartOf value (.obj [])) : value = .obj [] := by
  obtain ⟨object, rfl, fewer, _⟩ := partOf_obj_iff.mp part
  rw [List.map_eq_nil_iff.mp (List.subperm_nil.mp fewer)]

mutual

theorem PartOf.trans {value middle whole : Json} :
    PartOf value middle → PartOf middle whole → PartOf value whole
  | .refl _, part => part
  | part, .refl _ => part
  | .arr first, .arr last => .arr fun i => (first i).trans (last i)
  | .obj fewer first, .obj fewest last =>
    .obj (fewer.trans fewest) fun key => (first key).trans (last key)

theorem PartAt.trans {place between within : Option Json} :
    PartAt place between → PartAt between within → PartAt place within
  | .missing _, _ => .missing _
  | .there first, .there last => .there (first.trans last)

theorem ItemAt.trans {place between within : Option Json} :
    ItemAt place between → ItemAt between within → ItemAt place within
  | .missing _, _ => .missing _
  | .there first, .there last => .there (first.trans last)
  | .there part, .emptied _ => by
    rw [part.eq_empty]
    exact .emptied _
  | .emptied _, .there _ => .emptied _
  | .emptied _, .emptied _ => .emptied _

end

mutual

/-- What is alike to the whole in a part of a part is alike to it in the part. -/
theorem PartOf.alike {value middle whole : Json} : PartOf value middle → PartOf middle whole →
    Alike value whole → Alike middle whole
  | .refl _, _, alike => alike
  | _, .refl _, _ => .refl _
  | .arr first, .arr last, alike =>
    .arr fun i => (first i).alikeAt (last i) (alike_arr_iff.mp alike i)
  | .obj _ first, .obj _ last, alike =>
    .obj fun key => (first key).alikeAt (last key) (alike_obj_iff.mp alike key)

theorem PartAt.alikeAt {place between within : Option Json} : PartAt place between →
    PartAt between within → AlikeAt place within → AlikeAt between within
  | .missing _, last, .missing => by
    rw [last.eq_none]
    exact .missing
  | .there first, .there last, .there alike => .there (first.alike last alike)

theorem ItemAt.alikeAt {place between within : Option Json} : ItemAt place between →
    ItemAt between within → AlikeAt place within → AlikeAt between within
  | .missing _, .missing _, .missing => .missing
  | .there first, .there last, .there alike => .there (first.alike last alike)
  | .there part, .emptied _, alike => by
    rw [part.eq_empty] at alike
    exact alike
  | .emptied _, last, .there alike => by
    rw [alike.eq_empty] at last ⊢
    cases last with
    | there part =>
        rw [part.eq_empty]
        exact .refl _
    | emptied => exact .refl _

end

mutual

/-- The parts of an unambiguous value are unambiguous. -/
theorem PartOf.unambiguous {value whole : Json} : PartOf value whole → whole.unambiguous = true →
    value.unambiguous = true
  | .refl _, unambiguous => unambiguous
  | .arr each, unambiguous => unambiguous_arr_iff.mpr fun item held => by
    obtain ⟨i, there⟩ := List.mem_iff_getElem?.mp held
    refine (each i).unambiguous (fun element heldWhole => ?_) item there
    exact unambiguous_arr_iff.mp unambiguous element (List.mem_of_getElem? heldWhole)
  | .obj fewer each, unambiguous => by
    obtain ⟨distinct, all⟩ := unambiguous_obj_iff.mp unambiguous
    have single := distinct.of_subperm fewer
    refine unambiguous_obj_iff.mpr ⟨single, fun member held => ?_⟩
    exact (each member.1).unambiguous (fun _ => AllUnambiguous.get? all) member.2
      (get?_of_mem single.nodup held)

theorem PartAt.unambiguous {place within : Option Json} : PartAt place within →
    (∀ whole, within = some whole → whole.unambiguous = true) →
      ∀ value, place = some value → value.unambiguous = true
  | .there part, unambiguous, _, rfl => part.unambiguous (unambiguous _ rfl)

theorem ItemAt.unambiguous {place within : Option Json} : ItemAt place within →
    (∀ whole, within = some whole → whole.unambiguous = true) →
      ∀ value, place = some value → value.unambiguous = true
  | .there part, unambiguous, _, rfl => part.unambiguous (unambiguous _ rfl)
  | .emptied _, _, _, rfl => rfl

end

/-! ## Slots -/

/-- What a value holds in a slot, which a list of names leads to through objects. -/
def find? : List String → Json → Option Json
  | [], value => some value
  | name :: rest, .obj members => (attr? members name).bind (find? rest)
  | _ :: _, _ => none

theorem bind_find?_nil (place : Option Json) : place.bind (find? []) = place := by
  cases place <;> rfl

theorem find?_obj (name : String) (rest : List String) (members : Members) :
    find? (name :: rest) (.obj members) = (attr? members name).bind (find? rest) := rfl

/-- What a part holds in a slot is a part of what the whole holds there. -/
theorem PartOf.find? (part : PartOf value whole) (unambiguous : whole.unambiguous = true)
    (slot : List String) : PartAt (find? slot value) (find? slot whole) := by
  induction slot generalizing value whole with
  | nil => exact .there part
  | cons name rest ih =>
      cases part with
      | refl => exact .refl _
      | arr => exact .missing none
      | @obj object members fewer each =>
          obtain ⟨distinct, all⟩ := unambiguous_obj_iff.mp unambiguous
          rw [find?_obj, find?_obj, distinct.attr?_eq fewer, attr?]
          cases key? members name with
          | none => exact .missing none
          | some key =>
              dsimp only [Option.bind_some]
              have there := each key
              generalize get? object key = place at there ⊢
              cases held : get? members key with
              | none =>
                  rw [held] at there
                  rw [there.eq_none]
                  exact .missing none
              | some whole =>
                  rw [held] at there
                  cases there with
                  | missing => exact .missing _
                  | there part => exact ih part (AllUnambiguous.get? all held)

end Json

end Scim
