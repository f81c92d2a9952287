import Scim.Proofs.Resource.Attributes

/-!
# Values that differ in the order of members

Two values are alike if they are the same apart from the order in which their objects list members:
alike values stand under the same names of objects and in the same places of lists.
-/

namespace Scim

open Members

namespace Json

mutual

/-- Whether two values are the same apart from the order of members in objects. -/
inductive Alike : Json → Json → Prop where
  | refl (value : Json) : Alike value value
  | arr {items elements : List Json} (each : ∀ i : Nat, AlikeAt items[i]? elements[i]?) :
      Alike (.arr items) (.arr elements)
  | obj {members others : Members} (each : ∀ key, AlikeAt (get? members key) (get? others key)) :
      Alike (.obj members) (.obj others)

/-- Whether two values are alike, or both are missing. -/
inductive AlikeAt : Option Json → Option Json → Prop where
  | missing : AlikeAt none none
  | there {value other : Json} (alike : Alike value other) : AlikeAt (some value) (some other)

end

variable {members others : Members} {items elements : List Json} {value other : Json}
  {place elsewhere : Option Json}

theorem AlikeAt.refl : (place : Option Json) → AlikeAt place place
  | none => .missing
  | some value => .there (.refl value)

theorem alikeAt_some_iff : AlikeAt (some value) (some other) ↔ Alike value other :=
  ⟨fun | .there alike => alike, .there⟩

theorem AlikeAt.isSome_eq (alike : AlikeAt place elsewhere) : place.isSome = elsewhere.isSome := by
  cases alike <;> rfl

/-- Objects are alike if they are so name by name. -/
theorem alike_obj_iff :
    Alike (.obj members) (.obj others) ↔ ∀ key, AlikeAt (get? members key) (get? others key) := by
  constructor
  · intro alike key
    cases alike with
    | refl => exact .refl _
    | obj each => exact each key
  · exact .obj

/-- Lists are alike if they are so place by place. -/
theorem alike_arr_iff :
    Alike (.arr items) (.arr elements) ↔ ∀ i : Nat, AlikeAt items[i]? elements[i]? := by
  constructor
  · intro alike i
    cases alike with
    | refl => exact .refl _
    | arr each => exact each i
  · exact .arr

/-- A list is alike to what it is mapped to if each of its elements is. -/
theorem alike_map_self_iff {f : Json → Json} :
    Alike (.arr (items.map f)) (.arr items) ↔ ∀ item ∈ items, Alike (f item) item := by
  rw [alike_arr_iff]
  constructor
  · intro each item held
    obtain ⟨i, there⟩ := List.mem_iff_getElem?.mp held
    have alike := each i
    rw [List.getElem?_map, there] at alike
    exact alikeAt_some_iff.mp alike
  · intro each i
    rw [List.getElem?_map]
    cases there : items[i]? with
    | none => exact .missing
    | some item => exact .there (each item (List.mem_of_getElem? there))

mutual

theorem Alike.symm {value other : Json} : Alike value other → Alike other value
  | .refl value => .refl value
  | .arr each => .arr fun i => (each i).symm
  | .obj each => .obj fun key => (each key).symm

theorem AlikeAt.symm {place elsewhere : Option Json} :
    AlikeAt place elsewhere → AlikeAt elsewhere place
  | .missing => .missing
  | .there alike => .there alike.symm

end

mutual

theorem Alike.trans {value middle other : Json} :
    Alike value middle → Alike middle other → Alike value other
  | .refl _, alike => alike
  | alike, .refl _ => alike
  | .arr first, .arr last => .arr fun i => (first i).trans (last i)
  | .obj first, .obj last => .obj fun key => (first key).trans (last key)

theorem AlikeAt.trans {place between elsewhere : Option Json} :
    AlikeAt place between → AlikeAt between elsewhere → AlikeAt place elsewhere
  | .missing, .missing => .missing
  | .there first, .there last => .there (first.trans last)

end

theorem Alike.eq_empty (alike : Alike (.obj []) value) : value = .obj [] := by
  cases alike with
  | refl => rfl
  | @obj _ members each =>
      cases members with
      | nil => rfl
      | cons member rest =>
          have there := each member.1
          rw [get?_cons, if_pos rfl] at there
          cases there

/-- Objects that are alike have the same names. -/
theorem mem_names_iff_of_alike (each : ∀ key, AlikeAt (get? members key) (get? others key))
    (key : String) : key ∈ names members ↔ key ∈ names others := by
  rw [← get?_isSome_iff, ← get?_isSome_iff, (each key).isSome_eq]

end Json

end Scim
