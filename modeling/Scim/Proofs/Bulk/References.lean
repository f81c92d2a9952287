import Scim.Bulk.Reference

/-!
# References and the texts that hold them

A reference is a text anywhere in a value.  Resolving a value replaces each reference
by the id that its bulk id stands for, or fails on the first one that stands for
nothing.
-/

namespace Scim

/-! ## Texts in a value -/

namespace Json

mutual

/-- The texts anywhere in a value, in order.  The names of members are none of them. -/
def texts : Json → List String
  | .str text => [text]
  | .arr items => textsOfItems items
  | .obj members => textsOfMembers members
  | _ => []

/-- The texts anywhere in the items of an array. -/
def textsOfItems : List Json → List String
  | [] => []
  | item :: rest => texts item ++ textsOfItems rest

/-- The texts anywhere in the values of members. -/
def textsOfMembers : List (String × Json) → List String
  | [] => []
  | (_, value) :: rest => texts value ++ textsOfMembers rest

end

mutual

/-- A value with each text in it replaced by a value for it. -/
def mapTexts (f : String → Json) : Json → Json
  | .str text => f text
  | .arr items => .arr (mapTextsOfItems f items)
  | .obj members => .obj (mapTextsOfMembers f members)
  | value => value

/-- The items of an array with the texts in them replaced. -/
def mapTextsOfItems (f : String → Json) : List Json → List Json
  | [] => []
  | item :: rest => mapTexts f item :: mapTextsOfItems f rest

/-- Members with the texts in their values replaced. -/
def mapTextsOfMembers (f : String → Json) : List (String × Json) → List (String × Json)
  | [] => []
  | (name, value) :: rest => (name, mapTexts f value) :: mapTextsOfMembers f rest

end

end Json

namespace References

/-! ## References among texts -/

/-- The bulk id that a text refers to, if it stands for nothing. -/
def dangling? (ids : String → Option Json) (text : String) : Option String :=
  (target? text).filter fun bulkId => (ids bulkId).isNone

/-- The id that a text refers to, and the text itself if it is no reference. -/
def replaced (ids : String → Option Json) (text : String) : Json :=
  ((target? text).bind ids).getD (.str text)

/-- The bulk id that the first of some texts refers to and that stands for nothing. -/
def firstDangling? (ids : String → Option Json) (texts : List String) : Option String :=
  texts.findSome? (dangling? ids)

/-- A result unless some text refers to nothing. -/
def unlessDangling {α : Type} (ids : String → Option Json) (texts : List String) (result : α) :
    Except Failure α :=
  match firstDangling? ids texts with
  | some bulkId => refuse (.unresolvedBulkId bulkId)
  | none => .ok result

variable {ids : String → Option Json} {α β γ : Type}

/-- Texts are looked through one part after the other. -/
theorem unlessDangling_append (first last : List String) (a : α) (b : β) (f : α → β → γ) :
    unlessDangling ids (first ++ last) (f a b) =
      (unlessDangling ids first a >>= fun a =>
        unlessDangling ids last b >>= fun b => .ok (f a b)) := by
  simp only [unlessDangling, firstDangling?, List.findSome?_append]
  cases first.findSome? (dangling? ids) with
  | some bulkId => rfl
  | none =>
      simp only [Option.none_or, bind, Except.bind]
      cases last.findSome? (dangling? ids) <;> rfl

theorem map_unlessDangling (texts : List String) (a : α) (f : α → β) :
    (unlessDangling ids texts a).map f = unlessDangling ids texts (f a) := by
  rw [unlessDangling, unlessDangling]
  cases firstDangling? ids texts <;> rfl

/-- A text that refers to nothing stops the resolution, with some such text. -/
theorem unlessDangling_of_mem {texts : List String} {text bulkId : String} (member : text ∈ texts)
    (refers : target? text = some bulkId) (nothing : ids bulkId = none) (result : α) :
    ∃ other, unlessDangling ids texts result = refuse (.unresolvedBulkId other) := by
  have found : (firstDangling? ids texts).isSome = true := by
    rw [firstDangling?, List.findSome?_isSome_iff]
    exact ⟨text, member, by simp [dangling?, refers, nothing]⟩
  obtain ⟨other, first⟩ := Option.isSome_iff_exists.mp found
  exact ⟨other, by rw [unlessDangling, first]⟩

/-! ## Resolving -/

/-- What a bulk id stands for, as a function of its text. -/
def idOf (references : References) (bulkId : String) : Option Json :=
  references.find? (.str bulkId)

theorem resolveText_eq (references : References) (text : String) :
    references.resolveText text =
      unlessDangling references.idOf [text] (replaced references.idOf text) := by
  cases target : target? text with
  | none => simp [resolveText, unlessDangling, firstDangling?, dangling?, replaced, target]
  | some bulkId =>
      cases found : references.find? (.str bulkId) <;>
        simp [resolveText, unlessDangling, firstDangling?, dangling?, replaced, idOf, target, found,
          Option.filter]

mutual

theorem resolve_eq (references : References) : (value : Json) →
    references.resolve value =
      unlessDangling references.idOf value.texts (value.mapTexts (replaced references.idOf))
  | .str text => resolveText_eq references text
  | .arr items => by
      rw [resolve, resolveItems_eq references items, map_unlessDangling]
      rfl
  | .obj members => by
      rw [resolve, resolveMembers_eq references members, map_unlessDangling]
      rfl
  | .null | .bool _ | .int _ | .double _ => rfl

theorem resolveItems_eq (references : References) : (items : List Json) →
    resolveItems references items =
      unlessDangling references.idOf (Json.textsOfItems items)
        (Json.mapTextsOfItems (replaced references.idOf) items)
  | [] => rfl
  | item :: rest => by
      rw [resolveItems, resolve_eq references item, resolveItems_eq references rest,
        Json.textsOfItems, Json.mapTextsOfItems, unlessDangling_append]
      rfl

theorem resolveMembers_eq (references : References) : (members : List (String × Json)) →
    resolveMembers references members =
      unlessDangling references.idOf (Json.textsOfMembers members)
        (Json.mapTextsOfMembers (replaced references.idOf) members)
  | [] => rfl
  | (name, value) :: rest => by
      rw [resolveMembers, resolve_eq references value, resolveMembers_eq references rest,
        Json.textsOfMembers, Json.mapTextsOfMembers,
        unlessDangling_append _ _ _ _ fun value rest => (name, value) :: rest]
      rfl

end

end References

end Scim
