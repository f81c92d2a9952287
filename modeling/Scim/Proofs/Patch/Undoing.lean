import Scim.Proofs.Patch.Commuting
import Scim.Proofs.Patch.Naming
import Scim.Proofs.Path.Qualifying

/-!
# Removing what was added

What is added where nothing was can be removed at the same path, and the resource is the one
it was before.  With a sub-attribute in the path, the attribute before it may be absent too: the
object that the addition creates goes with its last member.  An object that was there stays, since
it has other members, and so does a list, since only its elements change.
-/

namespace Scim

open Members

variable {attr sub : String} {path : AttributePath} {resource element : Members}
  {items : List Json} {value typed : Json} {edit : AttrEdit}

namespace Patch

/-- Whether nothing is at an attribute of a resource, or at a sub-attribute of it. Under an
attribute that is there a sub-attribute can be free in an object that is not empty, and in a list. -/
inductive IsFree (resource : Members) (attr : String) : Option String → Prop
  | absent {sub : Option String} (lacks : Lacks resource attr) : IsFree resource attr sub
  | object {sub : String} {element : Members} (held : Members.attr resource attr = .obj element)
      (others : element ≠ []) (lacks : Lacks element sub) : IsFree resource attr (some sub)
  | list {sub : String} {items : List Json} (held : Members.attr resource attr = .arr items)
      (lacks : ∀ element, .obj element ∈ items → Lacks element sub) :
      IsFree resource attr (some sub)

/-! ## Values -/

theorem isNull_of_coerce {schema : Option ResourceSchema} {sub uri : Option String}
    (typedEq : coerce schema attr sub uri value = .ok typed) (given : value.isNull = false) :
    typed.isNull = false := by
  rcases coerce_eq_ok typedEq with rfl | ⟨b, rfl⟩
  · exact given
  · rfl

/-- A sub-attribute that an element did not have is set and removed without a trace. -/
theorem deleteSubIn_setSubIn {item : Json}
    (lacks : ∀ element, item = .obj element → Lacks element sub) (value : Json) :
    deleteSubIn sub (setSubIn sub value item) = item := by
  cases item with
  | obj element =>
      have absent := lacks element rfl
      rw [setSubIn, deleteSubIn, absent.setAttr_eq, absent.delAttr_append]
  | _ => rfl

/-! ## Decisions -/

variable {schema : Option ResourceSchema}

/-- What is added to an absent attribute is a value. -/
theorem exists_put_of_addition (unrestricted : path.restriction = none)
    (given : value.isNull = false) (added : addition schema path attr value .null = .ok edit) :
    ∃ stored, edit = .put stored ∧ stored.isNull = false ∧
      ∀ sub, path.sub = some sub → ∃ typed, stored = .obj [(sub, typed)] := by
  rw [addition, unrestricted] at added
  cases subEq : path.sub with
  | some sub =>
      rw [subEq] at added
      obtain ⟨typed, _, put⟩ := bind_eq_ok_iff.mp added
      cases put
      refine ⟨_, rfl, rfl, ?_⟩
      rintro _ ⟨⟩
      exact ⟨typed, rfl⟩
  | none =>
      rw [subEq] at added
      dsimp only at added
      split at added
      · cases added
        exact ⟨_, rfl, rfl, nofun⟩
      · obtain ⟨typed, typedEq, put⟩ := bind_eq_ok_iff.mp added
        cases put
        exact ⟨typed, rfl, isNull_of_coerce typedEq given, nofun⟩

/-- What was added to an absent attribute is removed as a whole. -/
theorem removal_of_added {stored : Json} (unrestricted : path.restriction = none)
    (there : stored.isNull = false)
    (only : ∀ sub, path.sub = some sub → ∃ typed, stored = .obj [(sub, typed)]) :
    removal schema path .null stored = .ok .drop := by
  rw [removal, there, if_neg Bool.false_ne_true, unrestricted]
  cases subEq : path.sub with
  | some sub =>
      obtain ⟨typed, rfl⟩ := only sub subEq
      have nothing : Lacks [] sub := by
        intro key held
        cases held
      have emptied : delAttr [(sub, typed)] sub = [] := nothing.delAttr_append typed
      change Except.ok (AttrEdit.unlessEmpty (.obj (delAttr [(sub, typed)] sub))) = _
      rw [emptied]
      rfl
  | none => cases stored <;> rfl

/-- Where nothing was, the removal takes back what the addition put there. -/
theorem removal_addition (free : IsFree resource attr path.sub)
    (unrestricted : path.restriction = none) (given : value.isNull = false)
    (added : addition schema path attr value (Members.attr resource attr) = .ok edit) :
    ∃ undo, removal schema path .null (Members.attr (edit.on attr resource) attr) = .ok undo ∧
      undo.on attr (edit.on attr resource) = resource := by
  -- A list or object gets back the value that it had before the sub-attribute was set.
  have restored {before after : Json} (held : Members.attr resource attr = before)
      (there : before.isNull = false) :
      (AttrEdit.put before).on attr ((AttrEdit.put after).on attr resource) = resource :=
    (setAttr_setAttr resource attr after before).trans
      (setAttr_of_attr? (attr?_eq_some_of_attr held there))
  generalize subEq : path.sub = place at free
  cases free with
  | absent lacks =>
      rw [lacks.attr_eq] at added
      obtain ⟨stored, rfl, there, only⟩ := exists_put_of_addition unrestricted given added
      refine ⟨.drop, ?_, ?_⟩
      · rw [AttrEdit.on, attr_setAttr_self]
        exact removal_of_added unrestricted there only
      · exact (delAttr_setAttr resource attr stored).trans lacks.delAttr_eq
  | @object sub element held others lacks =>
      rw [addition, unrestricted, subEq, held] at added
      obtain ⟨typed, _, put⟩ := bind_eq_ok_iff.mp added
      dsimp only at put
      rw [lacks.attr_eq] at put
      cases put
      refine ⟨.put (.obj element), ?_, restored held rfl⟩
      rw [AttrEdit.on, attr_setAttr_self, removal, unrestricted, subEq]
      change Except.ok (AttrEdit.unlessEmpty (deleteSubIn sub (setSubIn sub _ (.obj element)))) = _
      rw [deleteSubIn_setSubIn (by rintro _ ⟨⟩; exact lacks)]
      cases element with
      | nil => exact absurd rfl others
      | cons => rfl
  | @list sub items held lacks =>
      rw [addition, unrestricted, subEq, held] at added
      obtain ⟨typed, _, put⟩ := bind_eq_ok_iff.mp added
      cases put
      refine ⟨.put (.arr items), ?_, restored held rfl⟩
      have same : (items.map (setSubIn sub typed)).map (deleteSubIn sub) = items := by
        rw [List.map_map]
        refine (List.map_congr_left fun item inItems => deleteSubIn_setSubIn ?_ typed).trans
          (List.map_id items)
        rintro element rfl
        exact lacks element inItems
      rw [AttrEdit.on, attr_setAttr_self, removal, unrestricted, subEq]
      change Except.ok (AttrEdit.put (.arr ((items.map (setSubIn sub typed)).map _))) = _
      rw [same]

end Patch

/-! ## Requests -/

/-- What is added at a path without URN and filter, where nothing was, can be removed at this path,
and then the resource is what it was before. -/
theorem applyPatch_remove_add {addition removal : PatchEntry} {text : String}
    {schema : ResourceSchema} {added : Members}
    (readAddition : addition.read 0 = .ok ⟨.add, some text, value⟩)
    (readRemoval : removal.read 0 = .ok ⟨.remove, some text, .null⟩)
    (parsed : PathOf.parse text = .ok path) (noUri : path.uri = none)
    (attrEq : path.attr = some attr) (unrestricted : path.restriction = none)
    (given : value.isNull = false) (free : Patch.IsFree resource attr path.sub)
    (applied : applyPatch resource [addition] (some schema) = .ok added) :
    applyPatch added [removal] (some schema) = .ok resource := by
  rw [applyPatch_singleton_iff readAddition, PatchOperation.run_apply rfl parsed noUri attrEq,
    PatchOperation.outcome_eq_ok_iff] at applied
  rw [applyPatch_singleton_iff readRemoval, PatchOperation.run_apply rfl parsed noUri attrEq,
    PatchOperation.outcome_eq_ok_iff]
  obtain ⟨edit, decided, rfl⟩ := applied
  obtain ⟨_, checked, decided⟩ := bind_eq_ok_iff.mp decided
  obtain ⟨undo, decidedToo, back⟩ := Patch.removal_addition free unrestricted given decided
  exact ⟨undo, bind_eq_ok_iff.mpr ⟨(), checked, decidedToo⟩, back.symm⟩

/-- A display name for each element of a list. -/
theorem applyPatch_remove_add_display :
    let items : List Json := [.obj [("value", .str "a")], .str "b"]
    let resource : Members := [("userName", .str "u"), ("emails", .arr items)]
    let addition : PatchOperation := ⟨.add, some "emails.display", .str "c"⟩
    let removal : PatchOperation := ⟨.remove, some "emails.display", .null⟩
    Patch.IsFree resource "emails" (some "display") ∧
      ∃ added, applyPatch resource [.ready addition] (some .user) = .ok added ∧
        applyPatch added [.ready removal] (some .user) = .ok resource := by
  intro items resource addition removal
  have parsed : PathOf.parse "emails.display" =
      .ok (⟨none, some "emails", none, some "display"⟩ : AttributePath) :=
    PathOf.parse_eq_of_parts (by decide +kernel)
  have free : Patch.IsFree resource "emails" (some "display") := by
    have held : Members.attr resource "emails" = .arr items := rfl
    refine .list held fun element held => ?_
    simp only [items, List.mem_cons, Json.obj.injEq, reduceCtorEq, List.not_mem_nil, or_false]
      at held
    subst held
    exact key?_eq_none_iff.mp (by decide +kernel)
  have applies : (applyPatch resource [.ready addition] (some .user)).isOk = true := by
    decide +kernel
  cases applied : applyPatch resource [.ready addition] (some .user) with
  | error failure =>
      rw [applied] at applies
      cases applies
  | ok added =>
      exact ⟨free, added, rfl,
        applyPatch_remove_add rfl rfl parsed rfl rfl rfl rfl free applied⟩

end Scim
