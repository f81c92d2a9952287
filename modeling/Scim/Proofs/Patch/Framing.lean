import Mathlib.Data.List.Forall2
import Scim.Proofs.Patch.Homes

/-!
# What an operation leaves alone

An operation whose path has an attribute changes this attribute in the home that the path
addresses.  The other attributes of the home stay as they are, in their order, and so does
the rest of the resource, except that the object of an extension may be created and its URN
declared.  With a sub-attribute in the path, the values of the attribute keep their other
sub-attributes.
-/

namespace Scim

open Members

variable {schema : Option ResourceSchema} {path : AttributePath} {attr sub : String}
  {value current : Json} {resource after : Members}

/-! ## Sub-attributes -/

/-- Whether a value is another one, or an object that has, beside a sub-attribute, what the
other has, in the same order. -/
inductive OthersKept (sub : String) : Json → Json → Prop
  | same (value : Json) : OthersKept sub value value
  | object {before after : Members}
      (kept : Members.erase after (place before sub) = Members.erase before (place before sub)) :
      OthersKept sub (.obj before) (.obj after)

/-- What an operation with a sub-attribute may do to the value of the attribute: it changes the
sub-attribute, of the value or of elements of a list, creates an object of it alone, or, if
it removes, drops an object that it has emptied. -/
inductive SubFrame (op : PatchOp) (sub : String) : Option Json → Option Json → Prop
  | absent : SubFrame op sub none none
  | value {before after : Json} (kept : OthersKept sub before after) :
      SubFrame op sub (some before) (some after)
  | elements {before after : List Json} (kept : List.Forall₂ (OthersKept sub) before after) :
      SubFrame op sub (some (.arr before)) (some (.arr after))
  | created {before : Option Json} (nothing : before.getD .null = .null) (value : Json) :
      SubFrame op sub before (some (.obj [(sub, value)]))
  | emptied {before : Members} (removes : op = .remove) (empty : delAttr before sub = []) :
      SubFrame op sub (some (.obj before)) none

theorem othersKept_setAttr (sub : String) (element : Members) (value : Json) :
    OthersKept sub (.obj element) (.obj (setAttr element sub value)) := by
  apply OthersKept.object
  rw [setAttr_eq_set, erase_set]

theorem othersKept_delAttr (sub : String) (element : Members) :
    OthersKept sub (.obj element) (.obj (delAttr element sub)) := by
  apply OthersKept.object
  rw [delAttr_eq_erase, Members.erase, Members.erase, List.filter_filter]
  simp

/-- What keeps the other sub-attributes of each element, keeps them in a list. -/
theorem forall₂_map {keeps : Json → Json → Prop} {f : Json → Json}
    (kept : ∀ item, keeps item (f item)) (items : List Json) :
    List.Forall₂ keeps items (items.map f) := by
  rw [List.forall₂_map_right_iff]
  exact List.forall₂_same.mpr fun item _ => kept item

namespace Patch

theorem othersKept_setSubIn (sub : String) (value item : Json) :
    OthersKept sub item (setSubIn sub value item) := by
  cases item with
  | obj element => exact othersKept_setAttr sub element value
  | _ => exact .same _

theorem othersKept_deleteSubIn (sub : String) (item : Json) :
    OthersKept sub item (deleteSubIn sub item) := by
  cases item with
  | obj element => exact othersKept_delAttr sub element
  | _ => exact .same _

/-! ## Selected elements -/

/-- The elements that a filter selects are listed in their order, each once. -/
theorem matchingIndexes_ascending {scope : Scope} {filter : Filter} {index : Nat}
    {items : List Json} {found : List (Nat × Members)}
    (selects : matchingIndexes scope filter index items = .ok found) :
    (found.map Prod.fst).Pairwise (· < ·) ∧ ∀ entry ∈ found, index ≤ entry.1 := by
  induction items generalizing index found with
  | nil =>
      cases selects
      exact ⟨.nil, fun _ held => nomatch held⟩
  | cons item rest ih =>
      have later {others : List (Nat × Members)}
          (selects : matchingIndexes scope filter (index + 1) rest = .ok others) :
          (others.map Prod.fst).Pairwise (· < ·) ∧ ∀ entry ∈ others, index ≤ entry.1 := by
        obtain ⟨ascending, behind⟩ := ih selects
        exact ⟨ascending, fun entry held => Nat.le_of_succ_le (behind entry held)⟩
      cases item with
      | obj element =>
          obtain ⟨holds, _, selects⟩ := bind_eq_ok_iff.mp selects
          obtain ⟨others, selectsRest, selects⟩ := bind_eq_ok_iff.mp selects
          cases holds with
          | false =>
              cases selects
              exact later selectsRest
          | true =>
              cases selects
              obtain ⟨ascending, behind⟩ := ih selectsRest
              constructor
              · rw [if_pos rfl, List.map_cons, List.pairwise_cons]
                refine ⟨fun next held => ?_, ascending⟩
                obtain ⟨entry, inOthers, rfl⟩ := List.mem_map.mp held
                exact behind entry inOthers
              · intro entry held
                rcases List.mem_cons.mp held with rfl | inOthers
                · exact Nat.le_refl _
                · exact (later selectsRest).2 entry inOthers
      | _ => exact later selects

theorem selection_nodup {filter : Filter} {indexes : List Nat}
    (chosen : selection schema path filter current = .ok indexes) : indexes.Nodup := by
  cases current with
  | null =>
      cases chosen
      exact .nil
  | arr items =>
      change Except.map (·.map Prod.fst) (matchingIndexes (.within schema path) filter 0 items) =
        .ok indexes at chosen
      cases found : matchingIndexes (.within schema path) filter 0 items with
      | error failure =>
          rw [found] at chosen
          cases chosen
      | ok entries =>
          rw [found] at chosen
          cases chosen
          exact (matchingIndexes_ascending found).1.imp fun less => Nat.ne_of_lt less
  | _ => cases chosen

/-- Exactly the elements at the indexes are changed, each once. -/
theorem getElem?_changeAt {indexes : List Nat} (nodup : indexes.Nodup) (f : Json → Json)
    (items : List Json) (at' : Nat) :
    (changeAt f indexes items)[at']? =
      if at' ∈ indexes then items[at']?.map f else items[at']? := by
  induction indexes generalizing items with
  | nil => rfl
  | cons index rest ih =>
      obtain ⟨fresh, nodup⟩ := List.nodup_cons.mp nodup
      have step : changeAt f (index :: rest) items = changeAt f rest (items.modify index f) := rfl
      rw [step, ih nodup, List.getElem?_modify]
      by_cases here : index = at'
      · subst here
        simp [fresh]
      · simp [here, Ne.symm here]

theorem length_changeAt (f : Json → Json) (indexes : List Nat) (items : List Json) :
    (changeAt f indexes items).length = items.length := by
  induction indexes generalizing items with
  | nil => rfl
  | cons index rest ih => exact (ih (items.modify index f)).trans (List.length_modify ..)

theorem forall₂_changeAt {keeps : Json → Json → Prop} (same : ∀ item, keeps item item)
    {f : Json → Json} (kept : ∀ item, keeps item (f item)) {indexes : List Nat}
    (nodup : indexes.Nodup) (items : List Json) :
    List.Forall₂ keeps items (changeAt f indexes items) := by
  rw [List.forall₂_iff_get]
  refine ⟨(length_changeAt f indexes items).symm, fun index inside insideToo => ?_⟩
  have changed := getElem?_changeAt nodup f items index
  rw [List.getElem?_eq_getElem insideToo, List.getElem?_eq_getElem inside] at changed
  rw [List.get_eq_getElem, List.get_eq_getElem]
  split at changed
  · rw [Option.some.inj changed]
    exact kept items[index]
  · rw [Option.some.inj changed]
    exact same items[index]

end Patch

/-! ## Decisions keep other sub-attributes -/

namespace AttrEdit

/-- What an edit makes of the value of its attribute. -/
def result (edit : AttrEdit) (before : Option Json) : Option Json :=
  match edit with
  | keep => before
  | put value => some value
  | drop => none

theorem get?_on (edit : AttrEdit) (attr : String) (members : Members) :
    get? (edit.on attr members) (place members attr) =
      edit.result (get? members (place members attr)) := by
  cases edit with
  | keep => rfl
  | put value => rw [on, setAttr_eq_set, get?_set, if_pos rfl, result]
  | drop =>
      rw [on, delAttr_eq_erase, result]
      have absent : ¬ (get? (Members.erase members (place members attr))
          (place members attr)).isSome = true := by
        rw [get?_isSome_iff, names, List.mem_map]
        rintro ⟨member, held, equal⟩
        exact (mem_erase.mp held).2 equal
      simpa using absent

/-- What is in other places stays as it is. -/
theorem erase_on (edit : AttrEdit) (attr : String) (members : Members) :
    Members.erase (edit.on attr members) (place members attr) =
      Members.erase members (place members attr) := by
  cases edit with
  | keep => rfl
  | put value => rw [on, setAttr_eq_set, erase_set]
  | drop =>
      rw [on, delAttr_eq_erase, Members.erase, Members.erase, List.filter_filter]
      simp

end AttrEdit

theorem eq_some_of_getD {stored : Option Json} (held : stored.getD .null = value)
    (notNull : value.isNull = false) : stored = some value := by
  cases stored with
  | some stored => exact congrArg some held
  | none =>
      subst held
      cases notNull

namespace SubFrame

variable {op : PatchOp} {stored : Option Json} {edit : AttrEdit}

theorem refl (op : PatchOp) (sub : String) (stored : Option Json) : SubFrame op sub stored stored := by
  cases stored with
  | none => exact .absent
  | some value => exact .value (.same value)

theorem of_changeAt {filter : Filter} {indexes : List Nat} {f : Json → Json}
    (chosen : Patch.selection schema path filter (stored.getD .null) = .ok indexes)
    (kept : ∀ item, OthersKept sub item (f item)) (present : (stored.getD .null).isNull = false) :
    SubFrame op sub stored
      (some (.arr (Patch.changeAt f indexes (Patch.itemsOf (stored.getD .null))))) := by
  have nodup := Patch.selection_nodup chosen
  cases held : stored.getD .null with
  | arr items =>
      rw [eq_some_of_getD held rfl]
      exact .elements (Patch.forall₂_changeAt .same kept nodup items)
  | null =>
      rw [held] at present
      cases present
  | _ =>
      rw [held] at chosen
      cases chosen

theorem of_settingAt {filter : Filter} {index : Nat} {rest : List Nat}
    (chosen : Patch.selection schema path filter (stored.getD .null) = .ok (index :: rest))
    (decided : Patch.settingAt schema path attr sub value (index :: rest) (stored.getD .null) =
      .ok edit) : SubFrame op sub stored (edit.result stored) := by
  obtain ⟨typed, _, rest⟩ := bind_eq_ok_iff.mp decided
  cases rest
  apply of_changeAt chosen (Patch.othersKept_setSubIn sub typed)
  cases held : stored.getD .null with
  | null =>
      rw [held] at chosen
      cases chosen
  | _ => rfl

theorem of_settingSub {merge : Bool}
    (decided : Patch.settingSub schema path attr sub merge value (stored.getD .null) = .ok edit) :
    SubFrame op sub stored (edit.result stored) := by
  obtain ⟨typed, _, rest⟩ := bind_eq_ok_iff.mp decided
  cases held : stored.getD .null with
  | arr items =>
      rw [held] at rest
      cases rest
      rw [eq_some_of_getD held rfl]
      exact .elements (forall₂_map (Patch.othersKept_setSubIn sub typed) items)
  | obj element =>
      rw [held] at rest
      cases rest
      rw [eq_some_of_getD held rfl]
      exact .value (othersKept_setAttr sub element _)
  | null =>
      rw [held] at rest
      cases rest
      exact .created held typed
  | _ =>
      rw [held] at rest
      cases rest

theorem of_droppingSub :
    SubFrame .remove sub stored ((Patch.droppingSub sub (stored.getD .null)).result stored) := by
  cases held : stored.getD .null with
  | arr items =>
      rw [eq_some_of_getD held rfl]
      exact .elements (forall₂_map (Patch.othersKept_deleteSubIn sub) items)
  | obj element =>
      rw [eq_some_of_getD held rfl]
      cases remaining : delAttr element sub with
      | nil =>
          rw [Patch.droppingSub, remaining]
          exact .emptied rfl remaining
      | cons member rest =>
          have kept := othersKept_delAttr sub element
          rw [remaining] at kept
          rw [Patch.droppingSub, remaining]
          exact .value kept
  | _ => exact .refl ..

/-- An operation whose path has a sub-attribute keeps the others. -/
theorem of_decision {operation : PatchOperation} (subEq : path.sub = some sub)
    (decided : operation.decision schema path attr (stored.getD .null) = .ok edit) :
    SubFrame operation.op sub stored (edit.result stored) := by
  obtain ⟨op, _, value⟩ := operation
  cases op with
  | add =>
      change Patch.addition schema path attr value (stored.getD .null) = .ok edit at decided
      unfold Patch.addition at decided
      rw [subEq] at decided
      cases restricted : path.restriction with
      | some filter =>
          rw [restricted] at decided
          obtain ⟨indexes, chosen, rest⟩ := bind_eq_ok_iff.mp decided
          cases indexes with
          | nil => cases rest
          | cons index others => exact of_settingAt chosen rest
      | none =>
          rw [restricted] at decided
          exact of_settingSub decided
  | replace =>
      change Patch.replacement schema path attr value (stored.getD .null) = .ok edit at decided
      unfold Patch.replacement at decided
      rw [subEq] at decided
      cases restricted : path.restriction with
      | some filter =>
          rw [restricted] at decided
          obtain ⟨indexes, chosen, rest⟩ := bind_eq_ok_iff.mp decided
          cases indexes with
          | nil => cases rest
          | cons index others => exact of_settingAt chosen rest
      | none =>
          rw [restricted] at decided
          exact of_settingSub decided
  | remove =>
      change Patch.removal schema path value (stored.getD .null) = .ok edit at decided
      unfold Patch.removal at decided
      cases null : (stored.getD .null).isNull with
      | true =>
          rw [null] at decided
          cases decided
          exact .refl ..
      | false =>
          rw [null, if_neg Bool.false_ne_true, subEq] at decided
          cases restricted : path.restriction with
          | some filter =>
              rw [restricted] at decided
              obtain ⟨indexes, chosen, rest⟩ := bind_eq_ok_iff.mp decided
              cases rest
              exact of_changeAt chosen (Patch.othersKept_deleteSubIn sub) null
          | none =>
              rw [restricted] at decided
              cases decided
              exact of_droppingSub

end SubFrame

/-! ## The frame of an operation -/

/-- What stays of a resource after an operation on an attribute: the other attributes of the
home that the path addresses, in their order; beside an extension all but the list of declared
URNs; and with a sub-attribute in the path, the others of the values. -/
structure Framed (schema : Option ResourceSchema) (op : PatchOp) (path : AttributePath)
    (attr : String) (before after : Members) : Prop where
  /-- The attributes of the home beside the one in the place of the attribute. -/
  attributes :
    let home := addressed schema before path.uri
    let key := place (home.members before) attr
    Members.erase (home.members after) key = Members.erase (home.members before) key
  /-- The entries of the resource beside an extension. -/
  entries : ∀ key, addressed schema before path.uri = .extension key →
    Members.erase (Members.erase after key) "schemas" =
      Members.erase (Members.erase before key) "schemas"
  /-- The sub-attributes beside the one of the path. -/
  subAttributes : ∀ sub, path.sub = some sub →
    let home := addressed schema before path.uri
    let key := place (home.members before) attr
    SubFrame op sub (get? (home.members before) key) (get? (home.members after) key)

/-- An operation whose path has an attribute touches only what the path names. -/
theorem PatchOperation.framed_of_run {operation : PatchOperation} {text : String}
    (textEq : operation.path = some text) (parsed : PathOf.parse text = .ok path)
    (attrEq : path.attr = some attr)
    (ran : (operation.apply schema).run resource = (.ok (), after)) :
    Framed schema operation.op path attr resource after := by
  obtain ⟨edit, decided, edited, kept⟩ := edits_of_run textEq parsed attrEq ran
  constructor
  · dsimp only
    rw [edited, edit.erase_on]
  · exact kept
  · intro sub subEq
    dsimp only
    rw [edited, edit.get?_on]
    rw [Members.attr, ← get?_place] at decided
    exact SubFrame.of_decision subEq decided

/-- Setting a sub-attribute in an extension that is not there yet. -/
theorem PatchOperation.framed_of_run_manager :
    let resource : Members := [("schemas", .arr [.str "a:b", .str "c:d"]), ("userName", .str "a")]
    let operation : PatchOperation := ⟨.add, some "c:d:manager.name", .str "b"⟩
    ∃ path after, PathOf.parse "c:d:manager.name" = .ok path ∧ path.attr = some "manager" ∧
      path.sub = some "name" ∧ (operation.apply none).run resource = (.ok (), after) ∧
      Framed none .add path "manager" resource after := by
  intro resource operation
  have named : ((PathOf.parse "c:d:manager.name").toOption.map fun path =>
      (path.attr, path.sub)) = some (some "manager", some "name") := by decide +kernel
  have succeeds : ((operation.apply none).run resource).1.isOk = true := by decide +kernel
  cases parsed : PathOf.parse "c:d:manager.name" with
  | error failure =>
      rw [parsed] at named
      cases named
  | ok path =>
      rw [parsed] at named
      obtain ⟨attrEq, subEq⟩ := Prod.mk.inj (Option.some.inj named)
      cases ran : (operation.apply none).run resource with
      | mk outcome after =>
          rw [ran] at succeeds
          cases outcome with
          | error failure => cases succeeds
          | ok _ => exact ⟨path, after, rfl, attrEq, subEq, rfl, framed_of_run rfl parsed attrEq ran⟩

end Scim
