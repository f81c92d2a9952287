import Scim.Patch.Operation
import Scim.Proofs.Action

/-!
# Operations that are sent on

An operation is sent in a form that leaves out a path or a value of null.  A removal reads
back from its form as it is, and so does any operation with a value.  Adding null or
replacing by null is accepted as well, but its form lacks the value that such an operation
has to state, so the next reader refuses it.
-/

namespace Scim

theorem PatchOp.ofWord?_word (op : PatchOp) : ofWord? op.word = some op := by
  cases op <;> decide

namespace PatchOperation

/-- What reading an operation checks: a path is no empty text, and a removal has a path. -/
structure Checked (operation : PatchOperation) : Prop where
  path_ne_empty : operation.path ≠ some ""
  hasPath : operation.op = .remove → operation.path ≠ none

/-- An operation that has to state a value, of which its form states none. -/
def LacksValue (operation : PatchOperation) : Prop :=
  operation.op ≠ .remove ∧ operation.value = .null

/-! ## The form of an operation -/

section

variable (operation : PatchOperation)

theorem attr?_toMembers_op :
    Members.attr? operation.toMembers "op" = some (.str operation.op.word) := by
  simp [Members.attr?, Members.key?, toMembers]

theorem attr_toMembers_path :
    Members.attr operation.toMembers "path" = .ofText? operation.path := by
  obtain ⟨op, path, value⟩ := operation
  have others : Text.lower "op" ≠ Text.lower "path" ∧ Text.lower "value" ≠ Text.lower "path" := by
    decide
  cases path <;> cases absent : value.isNull <;>
    simp [Members.attr, Members.attr?, Members.key?, Members.names, toMembers, absent, others,
      Json.ofText?]

theorem attr?_toMembers_value :
    Members.attr? operation.toMembers "value" =
      if operation.value.isNull then none else some operation.value := by
  obtain ⟨op, path, value⟩ := operation
  have others : Text.lower "op" ≠ Text.lower "value" ∧ Text.lower "path" ≠ Text.lower "value" := by
    decide
  cases path <;> cases absent : value.isNull <;>
    simp [Members.attr?, Members.key?, Members.names, toMembers, absent, others]

theorem key?_toMembers_value :
    (Members.key? operation.toMembers "value").isNone = operation.value.isNull := by
  obtain ⟨op, path, value⟩ := operation
  have others : Text.lower "op" ≠ Text.lower "value" ∧ Text.lower "path" ≠ Text.lower "value" := by
    decide
  cases path <;> cases absent : value.isNull <;>
    simp [Members.key?, Members.names, toMembers, absent, others]

theorem attr_toMembers_value : Members.attr operation.toMembers "value" = operation.value := by
  rw [Members.attr, attr?_toMembers_value]
  cases operation.value <;> rfl

end

/-! ## Reading -/

/-- The path that is stated: null and an empty text state none. -/
def statedPath (index : Int) : Json → Except Failure (Option String)
  | .null | .str "" => .ok none
  | .str path => .ok (some path)
  | _ => malformed index "'path' must be a string"

theorem statedPath_str {path : String} (nonempty : path ≠ "") (index : Int) :
    statedPath index (.str path) = .ok (some path) := by
  unfold statedPath
  split <;> simp_all

theorem statedPath_ne_empty {index : Int} {stated : Json} {path : Option String}
    (found : statedPath index stated = .ok path) : path ≠ some "" := by
  unfold statedPath at found
  split at found
  · cases found
    nofun
  · cases found
    nofun
  · next nonempty =>
    cases found
    simpa using nonempty
  · cases found

/-- An operation of the parts that are stated, if a removal has a path and any other operation a
value. -/
def ofStated (index : Int) (members : Members) (op : PatchOp) (path : Option String) :
    Except Failure PatchOperation :=
  if op = .remove ∧ path.isNone then malformed index "'remove' operation requires 'path'"
  else if op ≠ .remove ∧ (Members.key? members "value").isNone then
    malformed index ("'" ++ op.word ++ "' operation requires 'value'")
  else .ok ⟨op, path, Members.attr members "value"⟩

theorem ofJson_obj {members : Members} {word : Json} {op : PatchOp}
    (found : Members.attr? members "op" = some word)
    (isOp : word.text?.bind PatchOp.ofWord? = some op) (index : Int) :
    ofJson (.obj members) index =
      (statedPath index (Members.attr members "path") >>= ofStated index members op) := by
  have assembled (path : Option String) : (do
      if op = .remove then
        if path.isNone then malformed index "'remove' operation requires 'path'"
      else if (Members.key? members "value").isNone then
        malformed index ("'" ++ op.word ++ "' operation requires 'value'")
      return ⟨op, path, Members.attr members "value"⟩) = ofStated index members op path := by
    unfold ofStated
    cases op <;> cases path <;> cases (Members.key? members "value").isNone <;> rfl
  simp only [ofJson, found, isOp]
  generalize Members.attr members "path" = stated
  split
  · exact assembled none
  · exact assembled none
  · next path nonempty =>
    rw [statedPath_str nonempty]
    exact assembled (some path)
  · next notNull notEmpty notText =>
    have refused : statedPath index stated = malformed index "'path' must be a string" := by
      unfold statedPath
      split <;> simp_all
    rw [refused]
    rfl

theorem ofStated_eq_ok_iff {index : Int} {members : Members} {op : PatchOp} {path : Option String}
    {operation : PatchOperation} :
    ofStated index members op path = .ok operation ↔
      operation = ⟨op, path, Members.attr members "value"⟩ ∧
        if op = .remove then path.isSome else (Members.key? members "value").isSome := by
  unfold ofStated
  cases op <;> cases path <;> cases (Members.key? members "value") <;>
    simp [malformed, refuse, eq_comm]

/-- What was read has been checked. -/
theorem checked_of_ofJson {data : Json} {index : Int} {operation : PatchOperation}
    (accepted : ofJson data index = .ok operation) : operation.Checked := by
  cases data with
  | obj members =>
      cases found : Members.attr? members "op" with
      | none => simp [ofJson, found, malformed, refuse] at accepted
      | some word =>
          cases isOp : word.text?.bind PatchOp.ofWord? with
          | none => simp [ofJson, found, isOp, malformed, refuse] at accepted
          | some op =>
              rw [ofJson_obj found isOp, bind_eq_ok_iff] at accepted
              obtain ⟨path, stated, assembled⟩ := accepted
              obtain ⟨rfl, complete⟩ := ofStated_eq_ok_iff.mp assembled
              refine ⟨statedPath_ne_empty stated, ?_⟩
              rintro rfl rfl
              simp at complete
  | _ => cases accepted

/-! ## Reading back -/

/-- The form of a checked operation reads back as the operation exactly if it does not lack the
value. -/
theorem ofJson_toMembers {operation : PatchOperation} (checked : operation.Checked) (place : Int) :
    ofJson (.obj operation.toMembers) place = .ok operation ↔ ¬ operation.LacksValue := by
  have path : statedPath place (.ofText? operation.path) = .ok operation.path := by
    cases stated : operation.path with
    | none => rfl
    | some text =>
        refine statedPath_str ?_ place
        rintro rfl
        exact checked.path_ne_empty stated
  have isOp := PatchOp.ofWord?_word operation.op
  rw [ofJson_obj (attr?_toMembers_op operation) isOp, attr_toMembers_path, path]
  change ofStated place operation.toMembers operation.op operation.path = _ ↔ _
  rw [ofStated_eq_ok_iff, attr_toMembers_value]
  have stated : (Members.key? operation.toMembers "value").isSome = true ↔
      operation.value ≠ .null := by
    rw [← Option.not_isNone, key?_toMembers_value]
    cases operation.value <;> simp [Json.isNull]
  unfold LacksValue
  by_cases removal : operation.op = .remove
  · have hasPath := Option.isSome_iff_ne_none.mpr (checked.hasPath removal)
    rw [if_pos removal]
    exact iff_of_true ⟨rfl, hasPath⟩ fun lacks => lacks.1 removal
  · simp [removal, stated]

/-- An operation that was accepted reads back from the form in which it is sent exactly if it does
not lack a value there, that is unless it adds null or replaces by null. -/
theorem ofJson_toMembers_iff {data : Json} {index : Int} {operation : PatchOperation}
    (accepted : ofJson data index = .ok operation) (place : Int) :
    ofJson (.obj operation.toMembers) place = .ok operation ↔ ¬ operation.LacksValue :=
  ofJson_toMembers (checked_of_ofJson accepted) place

/-- A removal of certain values reads back, whatever the spelling of its word. -/
theorem ofJson_toMembers_iff_members :
    ofJson (.obj [("op", .str "Remove"), ("path", .str "members"), ("value", .arr [.str "7"])]) 0 =
        .ok ⟨.remove, some "members", .arr [.str "7"]⟩ ∧
      ofJson (.obj (toMembers ⟨.remove, some "members", .arr [.str "7"]⟩)) 3 =
        .ok ⟨.remove, some "members", .arr [.str "7"]⟩ := by
  have accepted : ofJson (.obj [("op", .str "Remove"), ("path", .str "members"),
      ("value", .arr [.str "7"])]) 0 = .ok ⟨.remove, some "members", .arr [.str "7"]⟩ := by
    rfl
  exact ⟨accepted, (ofJson_toMembers_iff accepted 3).mpr fun lacks => lacks.1 rfl⟩

/-- A replacement by null is accepted, but what is sent of it is refused. -/
theorem not_ofJson_toMembers_null :
    ∃ operation,
      ofJson (.obj [("op", .str "replace"), ("path", .str "title"), ("value", .null)]) 0 =
        .ok operation ∧
      (ofJson (.obj operation.toMembers) 0).isOk = false :=
  ⟨⟨.replace, some "title", .null⟩, rfl, rfl⟩

end PatchOperation

end Scim
