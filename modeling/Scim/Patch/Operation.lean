import Scim.Resource
import Scim.Json.Equality

/-!
# Operations of a change request

A change request lists operations, each of which adds, removes or replaces a value, at a path or at
the top of the resource. Reading one checks its form; whether it can be applied is found out when it
is.
-/

namespace Scim

/-- The schema of a change request. -/
def patchOpUrn : String := "urn:ietf:params:scim:api:messages:2.0:PatchOp"

/-- What an operation does. -/
inductive PatchOp where
  | add | remove | replace
  deriving DecidableEq

namespace PatchOp

/-- The word for an operation. -/
def word : PatchOp → String
  | .add => "add"
  | .remove => "remove"
  | .replace => "replace"

/-- The operation of a word in any letter case. -/
def ofWord? (word : String) : Option PatchOp :=
  [PatchOp.add, .remove, .replace].find? (·.word = Text.lower word)

end PatchOp

/-- An operation of a change request. Without a path it applies to the top of the resource. -/
structure PatchOperation where
  op : PatchOp
  path : Option String
  value : Json

namespace PatchOperation

/-- The form of an operation that is missing something, by its place in the request. -/
def malformed {α : Type} (index : Int) (problem : String) : Except Failure α :=
  refuse (.patchInvalidValue (s!"Operations[{index}]: " ++ problem))

/-- Reads an operation; `index` is its place in the request. -/
def ofJson (data : Json) (index : Int) : Except Failure PatchOperation := do
  let .obj members := data | malformed index "operation must be an object"
  let some word := Members.attr? members "op" | malformed index "missing required field 'op'"
  let some op := word.text?.bind PatchOp.ofWord?
    | malformed index
        ("invalid 'op' value " ++ word.shown ++ ". Must be one of: 'add', 'remove', 'replace'")
  let path ← match Members.attr members "path" with
    | .null | .str "" => pure none
    | .str path => pure (some path)
    | _ => malformed index "'path' must be a string"
  if op = .remove then
    if path.isNone then malformed index "'remove' operation requires 'path'"
  else if (Members.key? members "value").isNone then
    malformed index ("'" ++ op.word ++ "' operation requires 'value'")
  return ⟨op, path, Members.attr members "value"⟩

/-- The form in which an operation is sent. A path or value that is null is left out. -/
def toMembers (operation : PatchOperation) : Members :=
  [("op", .str operation.op.word)] ++
    (match operation.path with
      | some path => [("path", .str path)]
      | none => []) ++
    if operation.value.isNull then [] else [("value", operation.value)]

/-- Reads operations in their places from an index on. -/
def ofItems (index : Int) : List Json → Except Failure (List PatchOperation)
  | [] => return []
  | item :: rest => do
    let operation ← ofJson item index
    return operation :: (← ofItems (index + 1) rest)

/-- Reads the operations of a change request. -/
def ofRequest (body : Json) : Except Failure (List PatchOperation) := do
  let .obj members := body | refuse (.patchInvalidValue "PATCH body must be a JSON object")
  let declared := match Members.get? members "schemas" with
    | some (.arr schemas) => Json.containedIn (.str patchOpUrn) schemas
    | _ => false
  if !declared then
    refuse (.patchInvalidValue ("PATCH request must include schema: '" ++ patchOpUrn ++ "'"))
  else
    match Members.attr members "Operations" with
    | .arr (first :: rest) => ofItems 0 (first :: rest)
    | _ => refuse (.patchInvalidValue "'Operations' must be a non-empty array")

end PatchOperation

end Scim
