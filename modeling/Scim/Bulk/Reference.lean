import Scim.Error
import Scim.Json.Equality
import Scim.Text.Part

/-!
# References within a bulk request

An operation refers to a resource that an earlier operation of the same request created by the text
`bulkId:` followed by the bulk id of that operation. Before an operation runs, each text in its data
that is such a reference is replaced by the id of the resource.
-/

namespace Scim

/-- The ids of created resources by bulk id, in the order of creation. -/
abbrev References := List (Json × Json)

namespace References

/-- How a reference starts. -/
def marker : String := "bulkId:"

/-- The bulk id that a text refers to, if it is a reference. -/
def target? (text : String) : Option String :=
  if Text.startsWith marker text then some (String.ofList (text.toList.drop marker.length))
  else none

/-- The id that a bulk id stands for. -/
def find? (references : References) (bulkId : Json) : Option Json :=
  (List.find? (·.1.same bulkId) references).map (·.2)

/-- Lets a bulk id stand for an id. -/
def set (bulkId id : Json) : References → References
  | [] => [(bulkId, id)]
  | (key, old) :: rest =>
    if key.same bulkId then (key, id) :: rest else (key, old) :: set bulkId id rest

/-- The id for a text that is a reference, and the text itself otherwise. -/
def resolveText (references : References) (text : String) : Except Failure Json :=
  match target? text with
  | none => .ok (.str text)
  | some bulkId =>
    match references.find? (.str bulkId) with
    | some id => .ok id
    | none => refuse (.unresolvedBulkId bulkId)

mutual

/-- A value with its references resolved. -/
def resolve (references : References) : Json → Except Failure Json
  | .str text => resolveText references text
  | .arr items => (resolveItems references items).map .arr
  | .obj members => (resolveMembers references members).map .obj
  | value => .ok value

/-- The items of an array with their references resolved. -/
def resolveItems (references : References) : List Json → Except Failure (List Json)
  | [] => .ok []
  | item :: rest => do
    let item ← resolve references item
    return item :: (← resolveItems references rest)

/-- The members of an object with their references resolved. -/
def resolveMembers (references : References) :
    List (String × Json) → Except Failure (List (String × Json))
  | [] => .ok []
  | (name, value) :: rest => do
    let value ← resolve references value
    return (name, value) :: (← resolveMembers references rest)

end

end References

end Scim
