import Scim.Json.Equality
import Scim.Resource

/-!
# Bulk requests

A bulk request lists operations on resources of any type. An operation is checked when its turn
comes, so that a malformed one fails by itself; reading a request checks only the envelope.
-/

namespace Scim

/-- The schema of a bulk request. -/
def bulkRequestUrn : String := "urn:ietf:params:scim:api:messages:2.0:BulkRequest"

/-- What an operation of a bulk request does. -/
inductive BulkMethod where
  | post | put | patch | delete
  deriving DecidableEq

namespace BulkMethod

/-- The word for a method. -/
def word : BulkMethod → String
  | .post => "POST"
  | .put => "PUT"
  | .patch => "PATCH"
  | .delete => "DELETE"

/-- The method of a word in any letter case. -/
def ofWord? (word : String) : Option BulkMethod :=
  [BulkMethod.post, .put, .patch, .delete].find? (·.word = Text.upper word)

end BulkMethod

/-- An operation of a bulk request. -/
structure BulkOperation where
  method : BulkMethod
  path : String
  /-- The name by which later operations refer to a resource created by this one; null if none. -/
  bulkId : Json := .null
  data : Json := .null
  /-- The version that the resource is expected to have; null if any will do. -/
  version : Json := .null

namespace BulkOperation

/-- The refusal of an operation, by its place in the request. -/
def malformed {α : Type} (index : Int) (problem : String) : Except Failure α :=
  refuse (.invalidValue (s!"Operations[{index}]: " ++ problem))

/-- Reads an operation; `index` is its place in the request. -/
def ofJson (value : Json) (index : Int) : Except Failure BulkOperation := do
  let .obj members := value | malformed index "operation must be an object"
  let word := Members.attr members "method"
  let some method := BulkMethod.ofWord? word.plain
    | malformed index ("invalid method " ++ word.shown)
  let path := ((Members.attr members "path").text?).getD ""
  if path = "" then malformed index "'path' is required"
  let bulkId := Members.attr members "bulkId"
  if method = .post && bulkId.isVoid then malformed index "POST operations require 'bulkId'"
  let data := Members.attr members "data"
  if method ≠ .delete && !data.isObj then
    malformed index (method.word ++ " operations require 'data'")
  return { method, path, bulkId, data, version := Members.attr members "version" }

end BulkOperation

/-- An entry of a bulk request: an operation, or data still to be read as one. -/
inductive BulkEntry where
  | ready (operation : BulkOperation)
  | data (value : Json)

namespace BulkEntry

/-- The operation of an entry; `index` is its place in the request. -/
def read (index : Int) : BulkEntry → Except Failure BulkOperation
  | .ready operation => .ok operation
  | .data value => BulkOperation.ofJson value index

/-- The method and the bulk id that an entry states, even if it is malformed. -/
def describe : BulkEntry → String × Json
  | .ready operation => (operation.method.word, operation.bulkId)
  | .data (.obj members) =>
    let method := match Members.attr members "method" with
      | .str word => Text.upper word
      | _ => ""
    let bulkId := match Members.attr members "bulkId" with
      | .str name => .str name
      | _ => .null
    (method, bulkId)
  | .data _ => ("", .null)

end BulkEntry

/-- A bulk request. Once `failOnErrors` operations have failed, the others are canceled. -/
structure BulkRequest where
  entries : List BulkEntry
  failOnErrors : Option Int := none

namespace BulkRequest

/-- Reads the error limit of a request; zero sets none. -/
def readLimit (value : Json) : Except Failure (Option Int) :=
  match value with
  | .null => .ok none
  | .int n =>
    if n < 0 then refuse (.invalidValue "'failOnErrors' must be a non-negative integer")
    else .ok (if n = 0 then none else some n)
  | _ => refuse (.invalidValue "'failOnErrors' must be a non-negative integer")

/-- Reads a request. -/
def ofJson (body : Json) : Except Failure BulkRequest := do
  let .obj members := body | refuse (.invalidValue "Bulk request body must be a JSON object")
  let declared := match Members.get? members "schemas" with
    | some (.arr schemas) => Json.containedIn (.str bulkRequestUrn) schemas
    | _ => false
  if !declared then
    refuse (.invalidValue ("Bulk request must include schema: '" ++ bulkRequestUrn ++ "'"))
  else
    let .arr operations := Members.attr members "Operations"
      | refuse (.invalidValue "'Operations' must be an array")
    let failOnErrors ← readLimit (Members.attr members "failOnErrors")
    return { entries := operations.map .data, failOnErrors }

end BulkRequest

end Scim
