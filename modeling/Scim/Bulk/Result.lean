import Scim.Resource

/-!
# Results of bulk operations

Every operation of a bulk request has a result, in the place of the operation. A response states the
results of the operations that were run; those that were canceled are left out.
-/

namespace Scim

/-- The schema of a bulk response. -/
def bulkResponseUrn : String := "urn:ietf:params:scim:api:messages:2.0:BulkResponse"

/-- The result of one operation. What there is none of is null or absent. -/
structure BulkResult where
  method : String
  status : Int
  bulkId : Json := .null
  location : Option String := none
  version : Json := .null
  response : Json := .null
  canceled : Bool := false

namespace BulkResult

/-- Whether the operation was run and failed. -/
def failed (result : BulkResult) : Bool := !result.canceled && 400 ≤ result.status

/-- A member of a result, left out if its value is void. -/
def optional (name : String) (value : Json) : Members :=
  if value.isVoid then [] else [(name, value)]

/-- The form in which a result is sent. -/
def toMembers (result : BulkResult) : Members :=
  [("method", .str result.method)] ++ optional "bulkId" result.bulkId ++
    optional "version" result.version ++ optional "location" (.ofText? result.location) ++
    [("status", .str (toString result.status))] ++
    if result.response.isNull then [] else [("response", result.response)]

/-- How many of some operations failed. -/
def failures (results : List BulkResult) : Nat := (results.filter failed).length

/-- The message body of a bulk response. -/
def responseBody (results : List BulkResult) : Members :=
  [("schemas", .arr [.str bulkResponseUrn]),
    ("Operations", .arr ((results.filter (!·.canceled)).map fun result => .obj result.toMembers))]

end BulkResult

end Scim
