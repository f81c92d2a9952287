import Scim.Bulk.Reference
import Scim.Bulk.Request
import Scim.Bulk.Result
import Scim.Bulk.Target
import Scim.Service

/-!
# Execution of bulk requests

The operations of a bulk request run strictly in their order, each on what the ones before left
behind. An operation succeeds or fails on its own, and nothing is rolled back. Once the number of
failures has reached the limit of the request, the operations that are left are canceled.
-/

namespace Scim

/-- The stages of a batch. -/
inductive BatchState where
  | pending | completed
  deriving DecidableEq

/-- The word for a stage. -/
def BatchState.word : BatchState → String
  | .pending => "pending"
  | .completed => "completed"

/-- A bulk request with what its execution has brought so far. -/
structure BulkBatch where
  request : BulkRequest
  state : BatchState := .pending
  references : References := []
  results : List BulkResult := []

namespace BulkBatch

variable {σ : Type}

/-- The services that a request is run against, by the names of their endpoints. -/
abbrev Services (σ : Type) := List (String × Service σ)

/-- The service of an endpoint, in any letter case; of several the last. -/
def service? (services : Services σ) (endpoint : String) : Option (Service σ) :=
  (services.reverse.find? fun (name, _) => Text.lower name == Text.lower endpoint).map (·.2)

/-- The service that an operation is directed at, and the id of the resource there. A reference to a
resource that was created without an id names no resource. -/
def route (services : Services σ) (references : References) (operation : BulkOperation) :
    Except Failure (Service σ × Option Json) := do
  let some target := BulkTarget.ofPath? operation.path
    | refuse (.invalidPath "Invalid bulk operation path" operation.path)
  let some service := service? services target.endpoint
    | refuse (.invalidPath "Unknown resource endpoint" operation.path)
  let id ← target.id.mapM references.resolveText
  return (service, id.filter (!·.isNull))

/-- Records what a bulk id stands for. -/
def record (bulkId id : Json) : Action References Unit :=
  if bulkId.isVoid then return
  else if bulkId.isKey then modify (References.set bulkId id)
  else Action.failWith .wrongType

/-- Creates a resource. -/
def runPost (service : Service σ) (operation : BulkOperation) (data : Json) :
    Action (σ × References) BulkResult := do
  let created ← (service.create data).zoom .first
  let id ← Action.ofExcept (created.attrOf "id")
  (record operation.bulkId id).zoom .second
  let version ← Action.ofExcept (Service.versionOf created)
  return {
    method := operation.method.word, status := 201, bulkId := operation.bulkId
    location := some (service.location id), version, response := created }

/-- Overwrites, changes or removes the resource with an id. -/
def runOn (service : Service σ) (operation : BulkOperation) (id data : Json) :
    Action σ BulkResult := do
  let result : BulkResult := {
    method := operation.method.word, status := 200, bulkId := operation.bulkId
    location := some (service.location id) }
  match operation.method with
  | .delete => do
    service.delete id operation.version
    return { result with status := 204 }
  | .put => do
    let written ← service.replace id data operation.version
    return { result with
      version := ← Action.ofExcept (Service.versionOf written), response := written }
  | _ => do
    let written ← service.patch id data operation.version
    return { result with
      version := ← Action.ofExcept (Service.versionOf written), response := written }

/-- Runs an operation. -/
def dispatch (services : Services σ) (operation : BulkOperation) :
    Action (σ × References) BulkResult := do
  let (_, references) ← get
  let (service, id) ← Action.ofExcept (route services references operation)
  let data ← Action.ofExcept (references.resolve operation.data)
  match operation.method, id with
  | .post, none => runPost service operation data
  | .post, some _ =>
    Action.refuse (.invalidPath "POST must target a resource endpoint" operation.path)
  | method, none =>
    Action.refuse (.invalidPath (method.word ++ " requires a resource id") operation.path)
  | _, some id => (runOn service operation id data).zoom .first

/-- The refusal that stands for a failure which is not one of the protocol. -/
def internalError : ScimError :=
  { ScimError.of .general "Internal server error" with status := 500 }

/-- The refusal that a failure is reported as. -/
def reported : Failure → ScimError
  | .scim error => error
  | .fault _ => internalError

/-- Runs an entry. A failure becomes its result. -/
def runEntry (services : Services σ) (index : Nat) (entry : BulkEntry) :
    StateM (σ × References) BulkResult := fun state =>
  let action : Action (σ × References) BulkResult := do
    dispatch services (← Action.ofExcept (entry.read index))
  match action.run state with
  | (.ok result, state) => (result, state)
  | (.error failure, state) =>
    let error := reported failure
    let (method, bulkId) := entry.describe
    ({ method, status := error.status, bulkId, response := .obj error.toMembers }, state)

/-- The result of an entry that is not run. -/
def canceled (entry : BulkEntry) : BulkResult :=
  let (method, bulkId) := entry.describe
  { method, status := 0, bulkId, canceled := true }

/-- Whether a number of failures has reached a limit. -/
def reached (limit : Option Int) (failures : Nat) : Bool := limit.any (· ≤ (failures : Int))

/-- Runs entries in their places from an index on, after a number of failures. -/
def runEntries (services : Services σ) (limit : Option Int) (index failures : Nat) :
    List BulkEntry → StateM (σ × References) (List BulkResult)
  | [] => return []
  | entry :: rest => do
    if reached limit failures then return (entry :: rest).map canceled
    let result ← runEntry services index entry
    let others ← runEntries services limit (index + 1)
      (if result.failed then failures + 1 else failures) rest
    return result :: others

/-- Runs a batch. -/
def run (services : Services σ) (request : BulkRequest) : Action σ BulkBatch := fun state =>
  let (results, state, references) :=
    (runEntries services request.failOnErrors 0 0 request.entries).run (state, [])
  (.ok { request, state := .completed, references, results }, state)

/-- Runs a bulk request that the options of an installation permit. -/
def execute (services : Services σ) (options : ServiceOptions)
    (request : Except Failure BulkRequest) : Action σ BulkBatch := do
  if !options.bulkEnabled then
    Action.refuse { ScimError.of .general "Bulk operations are not enabled" with status := 501 }
  let request ← Action.ofExcept request
  let size := request.entries.length
  if options.maxBulkOperations < size then
    Action.refuse (.tooManyOperations
      s!"Bulk request has {size} operations; the maximum is {options.maxBulkOperations}")
  run services request

end BulkBatch

end Scim
