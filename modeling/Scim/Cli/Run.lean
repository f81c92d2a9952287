import Scim.Bulk.Batch
import Scim.Cli.Arguments
import Scim.Json.Printer
import Scim.Json.Reader
import Scim.Store.Pool

/-!
# Running commands

A command works on the texts of its files and has an outcome: an exit code, a JSON text for standard
output and a line about success or failure for standard error. A refusal of the protocol becomes
such a line; a failure on data of the wrong shape escapes.
-/

namespace Scim.Cli

/-- What a command leaves behind. -/
structure Outcome where
  exit : Nat := 0
  stdout : String := ""
  stderr : String := ""
  /-- A failure that the command did not handle. -/
  escaped : Option Failure := none

/-- Why a command stops early. -/
inductive Stop where
  /-- With a message. -/
  | message (text : String)
  /-- With a failure that nobody handles. -/
  | escape (failure : Failure)

namespace Outcome

/-- A line that reports success. -/
def successLine (text : String) : String := "✅ " ++ text ++ "\n"

/-- A line that reports failure. -/
def failureLine (text : String) : String := "❌ " ++ text ++ "\n"

/-- A JSON value as it is put out. -/
def dataText (data : Json) : String := data.indented ++ "\n"

/-- The outcome of a command that succeeded. -/
def success (data : Json) (text : String) : Outcome :=
  { stdout := dataText data, stderr := successLine text }

/-- The outcome of a command that stopped early. -/
def ofStop : Stop → Outcome
  | .message text => { exit := 1, stderr := failureLine text }
  | .escape failure => { exit := 1, escaped := some failure }

end Outcome

/-- The text for people of a refusal, with its status and keyword. -/
def refusalText (error : ScimError) : String :=
  let keyword := if error.keyword.isVoid then "" else " (" ++ error.keyword.plain ++ ")"
  toString error.status ++ keyword ++ ": " ++ error.detail

/-- A step whose refusals are reported. -/
def reporting {α : Type} (step : Except Failure α) : Except Stop α :=
  step.mapError fun
    | .scim error => .message (refusalText error)
    | failure => .escape failure

/-- A step whose failures all escape. -/
def escaping {α : Type} (step : Except Failure α) : Except Stop α := step.mapError .escape

/-- Line breaks of all kinds as line feeds. -/
def unifyBreaks : List Char → List Char
  | [] => []
  | '\r' :: '\n' :: rest => '\n' :: unifyBreaks rest
  | c :: rest => (if c = '\r' then '\n' else c) :: unifyBreaks rest

/-- The JSON value in the text of a file. -/
def parseFile (name content : String) : Except Stop Json :=
  let text := unifyBreaks content.toList
  match Json.read (String.ofList text) with
  | .ok value => .ok value
  | .error (.malformed cause position) =>
    .error (.message ("Invalid JSON in " ++ name ++ ": " ++ cause.describe position text))
  | .error .integerTooLong => .error (.escape (.fault .badArgument))

/-- The resources in a value: a resource, an array of resources, or a list response. -/
def resourcesOf (value : Json) : Except Stop (List Members) :=
  let listed := match value with
    | .obj members => (Members.get? members "Resources").getD value
    | value => value
  let resources := match listed with
    | .obj members => some [members]
    | .arr items => items.mapM (·.members?)
    | _ => none
  match resources with
  | some resources => .ok resources
  | none => .error (.message "Expected a resource, an array of resources or a ListResponse")

/-- The texts of files by name. -/
abbrev Files := String → String

/-- The JSON value in a file. -/
def load (files : Files) (name : String) : Except Stop Json := parseFile name (files name)

/-- The resources in a file that may not be given. -/
def loadResources (files : Files) : Option String → Except Stop (List Members)
  | none => .ok []
  | some name => do resourcesOf (← load files name)

/-- Runs a filter. -/
def runFilter (files : Files) (expression file : String) : Except Stop Outcome := do
  let resources ← resourcesOf (← load files file)
  let filter ← reporting (Filter.parse expression)
  let matching ← escaping (resources.filterM fun resource => do
    filter.holds (.obj resource) (← Members.schema? resource))
  return .success (.arr (matching.map .obj))
    s!"{matching.length} of {resources.length} resource(s) match"

/-- Runs a change. -/
def runPatch (files : Files) (changes resource : String) : Except Stop Outcome := do
  let body ← load files changes
  let .obj members ← load files resource
    | .error (.message "Resource file must contain a JSON object")
  let operations ← reporting (PatchOperation.ofRequest body)
  let patched ← reporting (applyPatch members (operations.map .ready) none)
  return .success (.obj patched) s!"Applied {operations.length} operation(s)"

/-- The request parameters that the options of a query stand for. -/
def queryParams (options : QueryOptions) : Members :=
  let given (name : String) (value : Option Json) : Members := (value.map (name, ·)).toList
  given "filter" (options.filter.map .str) ++ given "sortBy" (options.sortBy.map .str) ++
    given "sortOrder" (options.sortOrder.map .str) ++
    given "startIndex" (options.startIndex.map .int) ++ given "count" (options.count.map .int) ++
    given "attributes" (options.attributes.map .str) ++
    given "excludedAttributes" (options.excluded.map .str)

/-- The schema of a query: that of the stated type, or else that of the first resource. -/
def querySchema (options : QueryOptions) (resources : List Members) :
    Except Failure (Option ResourceSchema) :=
  match options.resourceType, resources with
  | some name, _ => .ok ((ResourceSchema.standard.find? (·.1 = name)).map (·.2))
  | none, first :: _ => Members.schema? first
  | none, [] => .ok none

/-- Answers a query over resources that are loaded into a memory store. -/
def answer (supply : Supply) (resources : List Members) (spec : QuerySpec)
    (schema : Option ResourceSchema) : Except Failure QueryResult :=
  let store := MemoryStore.empty ((schema.map (·.name)).getD "Resource") none ""
  let action : Action MemoryState QueryResult := do
    MemoryStore.load (resources.map .obj)
    (Service.of MemoryStore.adapter schema none {}).list spec
  (action.run (supply, store)).1

/-- Runs a list query. -/
def runQuery (supply : Supply) (files : Files) (file : String) (options : QueryOptions) :
    Except Stop Outcome := do
  let resources ← resourcesOf (← load files file)
  let schema ← escaping (querySchema options resources)
  let spec ← reporting (QuerySpec.ofParams (queryParams options))
  let result ← reporting (answer supply resources spec schema)
  return .success (.obj result.toMembers)
    s!"{toString result.total.value} total, {result.itemsPerPage} returned"

/-- The two endpoints that bulk requests of the command line work on. -/
inductive Endpoint where
  | users | groups
  deriving DecidableEq

namespace Endpoint

/-- The type of the resources at an endpoint. -/
def resourceType : Endpoint → String
  | .users => "User"
  | .groups => "Group"

/-- The schema of the resources at an endpoint. -/
def schema : Endpoint → ResourceSchema
  | .users => .user
  | .groups => .group

/-- The name of an endpoint. -/
def name (endpoint : Endpoint) : String := endpoint.resourceType ++ "s"

/-- The service of an endpoint. -/
def service (endpoint : Endpoint) (options : ServiceOptions) : Service (Pool Endpoint) :=
  .of (MemoryStore.adapter.zoom (Pool.memory endpoint)) (some endpoint.schema) none options

/-- Loads resources into the store of an endpoint. -/
def load (endpoint : Endpoint) (resources : List Members) : Action (Pool Endpoint) Unit :=
  (MemoryStore.load (resources.map .obj)).zoom (Pool.memory endpoint)

end Endpoint

/-- Empty stores for both endpoints. -/
def emptyPool (supply : Supply) (baseUrl : String) : Pool Endpoint where
  supply := supply
  store endpoint := .empty endpoint.resourceType none baseUrl
  session _ := .ofResponses []

/-- The outcome of a batch. -/
def batchOutcome (batch : BulkBatch) : Outcome :=
  let data : Json := .obj (BulkResult.responseBody batch.results)
  let failures := BulkResult.failures batch.results
  if failures = 0 then
    .success data s!"{batch.results.length} operation(s) succeeded"
  else
    { exit := 1, stdout := Outcome.dataText data,
      stderr := Outcome.failureLine s!"{failures} operation(s) failed" }

/-- Runs a bulk request. -/
def runBulk (supply : Supply) (files : Files) (request : String) (users groups : Option String)
    (baseUrl : String) (maxOperations : Int) : Except Stop Outcome := do
  let body ← load files request
  let users ← loadResources files users
  let groups ← loadResources files groups
  let options : ServiceOptions := { baseUrl, maxBulkOperations := maxOperations }
  let services := [Endpoint.users, .groups].map fun endpoint =>
    (endpoint.name, endpoint.service options)
  let seed : Action (Pool Endpoint) Unit := do
    Endpoint.users.load users
    Endpoint.groups.load groups
  let (seeded, pool) := seed.run (emptyPool supply baseUrl)
  escaping seeded
  let batch ← reporting
    ((BulkBatch.execute services options (BulkRequest.ofJson body)).run pool).1
  return batchOutcome batch

/-- The name of the program and its version. -/
def versionText : String := "main, version 0.1.0\n"

/-- Runs a command. -/
def Command.run (supply : Supply) (files : Files) (command : Command) : Outcome :=
  let outcome : Except Stop Outcome := match command with
    | .version => .ok { stdout := versionText }
    | .filter expression file => runFilter files expression file
    | .patch changes resource => runPatch files changes resource
    | .query file options => runQuery supply files file options
    | .bulk request users groups baseUrl maxOperations =>
      runBulk supply files request users groups baseUrl maxOperations
  match outcome with
  | .ok outcome => outcome
  | .error stop => .ofStop stop

/-- The outcome of a command line that cannot be read. -/
def usage : Outcome :=
  { exit := 2
    stderr := "Usage: main filter EXPRESSION FILE\n" ++
      "       main patch PATCH_FILE RESOURCE_FILE\n" ++
      "       main query [OPTIONS] FILE\n" ++
      "       main bulk [OPTIONS] BULK_FILE\n" }

/-- Runs a command line. -/
def run (supply : Supply) (files : Files) (arguments : List String) : Outcome :=
  match Command.ofArguments? arguments with
  | some command => command.run supply files
  | none => usage

end Scim.Cli
