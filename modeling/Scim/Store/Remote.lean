import Scim.Error.Response
import Scim.Http.Client
import Scim.Resource
import Scim.Store.Adapter

/-!
# Storage on a server

A remote adapter keeps its resources on another server. Filtering, sorting, paging and projection
are left to that server, and its refusals are read back as refusals of the engine.
-/

namespace Scim

/-- One endpoint of a server. -/
structure Remote where
  client : Http.Client
  endpoint : String
  /-- Whether versions are sent as conditions of a write. -/
  useEtags : Bool := false

namespace Remote

open Http

/-- An endpoint; slashes around its name make no difference. -/
def ofEndpoint (client : Client) (endpoint : String) (useEtags : Bool) : Remote :=
  { client, endpoint := "/" ++ Text.trimBoth (· == '/') endpoint, useEtags }

/-- The path of the resource with an id. -/
def path (remote : Remote) (id : Json) : String := remote.endpoint ++ "/" ++ id.plain

/-- The condition of a write on a version. -/
def condition (remote : Remote) (version : Json) : Members :=
  if remote.useEtags && !version.isVoid then [("If-Match", version)] else []

/-- The body of a successful response, or the refusal that another one stands for. -/
def accept (response : Response) : Except Failure Json :=
  if response.isOk then response.json.mapError .fault
  else
    let body := match response.json with
      | .ok body => body
      | .error _ => .null
    match ScimError.ofResponse response.status body with
    | .ok error => refuse error
    | .error fault => failWith fault

/-- Sends a request to the server. -/
def call (remote : Remote) (method path : String) (payload : Json := .null)
    (params : Json := .null) (extra : Members := []) : Action Session Json := do
  let response ← liftM (remote.client.send method path payload params extra)
  Action.ofExcept (accept response)

/-- The number of items in a list, object or text. -/
def itemCount : Json → Except Failure Nat
  | .arr items => .ok items.length
  | .obj members => .ok members.length
  | .str s => .ok s.length
  | _ => failWith .wrongType

/-- The resources that a list response holds, and the total it states or else their number. -/
def readListing (body : Json) : Except Failure (Json × Total) := do
  let body := body.orElse (.obj [])
  let resources := (← body.attrOf "Resources").orElse (.arr [])
  let stated ← body.attrOf "totalResults"
  let count ← itemCount resources
  let total := match stated with
    | .int n => .count n
    | .bool b => .flag b
    | _ => .count count
  return (resources, total)

/-- What the server answers to a query. -/
def search (remote : Remote) (spec : QuerySpec) : Action Session (Json × Total) := do
  let body ← remote.call "GET" remote.endpoint .null (.obj spec.toParams)
  Action.ofExcept (readListing body)

/-- An endpoint of a server as an adapter. All stages of a query are applied by the server. -/
def adapter (remote : Remote) : Adapter Session where
  create resource := remote.call "POST" remote.endpoint resource
  read id := remote.call "GET" (remote.path id)
  replace id resource version :=
    remote.call "PUT" (remote.path id) resource .null (remote.condition version)
  delete id version := do
    let _ ← remote.call "DELETE" (remote.path id) .null .null (remote.condition version)
  list spec := do
    let (resources, total) ← remote.search spec
    let resources ← Action.ofExcept resources.listed
    return { resources, total := some total, filtered := true, sorted := true, paginated := true,
             projected := true }

end Remote

end Scim
