import Scim.Resource
import Scim.Store.Adapter
import Scim.Store.Supply

/-!
# Storage in memory

A memory store keeps the resources of one type by id, in the order of their creation. Every write
stamps the resource: it assigns the id and the `meta` attribute, whose version is the number of
stamps so far. A write under a condition succeeds only if the stored resource still has the expected
version, and a refused write changes nothing that is stored.
-/

namespace Scim

/-- The stored resources of one type, each under its id. -/
structure MemoryStore where
  resourceType : String
  endpoint : String
  baseUrl : String
  entries : List (Json × Members) := []
  /-- How many stamps were made. -/
  stamps : Nat := 0

/-- A memory store and the supply it takes time and ids from. -/
abbrev MemoryState := Supply × MemoryStore

namespace MemoryStore

/-- An empty store. The endpoint is the plural of the type unless another one is given, and the base
of locations does not end in a slash. -/
def empty (resourceType : String) (endpoint : Option String) (baseUrl : String) : MemoryStore :=
  let endpoint := match endpoint with
    | none | some "" => "/" ++ resourceType ++ "s"
    | some endpoint => endpoint
  { resourceType, endpoint, baseUrl := Text.trimEnd (· == '/') baseUrl }

/-- The ids of the stored resources, in order. -/
def ids (store : MemoryStore) : List Json := store.entries.map (·.1)

/-- The stored resources, in order. -/
def resources (store : MemoryStore) : List Json := store.entries.map fun (_, stored) => .obj stored

/-- The resource stored under an id. -/
def find? (store : MemoryStore) (id : Json) : Option Members :=
  (store.entries.find? (·.1.same id)).map (·.2)

/-- The entries with a resource put under an id: in the place of the entry that has the id, or at
the end. -/
def putEntry (id : Json) (resource : Members) : List (Json × Members) → List (Json × Members)
  | [] => [(id, resource)]
  | (key, stored) :: rest =>
    if key.same id then (key, resource) :: rest else (key, stored) :: putEntry id resource rest

/-- Puts a resource under an id. -/
def put (store : MemoryStore) (id : Json) (resource : Members) : MemoryStore :=
  { store with entries := putEntry id resource store.entries }

/-- Removes the resource under an id. -/
def erase (store : MemoryStore) (id : Json) : MemoryStore :=
  { store with entries := store.entries.filter fun entry => !entry.1.same id }

/-- The resource under an id that may be anything. -/
def lookup (store : MemoryStore) (id : Json) : Except Failure (Option Members) :=
  if id.isKey then .ok (store.find? id) else failWith .wrongType

/-- The resource under an id. -/
def fetch (store : MemoryStore) (id : Json) : Except Failure Members := do
  match ← store.lookup id with
  | some stored => return stored
  | none => refuse (.notFound id)

/-- The resource under an id, if it has the expected version; null expects none. -/
def fetchVersion (store : MemoryStore) (id version : Json) : Except Failure Members := do
  let stored ← store.fetch id
  let actual := Members.resourceVersion stored
  if !version.isNull && !version.equal actual then
    refuse (.concurrentModification
      ("Resource " ++ id.plain ++ " was modified (expected version " ++ version.plain ++
        ", found " ++ actual.plain ++ ")") version actual)
  else return stored

/-- Refuses an id that is taken. -/
def checkFree (store : MemoryStore) (id : Json) : Except Failure Unit := do
  if (← store.lookup id).isSome then
    refuse (.conflict ("Resource with ID " ++ id.plain ++ " already exists"))

/-- The version of a stamp. -/
def versionText (stamp : Nat) : String := "W/\"" ++ toString stamp ++ "\""

/-- The `meta` attribute of a stamp made at a time. The time of creation is that of the stamp unless
an earlier one is given. -/
def stampInfo (store : MemoryStore) (id created : Json) (now : String) (stamp : Nat) : Members :=
  [("resourceType", .str store.resourceType), ("created", created.orElse (.str now)),
    ("lastModified", .str now),
    ("location", .str (store.baseUrl ++ store.endpoint ++ "/" ++ id.plain)),
    ("version", .str (versionText stamp))]

/-- Stamps a resource. -/
def stamp (id created : Json) (resource : Members) : Action MemoryState Members := do
  let (supply, store) ← get
  let (now, supply) := supply.readClock
  let stamps := store.stamps + 1
  set (supply, { store with stamps })
  return Members.setAttr resource "meta" (.obj (store.stampInfo id created now stamps))

/-- A fresh id. -/
def freshId : Action MemoryState Json := do
  let (supply, store) ← get
  let (id, supply) := supply.takeId
  set (supply, store)
  return .str id

/-- Puts a stamped resource under its id. -/
def write (id : Json) (resource : Members) : Action MemoryState Json := do
  modify fun (supply, store) => (supply, store.put id resource)
  return .obj resource

/-- A value to be stored as a resource. -/
def asStorable (resource : Json) : Except Failure Members := do
  let _ ← resource.attrOf "id"
  resource.asResource

/-- Creates a resource, under its own id or a fresh one. A resource that is loaded and not new keeps
its `meta` attribute. -/
def create (keepMeta : Bool) (resource : Json) : Action MemoryState Json := do
  let stated ← Action.ofExcept (resource.attrOf "id")
  let id ← if stated.isVoid then freshId else pure stated
  Action.examine fun (_, store) => store.checkFree id
  let named := Members.setAttr (← Action.ofExcept resource.asResource) "id" id
  if keepMeta && (Members.attr named "meta").isObj then write id named
  else write id (← stamp id .null named)

/-- Reads a resource. -/
def read (id : Json) : Action MemoryState Json :=
  Action.examine fun (_, store) => (store.fetch id).map .obj

/-- When a stored resource was created. -/
def createdAt (stored : Members) : Json :=
  match Members.attr stored "meta" with
  | .obj info => Members.attr info "created"
  | _ => .null

/-- Overwrites a resource if it has the expected version. -/
def replace (id resource version : Json) : Action MemoryState Json := do
  let current ← Action.examine fun (_, store) => store.fetchVersion id version
  let named := Members.setAttr (← Action.ofExcept (asStorable resource)) "id" id
  write id (← stamp id (createdAt current) named)

/-- Removes a resource if it has the expected version. -/
def delete (id version : Json) : Action MemoryState Unit := do
  let _ ← Action.examine fun (_, store) => store.fetchVersion id version
  modify fun (supply, store) => (supply, store.erase id)

/-- Loads resources, each under its own id or a fresh one. -/
def load : List Json → Action MemoryState Unit
  | [] => return
  | resource :: rest => do
    let _ ← create true resource
    load rest

/-- A memory store as an adapter. It applies no stage of a query. -/
def adapter : Adapter MemoryState where
  create := create false
  read := read
  replace := replace
  delete := delete
  list _ := Action.examine fun (_, store) => .ok { resources := store.resources }

end MemoryStore

end Scim
