import Scim.Sync.IdSet
import Scim.Sync.Walk

/-!
# Reconciliation of two services

A reconciliation copies every resource of a source to a target and keeps the ids: resources that the
target had before the run are replaced, the others created. It may also delete those that the source
lacks. The `meta` attribute is the target's own, and resources without an id are passed over.
-/

namespace Scim

/-- The ids of the resources that a reconciliation created, updated and deleted, in order, and the
number of those it passed over. -/
structure ReconciliationReport where
  created : List Json := []
  updated : List Json := []
  deleted : List Json := []
  skipped : Nat := 0

namespace Reconciliation

variable {σ : Type}

/-- The ids of all resources of a service. -/
def allIds (service : Service σ) (size : Int) (budget : Nat) : Action σ IdSet := fun state =>
  let collect (resources : List Json) : Action (σ × IdSet) Unit := do
    let (_, ids) ← get
    let ids ← Action.ofExcept (ids.insertAll resources)
    modify fun (state, _) => (state, ids)
  let walk := Walk.pages (service.zoom .first) { attributes := ["id"] } size collect budget
  match walk.run (state, []) with
  | (.ok (), state, ids) => (.ok ids, state)
  | (.error failure, state, _) => (.error failure, state)

/-- The resource of a source as it is written to a target. -/
def payload (resource : Json) : Json :=
  match resource with
  | .obj members => .obj (Members.delAttr members "meta")
  | other => other

/-- Copies one resource to a target that held some ids before the run. -/
def copy (target : Service σ) (before : IdSet) (resource : Json) :
    Action (σ × ReconciliationReport) Unit := do
  let id ← Action.ofExcept (resource.attrOf "id")
  if id.isVoid then
    modify fun (state, report) => (state, { report with skipped := report.skipped + 1 })
  else if !id.isKey then Action.failWith .wrongType
  else if before.has id then
    let _ ← (target.replace id (payload resource)).zoom .first
    modify fun (state, report) => (state, { report with updated := report.updated ++ [id] })
  else
    let _ ← (target.create (payload resource)).zoom .first
    modify fun (state, report) => (state, { report with created := report.created ++ [id] })

/-- Copies the resources of a page. -/
def copyAll (target : Service σ) (before : IdSet) :
    List Json → Action (σ × ReconciliationReport) Unit
  | [] => return
  | resource :: rest => do
    copy target before resource
    copyAll target before rest

/-- Deletes the resources with some ids. -/
def deleteAll (target : Service σ) : List Json → Action (σ × ReconciliationReport) Unit
  | [] => return
  | id :: rest => do
    (target.delete id).zoom .first
    modify fun (state, report) => (state, { report with deleted := report.deleted ++ [id] })
    deleteAll target rest

/-- Deletes what the target held before the run and the source lacks, in ascending order of ids. -/
def deleteOrphans (target : Service σ) (before : IdSet) :
    Action (σ × ReconciliationReport) Unit := do
  let (_, report) ← get
  let orphans := before.without (report.created ++ report.updated)
  deleteAll target (← Action.ofExcept orphans.sorted)

/-- A reconciliation, with pages of a size and a budget of list requests for each service. -/
def run (source target : Service σ) (size : Int) (orphans : Bool) (budget : Nat) :
    Action σ ReconciliationReport := do
  let before ← allIds target size budget
  fun state =>
    let action : Action (σ × ReconciliationReport) Unit := do
      Walk.pages (source.zoom .first) {} size (copyAll target before) budget
      if orphans then deleteOrphans target before
    match action.run (state, {}) with
    | (.ok (), state, report) => (.ok report, state)
    | (.error failure, state, _) => (.error failure, state)

end Reconciliation

end Scim
