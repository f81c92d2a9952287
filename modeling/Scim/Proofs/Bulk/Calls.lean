import Scim.Bulk.Batch
import Scim.Proofs.Action

/-!
# The calls of bulk operations

An operation of a bulk request stands for one call of a service.  Its references are
resolved before the call, and the id of a created resource is recorded behind it.
What an operation comes to is said once, as an equation about `dispatch`: a plan, the
call, and the settlement of what the call returned.
-/

namespace Scim

/-- A call of a service that may change its resources. -/
inductive WriteCall where
  | create (resource : Json)
  | replace (id resource version : Json)
  | patch (id request version : Json)
  | delete (id version : Json)

/-- What a call does at a service, with the resource that it returns.  A removal
returns null. -/
def WriteCall.on {σ : Type} (service : Service σ) : WriteCall → Action σ Json
  | .create resource => service.create resource
  | .replace id resource version => service.replace id resource version
  | .patch id request version => service.patch id request version
  | .delete id version => do
    service.delete id version
    return .null

/-- The call that an operation stands for on a resource, or on none, with some data. -/
def BulkOperation.call (operation : BulkOperation) (id : Option Json) (data : Json) :
    Except Failure WriteCall :=
  match operation.method, id with
  | .post, none => .ok (.create data)
  | .post, some _ =>
    refuse (.invalidPath "POST must target a resource endpoint" operation.path)
  | .put, some id => .ok (.replace id data operation.version)
  | .patch, some id => .ok (.patch id data operation.version)
  | .delete, some id => .ok (.delete id operation.version)
  | method, none =>
    refuse (.invalidPath (method.word ++ " requires a resource id") operation.path)

namespace BulkBatch

variable {σ : Type}

/-- The service that an operation goes to and the call that it makes there. -/
def plan (services : Services σ) (references : References) (operation : BulkOperation) :
    Except Failure (Service σ × WriteCall) := do
  let (service, id) ← route services references operation
  let data ← references.resolve operation.data
  return (service, ← operation.call id data)

/-- The result of an operation whose call returned a resource. -/
def success (service : Service σ) (operation : BulkOperation) (status : Int)
    (id version resource : Json) : BulkResult where
  method := operation.method.word
  status := status
  bulkId := operation.bulkId
  location := some (service.location id)
  version := version
  response := resource

/-- What follows a call that returned a resource: a created one is recorded. -/
def settle (service : Service σ) (operation : BulkOperation) (resource : Json) :
    WriteCall → Action References BulkResult
  | .create _ => do
    let id ← Action.ofExcept (resource.attrOf "id")
    record operation.bulkId id
    let version ← Action.ofExcept (Service.versionOf resource)
    return success service operation 201 id version resource
  | .replace id _ _ | .patch id _ _ => do
    let version ← Action.ofExcept (Service.versionOf resource)
    return success service operation 200 id version resource
  | .delete id _ => return success service operation 204 id .null resource

theorem run_runPost (service : Service σ) (operation : BulkOperation) (data : Json) (state : σ)
    (references : References) :
    (runPost service operation data).run (state, references) =
      match (service.create data).run state with
      | (.error failure, after) => (.error failure, after, references)
      | (.ok resource, after) =>
        let (outcome, recorded) := (settle service operation resource (.create data)).run references
        (outcome, after, recorded) := by
  rw [runPost, Action.run_bind, Action.run_zoom_first]
  rcases (service.create data).run state with ⟨outcome, after⟩
  cases outcome with
  | error failure => rfl
  | ok resource =>
      simp only [settle, Action.run_bind, Action.run_ofExcept]
      cases resource.attrOf "id" with
      | error failure => rfl
      | ok id =>
          simp only [Action.run_zoom_second]
          rcases (record operation.bulkId id).run references with ⟨recording, recorded⟩
          cases recording with
          | error failure => rfl
          | ok _ => cases Service.versionOf resource <;> rfl

theorem run_runOn (service : Service σ) {operation : BulkOperation} {id data : Json}
    {call : WriteCall} (stands : operation.call (some id) data = .ok call) (state : σ)
    (references : References) :
    ((runOn service operation id data).zoom .first).run (state, references) =
      match (call.on service).run state with
      | (.error failure, after) => (.error failure, after, references)
      | (.ok resource, after) =>
        let (outcome, recorded) := (settle service operation resource call).run references
        (outcome, after, recorded) := by
  rw [Action.run_zoom_first]
  obtain ⟨method, path, bulkId, _, version⟩ := operation
  cases method with
  | post => cases stands
  | put =>
      cases stands
      simp only [runOn, settle, WriteCall.on, Action.run_bind, Action.run_ofExcept]
      rcases (service.replace id data version).run state with ⟨outcome, after⟩
      cases outcome with
      | error failure => rfl
      | ok resource =>
          dsimp only
          cases Service.versionOf resource <;> rfl
  | patch =>
      cases stands
      simp only [runOn, settle, WriteCall.on, Action.run_bind, Action.run_ofExcept]
      rcases (service.patch id data version).run state with ⟨outcome, after⟩
      cases outcome with
      | error failure => rfl
      | ok resource =>
          dsimp only
          cases Service.versionOf resource <;> rfl
  | delete =>
      cases stands
      simp only [runOn, settle, WriteCall.on, Action.run_bind]
      rcases (service.delete id version).run state with ⟨outcome, after⟩
      cases outcome <;> rfl

/-- What an operation comes to: it is planned, its call is made, and what the call
returned is settled. -/
theorem run_dispatch (services : Services σ) (operation : BulkOperation) (state : σ)
    (references : References) :
    (dispatch services operation).run (state, references) =
      match plan services references operation with
      | .error failure => (.error failure, state, references)
      | .ok (service, call) =>
        match (call.on service).run state with
        | (.error failure, after) => (.error failure, after, references)
        | (.ok resource, after) =>
          let (outcome, recorded) := (settle service operation resource call).run references
          (outcome, after, recorded) := by
  simp only [dispatch, plan, Action.run_bind, Action.run_get, Action.run_ofExcept]
  cases route services references operation with
  | error failure => rfl
  | ok target =>
      obtain ⟨service, id⟩ := target
      simp only [bind, Except.bind]
      cases references.resolve operation.data with
      | error failure => rfl
      | ok data =>
          cases stands : operation.call id data with
          | error failure =>
              -- no call matches the method and the path
              obtain ⟨method, path, bulkId, _, version⟩ := operation
              cases method <;> cases id <;> cases stands <;> rfl
          | ok call =>
              obtain ⟨method, path, bulkId, _, version⟩ := operation
              cases id with
              | none =>
                  cases method <;> cases stands
                  exact run_runPost service _ data state references
              | some id =>
                  have ran := run_runOn service stands state references
                  simp only [stands]
                  cases method with
                  | post => cases stands
                  | put | patch | delete => exact ran

/-- A settled result reports success, with the resource that the call returned. -/
theorem settle_eq_ok {service : Service σ} {operation : BulkOperation} {resource : Json}
    {call : WriteCall} {references recorded : References} {result : BulkResult}
    (settled : (settle service operation resource call).run references = (.ok result, recorded)) :
    ∃ status id version, status < 400 ∧
      result = success service operation status id version resource := by
  cases call with
  | create data =>
      rw [settle, Action.run_bind_eq_ok_iff] at settled
      obtain ⟨id, _, _, rest⟩ := settled
      rw [Action.run_bind_eq_ok_iff] at rest
      obtain ⟨_, _, _, rest⟩ := rest
      rw [Action.run_bind_eq_ok_iff] at rest
      obtain ⟨version, _, _, done⟩ := rest
      cases done
      exact ⟨201, id, version, by decide, rfl⟩
  | replace id data expected | patch id data expected =>
      rw [settle, Action.run_bind_eq_ok_iff] at settled
      obtain ⟨version, _, _, done⟩ := settled
      cases done
      exact ⟨200, id, version, by decide, rfl⟩
  | delete id expected =>
      cases settled
      exact ⟨204, id, .null, by decide, rfl⟩

/-- The result of an entry that failed. -/
def refusal (entry : BulkEntry) (failure : Failure) : BulkResult where
  method := entry.describe.1
  status := (reported failure).status
  bulkId := entry.describe.2
  response := .obj (reported failure).toMembers

theorem run_runEntry (services : Services σ) (index : Nat) (entry : BulkEntry)
    (state : σ × References) :
    (runEntry services index entry).run state =
      match entry.read index with
      | .error failure => (refusal entry failure, state)
      | .ok operation =>
        match (dispatch services operation).run state with
        | (.ok result, after) => (result, after)
        | (.error failure, after) => (refusal entry failure, after) := by
  change (match (Action.ofExcept (entry.read index) >>= dispatch services :
      Action (σ × References) BulkResult).run state with
    | (.ok result, after) => (result, after)
    | (.error failure, after) => (refusal entry failure, after)) = _
  rw [Action.run_bind, Action.run_ofExcept]
  cases entry.read index <;> rfl

/-- What an entry comes to.  Without a call the state stays as it was, and otherwise it
is the one after the call. -/
inductive Ran (services : Services σ) (index : Nat) (entry : BulkEntry) (state : σ)
    (references : References) : BulkResult → σ × References → Prop where
  /-- The entry is no operation. -/
  | malformed (failure : Failure) (read : entry.read index = .error failure) :
      Ran services index entry state references (refusal entry failure) (state, references)
  /-- The operation stands for no call. -/
  | unplanned (operation : BulkOperation) (failure : Failure)
      (read : entry.read index = .ok operation)
      (planned : plan services references operation = .error failure) :
      Ran services index entry state references (refusal entry failure) (state, references)
  /-- The call fails. -/
  | failed (operation : BulkOperation) (service : Service σ) (call : WriteCall) (failure : Failure)
      (after : σ) (read : entry.read index = .ok operation)
      (planned : plan services references operation = .ok (service, call))
      (called : (call.on service).run state = (.error failure, after)) :
      Ran services index entry state references (refusal entry failure) (after, references)
  /-- The call returns a resource, of which no record can be made. -/
  | unsettled (operation : BulkOperation) (service : Service σ) (call : WriteCall)
      (resource : Json) (failure : Failure) (after : σ) (recorded : References)
      (read : entry.read index = .ok operation)
      (planned : plan services references operation = .ok (service, call))
      (called : (call.on service).run state = (.ok resource, after))
      (settled : (settle service operation resource call).run references =
        (.error failure, recorded)) :
      Ran services index entry state references (refusal entry failure) (after, recorded)
  /-- The call returns a resource, which is reported. -/
  | settled (operation : BulkOperation) (service : Service σ) (call : WriteCall)
      (resource : Json) (result : BulkResult) (after : σ) (recorded : References)
      (read : entry.read index = .ok operation)
      (planned : plan services references operation = .ok (service, call))
      (called : (call.on service).run state = (.ok resource, after))
      (settled : (settle service operation resource call).run references =
        (.ok result, recorded)) :
      Ran services index entry state references result (after, recorded)

theorem runEntry_ran (services : Services σ) (index : Nat) (entry : BulkEntry) (state : σ)
    (references : References) :
    Ran services index entry state references
      ((runEntry services index entry).run (state, references)).1
      ((runEntry services index entry).run (state, references)).2 := by
  rw [run_runEntry]
  cases read : entry.read index with
  | error failure => exact .malformed failure read
  | ok operation =>
      dsimp only
      rw [run_dispatch]
      cases planned : plan services references operation with
      | error failure => exact .unplanned operation failure read planned
      | ok target =>
          obtain ⟨service, call⟩ := target
          dsimp only
          rcases called : (call.on service).run state with ⟨_ | resource, after⟩
          · exact .failed operation service call _ after read planned called
          · dsimp only
            rcases settled : (settle service operation resource call).run references with
              ⟨_ | result, recorded⟩
            · exact .unsettled operation service call resource _ after recorded read planned called
                settled
            · exact .settled operation service call resource result after recorded read planned
                called settled

/-- An entry that is run is not canceled. -/
theorem not_canceled_of_run {services : Services σ} {index : Nat} {entry : BulkEntry}
    {state after : σ × References} {result : BulkResult}
    (ran : (runEntry services index entry).run state = (result, after)) :
    result.canceled = false := by
  have comes := runEntry_ran services index entry state.1 state.2
  rw [ran] at comes
  cases comes with
  | settled operation service call resource result after recorded read planned called settled =>
      obtain ⟨status, id, version, _, rfl⟩ := settle_eq_ok settled
      rfl
  | _ => rfl

end BulkBatch

end Scim
