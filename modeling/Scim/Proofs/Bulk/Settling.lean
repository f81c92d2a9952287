import Scim.Proofs.Bulk.Stopping
import Scim.Proofs.Service.Writing

/-!
# Settling the calls of bulk operations

Over memory stores a call that returned a resource is settled unless it created the
resource for a bulk id that nothing can be recorded under.
-/

namespace Scim

open Members

theorem Service.versionOf_obj (members : Members) :
    versionOf (.obj members) = .ok (resourceVersion members) := by
  simp only [versionOf, Json.attrOf, resourceVersion, bind, Except.bind]
  cases attr members "meta" <;> rfl

namespace BulkBatch

variable {σ : Type}

/-- Bulk ids under which a created resource can be recorded, or that ask for no record. -/
def Recordable (bulkId : Json) : Prop := bulkId.isVoid = true ∨ bulkId.isKey = true

/-- The references with a created resource recorded under a bulk id, if there is one. -/
def recorded (references : References) (bulkId id : Json) : References :=
  if bulkId.isVoid then references else references.set bulkId id

theorem run_record {bulkId : Json} (recordable : Recordable bulkId) (id : Json)
    (references : References) :
    (record bulkId id).run references = (.ok (), recorded references bulkId id) := by
  rw [record, recorded]
  by_cases void : bulkId.isVoid = true
  · rw [if_pos void, if_pos void]
    rfl
  · rw [if_neg void, if_neg void, if_pos (recordable.resolve_left void)]
    rfl

theorem run_record_of_not_recordable {bulkId : Json} (unfit : ¬ Recordable bulkId) (id : Json)
    (references : References) :
    (record bulkId id).run references = (.error (.fault .wrongType), references) := by
  rw [Recordable, not_or] at unfit
  rw [record, if_neg unfit.1, if_neg unfit.2]
  rfl

/-- A created resource is reported under the id it was given. -/
theorem run_settle_create (service : Service σ) {operation : BulkOperation}
    (recordable : Recordable operation.bulkId) (data : Json) (members : Members)
    (references : References) :
    (settle service operation (.obj members) (.create data)).run references =
      (.ok (success service operation 201 (attr members "id") (resourceVersion members)
          (.obj members)),
        recorded references operation.bulkId (attr members "id")) := by
  simp only [settle, Json.attrOf, Action.run_bind, Action.run_ofExcept, run_record recordable,
    Service.versionOf_obj, Action.run_pure]

theorem run_settle_create_of_not_recordable (service : Service σ) {operation : BulkOperation}
    (unfit : ¬ Recordable operation.bulkId) (data : Json) (members : Members)
    (references : References) :
    (settle service operation (.obj members) (.create data)).run references =
      (.error (.fault .wrongType), references) := by
  simp only [settle, Json.attrOf, Action.run_bind, Action.run_ofExcept,
    run_record_of_not_recordable unfit]

/-- The calls that create a resource are those of the operations that post. -/
theorem method_of_call {operation : BulkOperation} {id : Option Json} {data : Json}
    {call : WriteCall} (stands : operation.call id data = .ok call) :
    operation.method = .post ↔ ∃ resource, call = .create resource := by
  obtain ⟨method, path, bulkId, _, version⟩ := operation
  cases method <;> cases id <;> cases stands <;> simp

/-- A planned call is made at one of the services. -/
theorem plan_eq_ok {services : Services σ} {references : References} {operation : BulkOperation}
    {service : Service σ} {call : WriteCall}
    (planned : plan services references operation = .ok (service, call)) :
    (∃ named ∈ services, named.2 = service) ∧ ∃ id data, operation.call id data = .ok call := by
  rw [plan, bind_eq_ok_iff] at planned
  obtain ⟨⟨target, id⟩, routed, rest⟩ := planned
  rw [bind_eq_ok_iff] at rest
  obtain ⟨data, _, rest⟩ := rest
  rw [bind_eq_ok_iff] at rest
  obtain ⟨call, stands, done⟩ := rest
  cases done
  refine ⟨?_, id, data, stands⟩
  rw [route] at routed
  split at routed
  · split at routed
    · next service found =>
        rw [bind_eq_ok_iff] at routed
        obtain ⟨id, _, done⟩ := routed
        cases done
        obtain ⟨named, first, rfl⟩ := Option.map_eq_some_iff.mp found
        exact ⟨named, List.mem_reverse.mp (List.mem_of_find?_eq_some first), rfl⟩
    · cases routed
  · cases routed

variable {ι : Type} [DecidableEq ι]

/-- Services of users and of groups, each over a memory store of a pool. -/
def Pooled (services : Services (Pool ι)) : Prop := ∀ named ∈ services, ∃ i, named.2.InPool i

theorem cliServices_pooled (options : ServiceOptions) : Pooled (cliServices options) := by
  intro named member
  obtain ⟨endpoint, _, rfl⟩ := List.mem_map.mp member
  cases endpoint with
  | users => exact ⟨.users, rfl, .inl rfl⟩
  | groups => exact ⟨.groups, rfl, .inr rfl⟩

/-- A planned call writes in one store of a pool and leaves the others as they were. -/
theorem Pooled.wrote {services : Services (Pool ι)} (pooled : Pooled services)
    {references : References} {operation : BulkOperation} {service : Service (Pool ι)}
    {call : WriteCall} (planned : plan services references operation = .ok (service, call))
    {pool after : Pool ι} {outcome : Except Failure Json}
    (called : (call.on service).run pool = (outcome, after)) :
    ∃ i store, Service.Wrote (pool.store i) call outcome store ∧
      after.store = Pool.updated pool.store i store := by
  obtain ⟨named, member, rfl⟩ := (plan_eq_ok planned).1
  obtain ⟨i, inPool⟩ := pooled named member
  obtain ⟨store, wrote, stores⟩ := inPool.wrote call pool
  rw [called] at wrote stores
  exact ⟨i, store, wrote, stores⟩

end BulkBatch

/-- A call that creates nothing leaves nothing to record. -/
theorem Service.Wrote.settled {σ : Type} {store after : MemoryStore} {call : WriteCall}
    {resource : Json} (wrote : Wrote store call (.ok resource) after)
    (other : ∀ data, call ≠ .create data) (service : Service σ) (operation : BulkOperation)
    (references : References) :
    ∃ result, (BulkBatch.settle service operation resource call).run references =
      (.ok result, references) := by
  cases wrote with
  | created data => exact absurd rfl (other data)
  | replaced | patched =>
      simp only [BulkBatch.settle, Action.run_bind, Action.run_ofExcept, versionOf_obj]
      exact ⟨_, rfl⟩
  | removed => exact ⟨_, rfl⟩

/-- A call that returned a resource is settled unless it posted one that cannot be
recorded. -/
theorem Service.Wrote.settles {σ : Type} {store after : MemoryStore} {operation : BulkOperation}
    {id : Option Json} {data : Json} {call : WriteCall} {resource : Json}
    (wrote : Wrote store call (.ok resource) after) (stands : operation.call id data = .ok call)
    (recordable : operation.method = .post → BulkBatch.Recordable operation.bulkId)
    (service : Service σ) (references : References) :
    ∃ result recorded, (BulkBatch.settle service operation resource call).run references =
      (.ok result, recorded) := by
  by_cases posts : operation.method = .post
  · obtain ⟨_, rfl⟩ := (BulkBatch.method_of_call stands).mp posts
    cases wrote with
    | created _ _ _ shown =>
        exact ⟨_, _, BulkBatch.run_settle_create service (recordable posts) _ shown references⟩
  · have other : ∀ data, call ≠ .create data := by
      intro data equal
      exact posts ((BulkBatch.method_of_call stands).mpr ⟨data, equal⟩)
    obtain ⟨result, settled⟩ := wrote.settled other service operation references
    exact ⟨result, references, settled⟩

end Scim
