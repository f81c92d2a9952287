import Scim.Proofs.Bulk.References
import Scim.Proofs.Bulk.Settling
import Scim.Proofs.Error.Changing
import Scim.Proofs.Sync.Orphans

/-!
# Errors that the engine raises

Stores, services and batches refuse what they cannot do with errors that the engine composes,
so the message of whatever the engine raises is mapped back to an error with the same message.
-/

namespace Scim

variable {σ τ α : Type}

/-! ## Stores -/

/-- An adapter that refuses with errors that the engine composes. -/
structure Adapter.IsNative (adapter : Adapter σ) : Prop where
  create (resource : Json) : (adapter.create resource).FailsOnly Failure.IsNative
  read (id : Json) : (adapter.read id).FailsOnly Failure.IsNative
  replace (id resource version : Json) :
    (adapter.replace id resource version).FailsOnly Failure.IsNative
  delete (id version : Json) : (adapter.delete id version).FailsOnly Failure.IsNative
  list (spec : QuerySpec) : (adapter.list spec).FailsOnly Failure.IsNative

theorem Adapter.IsNative.zoom {adapter : Adapter σ} (native : adapter.IsNative) (slot : Slot τ σ) :
    (adapter.zoom slot).IsNative where
  create resource := (native.create resource).zoom slot
  read id := (native.read id).zoom slot
  replace id resource version := (native.replace id resource version).zoom slot
  delete id version := (native.delete id version).zoom slot
  list spec := (native.list spec).zoom slot

namespace MemoryStore

theorem native_fetch (store : MemoryStore) (id : Json) :
    FailsOnly Failure.IsNative (store.fetch id) := by
  refine .bind (store.failsOnly_lookup id).native fun found _ => ?_
  split
  · exact .ok _
  · exact .refuse_of _ _

theorem native_fetchVersion (store : MemoryStore) (id version : Json) :
    FailsOnly Failure.IsNative (store.fetchVersion id version) := by
  refine .bind (store.native_fetch id) fun stored _ => ?_
  dsimp only
  split
  · exact .refuse_of _ _
  · exact .ok _

theorem native_checkFree (store : MemoryStore) (id : Json) :
    FailsOnly Failure.IsNative (store.checkFree id) := by
  refine .bind (store.failsOnly_lookup id).native fun found _ => ?_
  split
  · exact .refuse_of _ _
  · exact .ok _

theorem succeeds_stamp (id created : Json) (resource : Members) :
    (stamp id created resource).FailsOnly Failure.IsNative := .of_ok fun _ => ⟨_, rfl⟩

theorem succeeds_write (id : Json) (resource : Members) :
    (write id resource).FailsOnly Failure.IsNative := .of_ok fun _ => ⟨_, rfl⟩

theorem native_create (keepMeta : Bool) (resource : Json) :
    (create keepMeta resource).FailsOnly Failure.IsNative := by
  have stored (id : Json) : (do
      Action.examine fun state => state.2.checkFree id
      let named := Members.setAttr (← Action.ofExcept resource.asResource) "id" id
      if keepMeta && (Members.attr named "meta").isObj then write id named
      else write id (← stamp id .null named) : Action MemoryState Json).FailsOnly
        Failure.IsNative := by
    refine .bind (.examine fun state => state.2.native_checkFree id) fun _ _ _ _ => ?_
    refine .bind (.ofExcept resource.failsOnly_asResource.native) fun _ members _ _ => ?_
    dsimp only
    split
    · exact succeeds_write _ _
    · exact .bind (succeeds_stamp _ _ _) fun _ _ _ _ => succeeds_write _ _
  refine .bind (.ofExcept (resource.failsOnly_attrOf "id").native) fun _ stated _ _ => ?_
  dsimp only
  split
  · exact .bind (.of_ok fun _ => ⟨_, rfl⟩) fun _ id _ _ => stored id
  · exact stored stated

theorem native_load (resources : List Json) : (load resources).FailsOnly Failure.IsNative := by
  induction resources with
  | nil => exact .pure ()
  | cons resource rest ih => exact .bind (native_create true resource) fun _ _ _ _ => ih

/-- A memory store refuses with errors that the engine composes. -/
theorem native_adapter : adapter.IsNative where
  create := native_create false
  read id := .examine fun state => (state.2.native_fetch id).map _
  replace id resource version := by
    refine .bind (.examine fun state => state.2.native_fetchVersion id version)
      fun _ current _ _ => ?_
    refine .bind (.ofExcept (failsOnly_asStorable resource).native) fun _ members _ _ => ?_
    exact .bind (succeeds_stamp _ _ _) fun _ _ _ _ => succeeds_write _ _
  delete id version :=
    .bind (.examine fun state => state.2.native_fetchVersion id version) fun _ _ _ _ => .change _
  list spec := .examine fun state => .ok _

end MemoryStore

/-! ## Services -/

namespace Service

variable {service : Service σ}

theorem native_present (service : Service σ) (resource : Json) (attributes excluded : List String) :
    FailsOnly Failure.IsNative (service.present resource attributes excluded) :=
  resource.native_project attributes excluded service.schema

theorem failsOnly_versionOf (resource : Json) : FailsOnly Failure.IsFault (versionOf resource) := by
  refine .bind (resource.failsOnly_attrOf "meta") fun info _ => ?_
  split <;> exact .ok _

section

variable (native : service.adapter.IsNative)
include native

theorem native_get (id : Json) (attributes excluded : List String) :
    (service.get id attributes excluded).FailsOnly Failure.IsNative :=
  .bind (native.read id) fun _ stored _ _ =>
    .ofExcept (service.native_present stored attributes excluded)

theorem native_list (spec : QuerySpec) : (service.list spec).FailsOnly Failure.IsNative :=
  .bind (native.list _) fun _ listing _ _ => .ofExcept (listing.native_complete _ service.schema)

theorem native_create (resource : Json) : (service.create resource).FailsOnly Failure.IsNative := by
  refine .bind (.ofExcept (service.failsOnly_prepare resource).native) fun _ resource _ _ => ?_
  exact .bind (native.create resource) fun _ created _ _ =>
    .ofExcept (service.native_present created [] [])

theorem native_replace (id resource version : Json) :
    (service.replace id resource version).FailsOnly Failure.IsNative := by
  refine .bind (.ofExcept (service.failsOnly_prepare resource).native) fun _ resource _ _ => ?_
  exact .bind (native.replace id resource version) fun _ replaced _ _ =>
    .ofExcept (service.native_present replaced [] [])

theorem native_delete (id version : Json) :
    (service.delete id version).FailsOnly Failure.IsNative := native.delete id version

theorem native_patch (id request version : Json) :
    (service.patch id request version).FailsOnly Failure.IsNative := by
  refine .bind ?_ fun _ change _ _ => ?_
  · refine .bind (.ofExcept (PatchEntry.native_ofRequest request)) fun _ entries _ _ => ?_
    exact .bind (native.read id) fun _ current _ _ => .pure _
  · have expected : FailsOnly Failure.IsFault change.expected := by
      unfold PendingChange.expected
      split
      · exact failsOnly_versionOf change.current
      · exact .ok _
    have changed : FailsOnly Failure.IsNative (change.changed service.schema) := by
      refine .bind (failsOnly_effectiveSchema _ _).native fun schema _ => ?_
      split
      · exact Json.native_applyPatch _ _ _
      · exact .native (.failWith _)
    refine .bind (.ofExcept expected.native) fun _ version _ _ => ?_
    exact .bind (.ofExcept changed) fun _ resource _ _ => native_replace native _ _ _

theorem native_on (call : WriteCall) : (call.on service).FailsOnly Failure.IsNative := by
  cases call with
  | create resource => exact native_create native resource
  | replace id resource version => exact native_replace native id resource version
  | patch id request version => exact native_patch native id request version
  | delete id version => exact .bind (native_delete native id version) fun _ _ _ _ => .pure _

end

end Service

/-! ## Batches -/

theorem BulkOperation.native_ofJson (value : Json) (index : Int) :
    FailsOnly Failure.IsNative (BulkOperation.ofJson value index) := by
  have refused {β : Type} (problem : String) :
      FailsOnly Failure.IsNative (malformed index problem : Except Failure β) := .refuse_of _ _
  unfold BulkOperation.ofJson
  split
  · dsimp only
    split
    · exact .checked (refused _) (.checked (refused _) (.checked (refused _) (.ok _)))
    · exact refused _
  · exact refused _

theorem BulkRequest.native_readLimit (value : Json) :
    FailsOnly Failure.IsNative (readLimit value) := by
  unfold readLimit
  split
  · exact .ok _
  · split
    · exact .refuse_of _ _
    · exact .ok _
  · exact .refuse_of _ _

theorem BulkRequest.native_ofJson (body : Json) : FailsOnly Failure.IsNative (ofJson body) := by
  unfold ofJson
  split
  · extract_lets declared
    split
    · exact .refuse_of _ _
    · split
      · exact .bind (native_readLimit _) fun _ _ => .ok _
      · exact .refuse_of _ _
  · exact .refuse_of _ _

theorem BulkOperation.native_call (operation : BulkOperation) (id : Option Json) (data : Json) :
    FailsOnly Failure.IsNative (operation.call id data) := by
  unfold call
  split
  · exact .ok _
  · exact .refuse_of _ _
  · exact .ok _
  · exact .ok _
  · exact .ok _
  · exact .refuse_of _ _

theorem References.native_resolve (references : References) (value : Json) :
    FailsOnly Failure.IsNative (references.resolve value) := by
  rw [resolve_eq, unlessDangling]
  split
  · exact .refuse_of _ _
  · exact .ok _

namespace BulkBatch

variable {services : Services σ}

theorem native_route (services : Services σ) (references : References) (operation : BulkOperation) :
    FailsOnly Failure.IsNative (route services references operation) := by
  unfold route
  split
  · next target _ =>
    split
    · refine .bind ?_ fun _ _ => .ok _
      cases target.id with
      | none => exact .ok none
      | some text => exact .bind (references.native_resolve (.str text)) fun id _ => .ok (some id)
    · exact .refuse_of _ _
  · exact .refuse_of _ _

theorem native_record (bulkId id : Json) : (record bulkId id).FailsOnly Failure.IsNative := by
  unfold record
  split
  · exact .pure ()
  · split
    · exact .change _
    · exact .ofExcept (.native (.failWith _))

theorem native_plan (services : Services σ) (references : References) (operation : BulkOperation) :
    FailsOnly Failure.IsNative (plan services references operation) := by
  refine .bind (native_route services references operation) fun target _ => ?_
  refine .bind (references.native_resolve operation.data) fun data _ => ?_
  exact .bind (operation.native_call target.2 data) fun _ _ => .ok _

theorem native_settle (service : Service σ) (operation : BulkOperation) (resource : Json)
    (call : WriteCall) : (settle service operation resource call).FailsOnly Failure.IsNative := by
  have version (result : Json → BulkResult) : (do
      return result (← Action.ofExcept (Service.versionOf resource)) :
        Action References BulkResult).FailsOnly Failure.IsNative :=
    .bind (.ofExcept (Service.failsOnly_versionOf resource).native) fun _ _ _ _ => .pure _
  cases call with
  | create data =>
      refine .bind (.ofExcept (resource.failsOnly_attrOf "id").native) fun _ id _ _ => ?_
      exact .bind (native_record operation.bulkId id) fun _ _ _ _ => version _
  | replace id data expected | patch id data expected => exact version _
  | delete id expected => exact .pure _

theorem native_dispatch (native : ∀ named ∈ services, named.2.adapter.IsNative)
    (operation : BulkOperation) : (dispatch services operation).FailsOnly Failure.IsNative := by
  rintro ⟨state, references⟩
  rw [run_dispatch]
  cases planned : plan services references operation with
  | error failure => exact .error (native_plan services references operation failure planned)
  | ok call =>
      obtain ⟨service, call⟩ := call
      obtain ⟨named, member, rfl⟩ := (plan_eq_ok planned).1
      have called := Service.native_on (native named member) call state
      dsimp only
      generalize (call.on named.2).run state = ran at called ⊢
      obtain ⟨failure | resource, after⟩ := ran
      · exact .error (called failure rfl)
      · exact native_settle named.2 operation resource call references

theorem native_execute (services : Services σ) (options : ServiceOptions)
    {request : Except Failure BulkRequest} (native : FailsOnly Failure.IsNative request) :
    (execute services options request).FailsOnly Failure.IsNative := by
  have permitted : (do
      let request ← Action.ofExcept request
      let size := request.entries.length
      if options.maxBulkOperations < size then
        Action.refuse (.tooManyOperations
          s!"Bulk request has {size} operations; the maximum is {options.maxBulkOperations}")
      run services request : Action σ BulkBatch).FailsOnly Failure.IsNative := by
    refine .bind (.ofExcept native) fun _ request _ _ => ?_
    exact .checked (.ofExcept (.refuse_of _ _)) (.of_ok fun _ => ⟨_, rfl⟩)
  exact .checked (.ofExcept (.error (.server 501 _ (by decide)))) permitted

end BulkBatch

/-! ## Reconciliations -/

namespace Reconciliation

variable {source target : Service σ}

theorem native_page {service : Service σ} (native : service.adapter.IsNative) (spec : QuerySpec)
    (size start : Int) : (Walk.page service spec size start).FailsOnly Failure.IsNative :=
  Service.native_list native _

theorem native_allIds (native : target.adapter.IsNative) (size : Int) (budget : Nat) :
    (allIds target size budget).FailsOnly Failure.IsNative := by
  rw [allIds_eq]
  refine .yielding (Walk.failsOnly_pages (fun _ => Failure.IsFault.isNative) ?_ ?_ budget) []
  · exact native_page (native.zoom .first) { attributes := ["id"] } size
  · intro part
    refine .bind (.of_ok fun _ => ⟨_, rfl⟩) fun _ state _ _ => ?_
    refine .bind (.ofExcept (failsOnly_insertAll state.2 part).native) fun _ ids _ _ => ?_
    exact .change _

theorem native_copyAll (native : target.adapter.IsNative) (before : IdSet) (resources : List Json) :
    (copyAll target before resources).FailsOnly Failure.IsNative := by
  induction resources with
  | nil => exact .pure ()
  | cons resource rest ih =>
      refine .bind ?_ fun _ _ _ _ => ih
      refine .bind (.ofExcept (resource.failsOnly_attrOf "id").native) fun _ id _ _ => ?_
      split
      · exact .change _
      split
      · exact .ofExcept (.native (.failWith _))
      split
      · exact .bind (.zoom (Service.native_replace native _ _ _) _) fun _ _ _ _ => .change _
      · exact .bind (.zoom (Service.native_create native _) _) fun _ _ _ _ => .change _

theorem native_deleteAll (native : target.adapter.IsNative) (ids : List Json) :
    (deleteAll target ids).FailsOnly Failure.IsNative := by
  induction ids with
  | nil => exact .pure ()
  | cons id rest ih =>
      refine .bind (.zoom (native.delete id .null) .first) fun _ _ _ _ => ?_
      exact .bind (.change _) fun _ _ _ _ => ih

theorem native_deleteOrphans (native : target.adapter.IsNative) (before : IdSet) :
    (deleteOrphans target before).FailsOnly Failure.IsNative := by
  refine .bind (.of_ok fun _ => ⟨_, rfl⟩) fun _ state _ _ => ?_
  exact .bind (.ofExcept (IdSet.failsOnly_sorted _).native) fun _ orphans _ _ =>
    native_deleteAll native orphans

theorem native_run (sourceNative : source.adapter.IsNative) (native : target.adapter.IsNative)
    (size : Int) (orphans : Bool) (budget : Nat) :
    (run source target size orphans budget).FailsOnly Failure.IsNative := by
  rw [run_eq_yielding]
  refine .bind (native_allIds native size budget) fun _ before _ _ => ?_
  refine .yielding (.bind ?_ fun _ _ _ _ => ?_) _
  · refine Walk.failsOnly_pages (fun _ => Failure.IsFault.isNative) ?_ ?_ budget
    · exact native_page (sourceNative.zoom .first) {} size
    · exact native_copyAll native before
  · split
    · exact native_deleteOrphans native before
    · exact .pure ()

end Reconciliation

/-! ## What the engine raises -/

/-- Whether the resources of a service are in a memory store, in a part of the state. -/
def Service.InMemory (service : Service σ) : Prop :=
  ∃ slot : Slot σ MemoryState, service.adapter = MemoryStore.adapter.zoom slot

theorem Service.InMemory.native {service : Service σ} (inMemory : service.InMemory) :
    service.adapter.IsNative := by
  obtain ⟨slot, adapter⟩ := inMemory
  rw [adapter]
  exact MemoryStore.native_adapter.zoom slot

/-- The outcomes of what the engine offers on resources in memory.  What a server refuses is relayed
and not raised by the engine itself; it is left to `survives_ofResponse_iff`. -/
inductive Offered : {α : Type} → Except Failure α → Prop where
  | filter (text : String) : Offered (Filter.parse text)
  | holds (filter : Filter) (resource : Json) (schema : Option ResourceSchema) :
      Offered (filter.holds resource schema)
  | path (text : String) : Offered (PathOf.parse text)
  | locations (resource : Json) (path : AttributePath) (schema : Option ResourceSchema) :
      Offered (resolveRequired resource path schema)
  | values (resource : Json) (path : AttributePath) (schema : Option ResourceSchema) :
      Offered (resolveValues resource path schema)
  | operation (data : Json) (index : Int) : Offered (PatchOperation.ofJson data index)
  | operations (request : Json) : Offered (PatchOperation.ofRequest request)
  | change (resource : Json) (entries : List PatchEntry) (schema : Option ResourceSchema) :
      Offered (resource.applyPatch entries schema)
  | parameters (params : Members) : Offered (QuerySpec.ofParams params)
  | sort (resources : List Json) (sortBy : String) (order : SortOrder)
      (schema : Option ResourceSchema) : Offered (sortResources resources sortBy order schema)
  | project (resource : Json) (attributes excluded : List String)
      (schema : Option ResourceSchema) : Offered (resource.project attributes excluded schema)
  | complete (listing : Listing) (spec : QuerySpec) (schema : Option ResourceSchema) :
      Offered (listing.complete spec schema)
  | store (keepMeta : Bool) (resource : Json) (state : MemoryState) :
      Offered ((MemoryStore.create keepMeta resource).run state).1
  | load (resources : List Json) (state : MemoryState) :
      Offered ((MemoryStore.load resources).run state).1
  | fetch (id : Json) (state : MemoryState) : Offered ((MemoryStore.adapter.read id).run state).1
  | overwrite (id resource version : Json) (state : MemoryState) :
      Offered ((MemoryStore.adapter.replace id resource version).run state).1
  | erase (id version : Json) (state : MemoryState) :
      Offered ((MemoryStore.adapter.delete id version).run state).1
  | get {σ : Type} {service : Service σ} (inMemory : service.InMemory) (id : Json)
      (attributes excluded : List String) (state : σ) :
      Offered ((service.get id attributes excluded).run state).1
  | list {σ : Type} {service : Service σ} (inMemory : service.InMemory) (spec : QuerySpec)
      (state : σ) : Offered ((service.list spec).run state).1
  | create {σ : Type} {service : Service σ} (inMemory : service.InMemory) (resource : Json)
      (state : σ) : Offered ((service.create resource).run state).1
  | replace {σ : Type} {service : Service σ} (inMemory : service.InMemory)
      (id resource version : Json) (state : σ) :
      Offered ((service.replace id resource version).run state).1
  | patch {σ : Type} {service : Service σ} (inMemory : service.InMemory)
      (id request version : Json) (state : σ) :
      Offered ((service.patch id request version).run state).1
  | delete {σ : Type} {service : Service σ} (inMemory : service.InMemory) (id version : Json)
      (state : σ) : Offered ((service.delete id version).run state).1
  | bulkOperation (data : Json) (index : Int) : Offered (BulkOperation.ofJson data index)
  | bulkRequest (body : Json) : Offered (BulkRequest.ofJson body)
  | dispatch {σ : Type} {services : BulkBatch.Services σ}
      (inMemory : ∀ named ∈ services, named.2.InMemory) (operation : BulkOperation)
      (state : σ × References) : Offered ((BulkBatch.dispatch services operation).run state).1
  | batch {σ : Type} (services : BulkBatch.Services σ) (options : ServiceOptions) (body : Json)
      (state : σ) :
      Offered ((BulkBatch.execute services options (BulkRequest.ofJson body)).run state).1
  | readBatch {σ : Type} (services : BulkBatch.Services σ) (options : ServiceOptions)
      (request : BulkRequest) (state : σ) :
      Offered ((BulkBatch.execute services options (.ok request)).run state).1
  | reconcile {σ : Type} {source target : Service σ} (sourceInMemory : source.InMemory)
      (inMemory : target.InMemory) (size : Int) (orphans : Bool) (budget : Nat) (state : σ) :
      Offered ((Reconciliation.run source target size orphans budget).run state).1

/-- What the engine offers refuses with errors that the engine composes. -/
theorem Offered.native {outcome : Except Failure α} (offered : Offered outcome) :
    FailsOnly Failure.IsNative outcome := by
  cases offered with
  | filter text => exact Filter.native_parse text
  | holds filter resource schema => exact (filter.failsOnly_eval _ resource).fault.native
  | path text => exact PathOf.native_parse text
  | locations resource path schema => exact native_resolveRequired resource path schema
  | values resource path schema => exact native_resolveValues resource path schema
  | operation data index => exact PatchOperation.native_ofJson data index
  | operations request => exact PatchOperation.native_ofRequest request
  | change resource entries schema => exact Json.native_applyPatch entries schema resource
  | parameters params => exact QuerySpec.native_ofParams params
  | sort resources sortBy order schema => exact native_sortOn _ resources sortBy order schema
  | project resource attributes excluded schema =>
      exact resource.native_project attributes excluded schema
  | complete listing spec schema => exact listing.native_complete spec schema
  | store keepMeta resource state => exact MemoryStore.native_create keepMeta resource state
  | load resources state => exact MemoryStore.native_load resources state
  | fetch id state => exact MemoryStore.native_adapter.read id state
  | overwrite id resource version state =>
      exact MemoryStore.native_adapter.replace id resource version state
  | erase id version state => exact MemoryStore.native_adapter.delete id version state
  | get inMemory id attributes excluded state =>
      exact Service.native_get inMemory.native id attributes excluded state
  | list inMemory spec state => exact Service.native_list inMemory.native spec state
  | create inMemory resource state => exact Service.native_create inMemory.native resource state
  | replace inMemory id resource version state =>
      exact Service.native_replace inMemory.native id resource version state
  | patch inMemory id request version state =>
      exact Service.native_patch inMemory.native id request version state
  | delete inMemory id version state =>
      exact Service.native_delete inMemory.native id version state
  | bulkOperation data index => exact BulkOperation.native_ofJson data index
  | bulkRequest body => exact BulkRequest.native_ofJson body
  | dispatch inMemory operation state =>
      exact BulkBatch.native_dispatch (fun named held => (inMemory named held).native) operation
        state
  | batch services options body state =>
      exact BulkBatch.native_execute services options (BulkRequest.native_ofJson body) state
  | readBatch services options request state =>
      exact BulkBatch.native_execute services options (.ok request) state
  | reconcile sourceInMemory inMemory size orphans budget state =>
      exact Reconciliation.native_run sourceInMemory.native inMemory.native size orphans budget
        state

namespace ScimError

/-- Whether the engine raises an error. -/
def Raised (error : ScimError) : Prop :=
  ∃ (α : Type) (outcome : Except Failure α), Offered outcome ∧ outcome = .error (.scim error)

/-- A response is mapped to an error with its status, unless a kind would have to be looked up by
an array or an object.  The message of whatever the engine raises with a text for people is mapped
back to an error with the same message, and so is that of what a response was mapped to, unless the
response tells of a conflict with a void keyword. -/
theorem mapped_and_survives (status : Int) (body : Json) (error : ScimError) :
    (Mapped status body ↔ ¬ Unclassifiable status body) ∧
      (error.Raised → error.detail ≠ "" → error.Survives) ∧
      (ofResponse status body = .ok error → (error.Survives ↔ ¬ VoidConflict status body)) := by
  refine ⟨mapped_iff status body, ?_, survives_ofResponse_iff⟩
  rintro ⟨α, outcome, offered, rfl⟩ stated
  exact Native.survives (offered.native _ rfl) stated

/-- The refusal of an empty filter. -/
def emptyFilter : ScimError := .invalidFilter "Empty filter" (some 0) ""

theorem mapped_and_survives_emptyFilter :
    emptyFilter.Raised ∧ emptyFilter.detail ≠ "" ∧ emptyFilter.Survives := by
  have raised : emptyFilter.Raised := ⟨Filter, _, .filter "", rfl⟩
  have stated : emptyFilter.detail ≠ "" := by decide
  exact ⟨raised, stated, (mapped_and_survives 400 .null emptyFilter).2.1 raised stated⟩

/-- A response of status 400 whose keyword is an array is not mapped. -/
theorem not_mapped_array : ¬ Mapped 400 (.obj [("scimType", .arr [])]) := by
  rintro ⟨error, mapped, _⟩
  cases mapped

end ScimError

end Scim
