import Scim.Proofs.Bulk.Settling
import Scim.Proofs.Bulk.Stopping

/-!
# Traces of failed operations

An operation of a bulk request that fails leaves the storage as it was, with one
exception.  A resource is stored before it is recorded under its bulk id, and an array or
an object cannot be recorded under.  The creation under such a bulk id is reported as a
failure although the resource is there.
-/

namespace Scim

/-- Pools whose stores hold the same resources. -/
def Pool.SameEntries {ι : Type} (before after : Pool ι) : Prop :=
  ∀ i, (after.store i).entries = (before.store i).entries

namespace BulkBatch

variable {ι : Type} [DecidableEq ι] {services : Services (Pool ι)}

/-- Whether an entry creates a resource that cannot be recorded under its bulk id. -/
def CreatesUnrecorded (services : Services (Pool ι)) (index : Nat) (entry : BulkEntry)
    (state : Pool ι × References) : Prop :=
  ∃ operation service call resource after, entry.read index = .ok operation ∧
    operation.method = .post ∧ ¬ Recordable operation.bulkId ∧
    plan services state.2 operation = .ok (service, call) ∧
    (call.on service).run state.1 = (.ok resource, after)

/-- A resource that is put under a free id shows in its store. -/
theorem entries_put_ne {store : MemoryStore} {id : Json} (key : id.isKey = true)
    (free : store.find? id = none) (stored : Members) :
    (store.stamped.put id stored).entries ≠ store.entries := by
  intro same
  have found : (store.stamped.put id stored).find? id = some stored := by
    rw [MemoryStore.find?_put _ key key, if_pos (Json.same_refl_of_isKey key)]
  rw [MemoryStore.find?, same, ← MemoryStore.find?, free] at found
  cases found

theorem sameEntries_of_failed {pool after : Pool ι} {call : WriteCall} {failure : Failure} {i : ι}
    {store : MemoryStore} (wrote : Service.Wrote (pool.store i) call (.error failure) store)
    (stores : after.store = Pool.updated pool.store i store) : pool.SameEntries after := by
  cases wrote
  rw [Pool.updated_get] at stores
  intro j
  rw [stores]

theorem not_sameEntries_of_created {pool after : Pool ι} {data resource : Json} {i : ι}
    {store : MemoryStore} (wrote : Service.Wrote (pool.store i) (.create data) (.ok resource) store)
    (stores : after.store = Pool.updated pool.store i store) : ¬ pool.SameEntries after := by
  intro same
  cases wrote with
  | created _ id stored shown key notNull free named =>
      have here := same i
      rw [stores, Pool.updated_self] at here
      exact entries_put_ne key free stored here

/-- An entry that fails leaves all stores as they were exactly if it creates no resource
that cannot be recorded. -/
theorem failure_leaves_no_trace_iff (pooled : Pooled services) (index : Nat) (entry : BulkEntry)
    (pool : Pool ι) (references : References) :
    (400 ≤ ((runEntry services index entry).run (pool, references)).1.status →
        pool.SameEntries ((runEntry services index entry).run (pool, references)).2.1) ↔
      ¬ CreatesUnrecorded services index entry (pool, references) := by
  have came := runEntry_ran services index entry pool references
  generalize (runEntry services index entry).run (pool, references) = ran at came ⊢
  obtain ⟨result, after⟩ := ran
  dsimp only at came ⊢
  -- what the entry comes to decides both sides
  cases came with
  | malformed failure read =>
      refine iff_of_true (fun _ _ => rfl) ?_
      rintro ⟨operation, _, _, _, _, readable, _⟩
      rw [read] at readable
      cases readable
  | unplanned operation failure read planned =>
      refine iff_of_true (fun _ _ => rfl) ?_
      rintro ⟨_, _, _, _, _, readable, _, _, goes, _⟩
      rw [read] at readable
      cases readable
      rw [planned] at goes
      cases goes
  | failed operation service call failure after read planned called =>
      obtain ⟨i, store, wrote, stores⟩ := pooled.wrote planned called
      refine iff_of_true (fun _ => sameEntries_of_failed wrote stores) ?_
      rintro ⟨_, _, _, _, _, readable, _, _, goes, returned⟩
      rw [read] at readable
      cases readable
      rw [planned] at goes
      cases goes
      rw [called] at returned
      cases returned
  | unsettled operation service call resource failure after recorded read planned called settled =>
      obtain ⟨i, store, wrote, stores⟩ := pooled.wrote planned called
      obtain ⟨_, id, data, stands⟩ := plan_eq_ok planned
      have unfit : operation.method = .post ∧ ¬ Recordable operation.bulkId := by
        by_contra fit
        rw [not_and_not_right] at fit
        obtain ⟨_, _, fine⟩ := wrote.settles stands fit service references
        rw [settled] at fine
        cases fine
      obtain ⟨posted, rfl⟩ := (method_of_call stands).mp unfit.1
      have faulty : failure = .fault .wrongType := by
        cases wrote
        rw [run_settle_create_of_not_recordable service unfit.2] at settled
        cases settled
        rfl
      refine iff_of_false ?_ ?_
      · intro traceless
        subst faulty
        have bad : (400 : Int) ≤ internalError.status := by decide
        exact not_sameEntries_of_created wrote stores (traceless bad)
      · exact not_not_intro
          ⟨operation, service, _, resource, after, read, unfit.1, unfit.2, planned, called⟩
  | settled operation service call resource result after recorded read planned called settled =>
      obtain ⟨status, id, version, fine, rfl⟩ := settle_eq_ok settled
      refine iff_of_true (fun bad => absurd bad (not_le.mpr fine)) ?_
      rintro ⟨_, _, _, _, _, readable, posts, unfit, goes, _⟩
      rw [read] at readable
      cases readable
      obtain ⟨_, _, wrote, _⟩ := pooled.wrote planned called
      obtain ⟨_, _, _, stands⟩ := plan_eq_ok planned
      obtain ⟨_, rfl⟩ := (method_of_call stands).mp posts
      cases wrote
      rw [run_settle_create_of_not_recordable service unfit] at settled
      cases settled

/-- The operations of a request that fail leave all stores as they were exactly if none of
those that are run creates a resource that cannot be recorded. -/
theorem execute_failures_leave_no_trace_iff (services : Services (Pool ι))
    (pooled : Pooled services) (options : ServiceOptions) (body : Json) (request : BulkRequest)
    (accepted : BulkRequest.ofJson body = .ok request) (enabled : options.bulkEnabled = true)
    (within : request.entries.length ≤ options.maxBulkOperations) (pool : Pool ι) :
    ∃ batch after count,
      (execute services options (BulkRequest.ofJson body)).run pool = (.ok batch, after) ∧
      (runAll services 0 (request.entries.take count)).run (pool, []) =
        (batch.results.take count, after, batch.references) ∧
      ((∀ place result, batch.results[place]? = some result → 400 ≤ result.status →
          (stateAfter services request.entries pool place).1.SameEntries
            (stateAfter services request.entries pool (place + 1)).1) ↔
        ∀ place < count, ∀ entry, request.entries[place]? = some entry →
          ¬ CreatesUnrecorded services place entry
            (stateAfter services request.entries pool place)) := by
  obtain ⟨count, ran, after, references, stopped, executed⟩ :=
    execute_stopped services accepted enabled within pool
  have leading : (runAll services 0 (request.entries.take count)).run (pool, []) =
      ((ran ++ (request.entries.drop count).map canceled).take count, after, references) := by
    rw [stopped.leading, stopped.take_results le_rfl, List.take_of_length_le stopped.length_eq.le]
  refine ⟨_, after, count, executed, leading, ?_⟩
  constructor
  · intro traceless place less entry found
    obtain ⟨result, behind⟩ := stopped.run_at less found
    have here := traceless place _ result
    rw [behind] at here
    exact (failure_leaves_no_trace_iff pooled place entry _ _).mp here
  · intro recordable place result found bad
    rcases Nat.lt_or_ge place count with less | canceled
    · obtain ⟨entry, present⟩ : ∃ entry, request.entries[place]? = some entry :=
        ⟨_, List.getElem?_eq_getElem (lt_of_lt_of_le less stopped.count_le)⟩
      obtain ⟨same, behind⟩ := stopped.run_at less present
      rw [found, Option.some.injEq] at same
      rw [same] at bad
      rw [behind]
      exact (failure_leaves_no_trace_iff pooled place entry _ _).mpr
        (recordable place less entry present) bad
    · -- a canceled result has no status
      dsimp only at found
      rw [List.getElem?_append_right (stopped.length_eq.le.trans canceled), List.getElem?_map,
        Option.map_eq_some_iff] at found
      obtain ⟨entry, _, rfl⟩ := found
      have none : (400 : Int) ≤ 0 := bad
      exact absurd none (by decide)

/-- A creation under a text and one under an array. -/
theorem execute_failures_leave_no_trace_iff_posts :
    let operations := [postUser (.str "a") "ann", postUser (.arr [.str "b"]) "bob"]
    let request : BulkRequest := ⟨operations.map .data, none⟩
    let pool := Cli.emptyPool (.startingOn ⟨2024, 1, 1⟩ 1) ""
    BulkRequest.ofJson (requestBody operations) = .ok request ∧
      (request.entries.length : Int) ≤ ({} : ServiceOptions).maxBulkOperations ∧
      ∃ batch after count,
        (execute (cliServices {}) {} (BulkRequest.ofJson (requestBody operations))).run pool =
          (.ok batch, after) ∧
        ((∀ place result, batch.results[place]? = some result → 400 ≤ result.status →
            (stateAfter (cliServices {}) request.entries pool place).1.SameEntries
              (stateAfter (cliServices {}) request.entries pool (place + 1)).1) ↔
          ∀ place < count, ∀ entry, request.entries[place]? = some entry →
            ¬ CreatesUnrecorded (cliServices {}) place entry
              (stateAfter (cliServices {}) request.entries pool place)) := by
  intro operations request pool
  have accepted : BulkRequest.ofJson (requestBody operations) = .ok request :=
    ofJson_requestBody operations rfl
  obtain ⟨batch, after, count, executed, _, iff⟩ :=
    execute_failures_leave_no_trace_iff (cliServices {}) (cliServices_pooled {}) {} _ request
      accepted rfl (by decide) pool
  exact ⟨accepted, by decide, batch, after, count, executed, iff⟩

/-- A user is created under an array as bulk id.  The result states an error, and the user
is in the store. -/
theorem not_failures_leave_no_trace_array :
    let operations := [postUser (.arr [.str "x"]) "ann"]
    let pool := Cli.emptyPool (.startingOn ⟨2024, 1, 1⟩ 1) ""
    ¬ ∀ batch after,
      (execute (cliServices {}) {} (BulkRequest.ofJson (requestBody operations))).run pool =
        (.ok batch, after) →
      ∀ place result, batch.results[place]? = some result → 400 ≤ result.status →
        (stateAfter (cliServices {}) (operations.map .data) pool place).1.SameEntries
          (stateAfter (cliServices {}) (operations.map .data) pool (place + 1)).1 := by
  intro operations pool traceless
  have status : ((runAll (cliServices {}) 0 (operations.map .data)).run (pool, [])).1.map
      (·.status) = [500] := by decide +kernel
  have stored : ((stateAfter (cliServices {}) (operations.map .data) pool 1).1.store
      .users).entries.length = 1 := by decide +kernel
  have accepted : BulkRequest.ofJson (requestBody operations) = .ok ⟨operations.map .data, none⟩ :=
    ofJson_requestBody operations rfl
  have executed := execute_unlimited (cliServices {}) accepted
    (rfl : ({} : ServiceOptions).bulkEnabled = true) (by decide) rfl pool
  dsimp only at executed
  generalize (runAll (cliServices {}) 0 (operations.map .data)).run (pool, []) = ran
    at executed status
  obtain ⟨results, after, references⟩ := ran
  obtain ⟨result, rfl, failed⟩ := List.map_eq_singleton_iff.mp status
  have same := traceless _ _ executed 0 result rfl (by rw [failed]; decide) .users
  have empty : ((stateAfter (cliServices {}) (operations.map .data) pool 0).1.store
      .users).entries = [] := rfl
  rw [Nat.zero_add, empty] at same
  rw [same] at stored
  cases stored

end BulkBatch

end Scim
