import Mathlib.Order.Bounds.Basic
import Mathlib.Tactic.SplitIfs
import Scim.Cli.Run
import Scim.Proofs.Bulk.Calls

/-!
# Where a bulk request stops

A bulk request runs its operations one after another until as many have failed as it
allows.  The others are canceled and leave no trace in the storage.
-/

namespace Scim.BulkBatch

variable {σ : Type}

/-- Runs entries in their places from an index on, whatever fails. -/
def runAll (services : Services σ) (index : Nat) (entries : List BulkEntry) :
    StateM (σ × References) (List BulkResult) :=
  (entries.zipIdx index).mapM fun (entry, place) => runEntry services place entry

theorem runAll_cons (services : Services σ) (index : Nat) (entry : BulkEntry)
    (rest : List BulkEntry) (state : σ × References) :
    (runAll services index (entry :: rest)).run state =
      let (result, middle) := (runEntry services index entry).run state
      let (others, after) := (runAll services (index + 1) rest).run middle
      (result :: others, after) := by
  rw [runAll, List.zipIdx_cons, List.mapM_cons]
  rfl

/-- What the operation in some place does when its turn comes: it is run on what those
before it left behind, and its result is the one in that place. -/
theorem runAll_at (services : Services σ) (index : Nat) {entries : List BulkEntry} {place : Nat}
    {entry : BulkEntry} (found : entries[place]? = some entry) (state : σ × References) :
    let before := (runAll services index (entries.take place)).run state
    let here := (runEntry services (index + place) entry).run before.2
    let whole := (runAll services index entries).run state
    whole.1.take place = before.1 ∧ whole.1[place]? = some here.1 ∧
      ((runAll services index (entries.take (place + 1))).run state).2 = here.2 := by
  induction entries generalizing index place state with
  | nil => cases found
  | cons first rest ih =>
      cases place with
      | zero =>
          cases found
          rw [runAll_cons]
          exact ⟨rfl, rfl, rfl⟩
      | succ place =>
          obtain ⟨leading, result, after⟩ :=
            ih (index + 1) found ((runEntry services index first).run state).2
          rw [Nat.add_right_comm, Nat.add_assoc] at result after
          simp only [List.take_succ_cons, runAll_cons]
          exact ⟨congrArg _ leading, result, after⟩

/-- What the leading operations of a batch leave behind. -/
def stateAfter (services : Services σ) (entries : List BulkEntry) (state : σ) (count : Nat) :
    σ × References :=
  ((runAll services 0 (entries.take count)).run (state, [])).2

/-- How many of some results have the status of an error. -/
def errors (results : List BulkResult) : Nat :=
  results.countP fun result => decide (400 ≤ result.status)

/-- After how many operations a request stops: the least number of leading operations
of which exactly as many failed as the limit says, or all of them if there is no limit
or no such number. -/
inductive StopsAfter (limit : Option Int) (results : List BulkResult) : Nat → Prop where
  | limit (allowed : Int) (count : Nat) (limited : limit = some allowed)
      (least : IsLeast {c : Nat | c ≤ results.length ∧ errors (results.take c) = allowed} count) :
      StopsAfter limit results count
  | never (below : ∀ allowed, limit = some allowed →
      ∀ c ≤ results.length, (errors (results.take c) : Int) ≠ allowed) :
      StopsAfter limit results results.length

theorem errors_cons (result : BulkResult) (results : List BulkResult) :
    errors (result :: results) = (if 400 ≤ result.status then 1 else 0) + errors results := by
  rw [errors, List.countP_cons, Nat.add_comm]
  simp [errors]

/-! ## A run under a limit -/

/-- How a run under a limit went: `count` leading entries were run, none of them with the
limit reached before it, and the others were canceled. -/
structure Stopped (services : Services σ) (limit : Option Int) (index failures : Nat)
    (entries : List BulkEntry) (state : σ × References) (count : Nat) (ran : List BulkResult)
    (after : σ × References) : Prop where
  count_le : count ≤ entries.length
  leading : (runAll services index (entries.take count)).run state = (ran, after)
  results : (runEntries services limit index failures entries).run state =
    (ran ++ (entries.drop count).map canceled, after)
  length_eq : ran.length = count
  not_canceled : ∀ result ∈ ran, result.canceled = false
  unreached : ∀ c < count, reached limit (failures + errors (ran.take c)) = false
  full : count = entries.length ∨ reached limit (failures + errors ran) = true

section

variable {services : Services σ} {limit : Option Int} {index failures : Nat} {entry : BulkEntry}
  {rest : List BulkEntry} {state middle after : σ × References} {result : BulkResult}
  {count : Nat} {ran : List BulkResult}

/-- The limit stops a run before its first entry. -/
theorem Stopped.start (full : rest = [] ∨ reached limit failures = true) :
    Stopped services limit index failures rest state 0 [] state where
  count_le := Nat.zero_le _
  leading := rfl
  results := by
    cases rest with
    | nil => rfl
    | cons entry rest =>
        rw [runEntries, if_pos (full.resolve_left (List.cons_ne_nil entry rest))]
        rfl
  length_eq := rfl
  not_canceled result member := by cases member
  unreached c less := by cases less
  full := by
    refine full.imp ?_ id
    rintro rfl
    rfl

/-- A run goes on behind its first entry, whose failure counts. -/
theorem Stopped.cons (first : (runEntry services index entry).run state = (result, middle))
    (below : reached limit failures = false)
    (others : Stopped services limit (index + 1) (failures + errors [result]) rest middle count ran
      after) :
    Stopped services limit index failures (entry :: rest) state (count + 1) (result :: ran)
      after where
  count_le := Nat.succ_le_succ others.count_le
  leading := by
    rw [List.take_succ_cons, runAll_cons, first]
    dsimp only
    rw [others.leading]
  results := by
    have counted : (if result.failed then failures + 1 else failures) =
        failures + errors [result] := by
      rw [BulkResult.failed, not_canceled_of_run first, errors_cons]
      by_cases bad : 400 ≤ result.status <;> simp [bad, errors]
    have later := others.results
    rw [← counted] at later
    rw [runEntries, if_neg (by simp [below])]
    change (let (result, middle) := (runEntry services index entry).run state
      let (others, after) := (runEntries services limit (index + 1)
        (if result.failed then failures + 1 else failures) rest).run middle
      (result :: others, after)) = _
    rw [first]
    dsimp only
    rw [later]
    rfl
  length_eq := congrArg (· + 1) others.length_eq
  not_canceled := by
    intro other member
    rcases List.mem_cons.mp member with rfl | member
    · exact not_canceled_of_run first
    · exact others.not_canceled other member
  unreached c less := by
    cases c with
    | zero => exact below
    | succ c =>
        have earlier := others.unreached c (Nat.lt_of_succ_lt_succ less)
        rw [List.take_succ_cons, errors_cons, ← Nat.add_assoc]
        rwa [errors_cons] at earlier
  full := by
    refine others.full.imp (congrArg (· + 1)) ?_
    intro enough
    rw [errors_cons, ← Nat.add_assoc]
    rwa [errors_cons] at enough

end

/-- A run stops somewhere. -/
theorem runEntries_stopped (services : Services σ) (limit : Option Int) (index failures : Nat)
    (entries : List BulkEntry) (state : σ × References) :
    ∃ count ran after, Stopped services limit index failures entries state count ran after := by
  induction entries generalizing index failures state with
  | nil => exact ⟨0, [], state, .start (.inl rfl)⟩
  | cons entry rest ih =>
      cases below : reached limit failures with
      | true => exact ⟨0, [], state, .start (.inr below)⟩
      | false =>
          let first := (runEntry services index entry).run state
          obtain ⟨count, ran, after, others⟩ :=
            ih (index + 1) (failures + errors [first.1]) first.2
          exact ⟨count + 1, first.1 :: ran, after, .cons rfl below others⟩

/-- Without a limit every entry is run. -/
theorem run_runEntries_none (services : Services σ) (index failures : Nat)
    (entries : List BulkEntry) (state : σ × References) :
    (runEntries services none index failures entries).run state =
      (runAll services index entries).run state := by
  obtain ⟨count, ran, after, stopped⟩ :=
    runEntries_stopped services none index failures entries state
  have all : count = entries.length := stopped.full.resolve_right Bool.false_ne_true
  have leading := stopped.leading
  rw [all, List.take_length] at leading
  rw [stopped.results, leading, all, List.drop_length, List.map_nil, List.append_nil]

/-! ## Where a run stops -/

theorem reached_some (allowed : Int) (failures : Nat) :
    reached (some allowed) failures = decide (allowed ≤ failures) := by
  simp [reached]

/-- One more operation is at most one more error. -/
theorem errors_le_errors_take {results : List BulkResult} {c : Nat}
    (length_eq : results.length = c + 1) : errors results ≤ errors (results.take c) + 1 := by
  have split : errors results = errors (results.take c) + errors (results.drop c) := by
    rw [errors, errors, errors, ← List.countP_append, List.take_append_drop]
  have last : errors (results.drop c) ≤ (results.drop c).length := List.countP_le_length
  rw [List.length_drop] at last
  omega

theorem Stopped.length_results {services : Services σ} {limit : Option Int} {index failures : Nat}
    {entries : List BulkEntry} {state after : σ × References} {count : Nat} {ran : List BulkResult}
    (stopped : Stopped services limit index failures entries state count ran after) :
    (ran ++ (entries.drop count).map canceled).length = entries.length := by
  rw [List.length_append, List.length_map, List.length_drop, stopped.length_eq]
  exact Nat.add_sub_cancel' stopped.count_le

theorem Stopped.take_results {services : Services σ} {limit : Option Int} {index failures : Nat}
    {entries : List BulkEntry} {state after : σ × References} {count : Nat} {ran : List BulkResult}
    (stopped : Stopped services limit index failures entries state count ran after) {c : Nat}
    (bound : c ≤ count) :
    (ran ++ (entries.drop count).map canceled).take c = ran.take c :=
  List.take_append_of_le_length (stopped.length_eq ▸ bound)

theorem canceled_canceled (entry : BulkEntry) : (canceled entry).canceled = true := rfl

/-- The canceled results are those behind the place where a run stops. -/
theorem Stopped.canceled_iff {services : Services σ} {limit : Option Int} {index failures : Nat}
    {entries : List BulkEntry} {state after : σ × References} {count : Nat} {ran : List BulkResult}
    (stopped : Stopped services limit index failures entries state count ran after) {place : Nat}
    {result : BulkResult}
    (found : (ran ++ (entries.drop count).map canceled)[place]? = some result) :
    result.canceled = true ↔ count ≤ place := by
  rw [← stopped.length_eq]
  rcases Nat.lt_or_ge place ran.length with less | behind
  · rw [List.getElem?_append_left less] at found
    rw [stopped.not_canceled result (List.mem_of_getElem? found)]
    simp [less]
  · rw [List.getElem?_append_right behind, List.getElem?_map, Option.map_eq_some_iff] at found
    obtain ⟨entry, _, rfl⟩ := found
    simp [canceled_canceled, behind]

/-- The result in the place of an operation that was run is what the operation came to. -/
theorem Stopped.run_at {services : Services σ} {limit : Option Int} {entries : List BulkEntry}
    {state : σ} {after : σ × References} {count : Nat} {ran : List BulkResult}
    (stopped : Stopped services limit 0 0 entries (state, []) count ran after) {place : Nat}
    (less : place < count) {entry : BulkEntry} (found : entries[place]? = some entry) :
    (ran ++ (entries.drop count).map canceled)[place]? =
        some ((runEntry services place entry).run (stateAfter services entries state place)).1 ∧
      stateAfter services entries state (place + 1) =
        ((runEntry services place entry).run (stateAfter services entries state place)).2 := by
  have here : (entries.take count)[place]? = some entry := by
    rw [List.getElem?_take_of_lt less, found]
  obtain ⟨_, result, behind⟩ := runAll_at services 0 here (state, [])
  simp only [List.take_take, Nat.min_eq_left less, Nat.min_eq_left less.le,
    Nat.zero_add] at result behind
  rw [stopped.leading] at result
  rw [List.getElem?_append_left (stopped.length_eq ▸ less)]
  exact ⟨result, behind⟩

/-- The results that are not canceled are those of the operations that were run. -/
theorem Stopped.filter_results {services : Services σ} {limit : Option Int} {index failures : Nat}
    {entries : List BulkEntry} {state after : σ × References} {count : Nat} {ran : List BulkResult}
    (stopped : Stopped services limit index failures entries state count ran after) :
    (ran ++ (entries.drop count).map canceled).filter (!·.canceled) = ran := by
  have kept : ran.filter (!·.canceled) = ran := by
    apply List.filter_eq_self.mpr
    intro result member
    rw [stopped.not_canceled result member]
    rfl
  have dropped : ((entries.drop count).map canceled).filter (!·.canceled) = [] := by
    apply List.filter_eq_nil_iff.mpr
    intro result member
    obtain ⟨entry, _, rfl⟩ := List.mem_map.mp member
    simp [canceled_canceled]
  rw [List.filter_append, kept, dropped, List.append_nil]

/-- A run stops where the errors among its results reach the limit. -/
theorem Stopped.stopsAfter {services : Services σ} {limit : Option Int}
    {entries : List BulkEntry} {state after : σ × References} {count : Nat} {ran : List BulkResult}
    (stopped : Stopped services limit 0 0 entries state count ran after)
    (sensible : ∀ allowed, limit = some allowed → 0 ≤ allowed) :
    StopsAfter limit (ran ++ (entries.drop count).map canceled) count := by
  have below (allowed : Int) (limited : limit = some allowed) (c : Nat) (less : c < count) :
      (errors ((ran ++ (entries.drop count).map canceled).take c) : Int) < allowed := by
    have unreached := stopped.unreached c less
    rw [stopped.take_results (Nat.le_of_lt less)]
    simpa [limited, reached_some] using unreached
  have whole : (ran ++ (entries.drop count).map canceled).take count = ran := by
    rw [stopped.take_results le_rfl, List.take_of_length_le stopped.length_eq.le]
  by_cases enough : reached limit (0 + errors ran) = true
  · obtain ⟨allowed, limited⟩ : ∃ allowed, limit = some allowed := by
      cases limit with
      | none => cases enough
      | some allowed => exact ⟨allowed, rfl⟩
    have nonneg := sensible allowed limited
    have atLeast : allowed ≤ errors ran := by
      simpa [limited, reached_some] using enough
    have atMost : (errors ran : Int) ≤ allowed := by
      cases count with
      | zero =>
          have none : ran = [] := List.eq_nil_of_length_eq_zero stopped.length_eq
          simpa [none, errors] using nonneg
      | succ c =>
          have before := below allowed limited c (Nat.lt_succ_self c)
          have step := errors_le_errors_take stopped.length_eq
          rw [stopped.take_results (Nat.le_succ c)] at before
          omega
    refine .limit allowed count limited ⟨⟨?_, ?_⟩, ?_⟩
    · rw [stopped.length_results]
      exact stopped.count_le
    · rw [whole]
      exact le_antisymm atMost atLeast
    · rintro c ⟨_, exactly⟩
      by_contra less
      have before := below allowed limited c (not_le.mp less)
      omega
  · have all : count = entries.length := stopped.full.resolve_right enough
    have none : ∀ allowed, limit = some allowed →
        ∀ c ≤ (ran ++ (entries.drop count).map canceled).length,
          (errors ((ran ++ (entries.drop count).map canceled).take c) : Int) ≠ allowed := by
      intro allowed limited c bound
      rw [stopped.length_results, ← all] at bound
      rcases Nat.lt_or_eq_of_le bound with less | rfl
      · exact (below allowed limited c less).ne
      · rw [whole]
        simp only [limited, Nat.zero_add, reached_some, decide_eq_true_eq] at enough
        omega
    have stops := StopsAfter.never none
    rwa [stopped.length_results, ← all] at stops

/-! ## Requests as they are read -/

/-- A request that was read has unread entries and a limit that was read. -/
theorem ofJson_eq_ok {body : Json} {request : BulkRequest}
    (accepted : BulkRequest.ofJson body = .ok request) :
    (∃ operations : List Json, request.entries = operations.map .data) ∧
      ∃ value, BulkRequest.readLimit value = .ok request.failOnErrors := by
  cases body with
  | obj members =>
      rw [BulkRequest.ofJson] at accepted
      split_ifs at accepted with undeclared
      · cases accepted
      · split at accepted
        · next operations _ =>
            rw [bind_eq_ok_iff] at accepted
            obtain ⟨limit, read, done⟩ := accepted
            cases done
            exact ⟨⟨operations, rfl⟩, _, read⟩
        · cases accepted
  | _ => cases accepted

/-- The message body of a bulk request. -/
def requestBody (operations : List Json) (limit : Json := .null) : Json :=
  .obj [("schemas", .arr [.str bulkRequestUrn]), ("Operations", .arr operations),
    ("failOnErrors", limit)]

/-- A request is accepted whatever its operations are. -/
theorem ofJson_requestBody (operations : List Json) {limit : Json} {failOnErrors : Option Int}
    (read : BulkRequest.readLimit limit = .ok failOnErrors) :
    BulkRequest.ofJson (requestBody operations limit) =
      .ok ⟨operations.map .data, failOnErrors⟩ := by
  have declared : Json.containedIn (.str bulkRequestUrn) [.str bulkRequestUrn] = true := by
    simp [Json.containedIn, Json.same]
  have listed : Members.key? [("schemas", Json.arr [.str bulkRequestUrn]),
      ("Operations", .arr operations), ("failOnErrors", limit)] "Operations" =
        some "Operations" := by
    simp [Members.key?]
  have limited : Members.key? [("schemas", Json.arr [.str bulkRequestUrn]),
      ("Operations", .arr operations), ("failOnErrors", limit)] "failOnErrors" =
        some "failOnErrors" := by
    simp [Members.key?]
  simp [BulkRequest.ofJson, requestBody, declared, Members.attr, Members.attr?, listed, limited,
    read, bind, Except.bind, pure, Except.pure]

/-- A limit that was read is not negative. -/
theorem nonneg_of_readLimit {value : Json} {allowed : Int}
    (read : BulkRequest.readLimit value = .ok (some allowed)) : 0 ≤ allowed := by
  cases value with
  | int n =>
      simp only [BulkRequest.readLimit] at read
      split at read
      · cases read
      · split at read
        · cases read
        · cases read
          omega
  | _ => cases read

/-- A request that the options permit is run from no references on. -/
theorem run_execute (services : Services σ) {options : ServiceOptions} {request : BulkRequest}
    (enabled : options.bulkEnabled = true)
    (within : request.entries.length ≤ options.maxBulkOperations) (state : σ) :
    (execute services options (.ok request)).run state =
      let (results, after, references) :=
        (runEntries services request.failOnErrors 0 0 request.entries).run (state, [])
      (.ok { request, state := .completed, references, results }, after) := by
  have permitted : (execute services options (.ok request)).run state =
      (run services request).run state := by
    simp [execute, enabled, Action.run_bind, Int.not_lt.mpr within]
  exact permitted

/-- A request that is accepted runs until it stops. -/
theorem execute_stopped (services : Services σ) {options : ServiceOptions} {body : Json}
    {request : BulkRequest} (accepted : BulkRequest.ofJson body = .ok request)
    (enabled : options.bulkEnabled = true)
    (within : request.entries.length ≤ options.maxBulkOperations) (state : σ) :
    ∃ count ran after references,
      Stopped services request.failOnErrors 0 0 request.entries (state, []) count ran
        (after, references) ∧
      (execute services options (BulkRequest.ofJson body)).run state =
        (.ok ⟨request, .completed, references, ran ++ (request.entries.drop count).map canceled⟩,
          after) := by
  obtain ⟨count, ran, ⟨after, references⟩, stopped⟩ :=
    runEntries_stopped services request.failOnErrors 0 0 request.entries (state, [])
  refine ⟨count, ran, after, references, stopped, ?_⟩
  rw [accepted, run_execute services enabled within, stopped.results]

/-- A request without a limit runs all its operations. -/
theorem execute_unlimited (services : Services σ) {options : ServiceOptions} {body : Json}
    {request : BulkRequest} (accepted : BulkRequest.ofJson body = .ok request)
    (enabled : options.bulkEnabled = true)
    (within : request.entries.length ≤ options.maxBulkOperations)
    (unlimited : request.failOnErrors = none) (state : σ) :
    (execute services options (BulkRequest.ofJson body)).run state =
      let (results, after, references) := (runAll services 0 request.entries).run (state, [])
      (.ok { request, state := .completed, references, results }, after) := by
  rw [accepted, run_execute services enabled within, unlimited, run_runEntries_none]

/-- A request that is accepted stops where its failures reach its limit.  Each of its
operations has a result in its place.  Those before the stop were run one after another,
and they alone made the state and the response; those behind it were canceled. -/
theorem execute_stops (services : Services σ) (options : ServiceOptions) (body : Json)
    (request : BulkRequest) (accepted : BulkRequest.ofJson body = .ok request)
    (enabled : options.bulkEnabled = true)
    (within : request.entries.length ≤ options.maxBulkOperations) (state : σ) :
    ∃ batch after count,
      (execute services options (BulkRequest.ofJson body)).run state = (.ok batch, after) ∧
      batch.results.length = request.entries.length ∧
      StopsAfter request.failOnErrors batch.results count ∧
      (∀ place result, batch.results[place]? = some result →
        (result.canceled = true ↔ count ≤ place)) ∧
      (runAll services 0 (request.entries.take count)).run (state, []) =
        (batch.results.take count, after, batch.references) ∧
      batch.results.drop count = (request.entries.drop count).map canceled ∧
      BulkResult.responseBody batch.results =
        [("schemas", .arr [.str bulkResponseUrn]),
          ("Operations", .arr ((batch.results.take count).map fun result =>
            .obj result.toMembers))] := by
  obtain ⟨count, ran, after, references, stopped, executed⟩ :=
    execute_stopped services accepted enabled within state
  have whole : (ran ++ (request.entries.drop count).map canceled).take count = ran := by
    rw [stopped.take_results le_rfl, List.take_of_length_le stopped.length_eq.le]
  have rest : (ran ++ (request.entries.drop count).map canceled).drop count =
      (request.entries.drop count).map canceled :=
    List.drop_left' stopped.length_eq
  refine ⟨_, after, count, executed, stopped.length_results, ?_, ?_, ?_, rest, ?_⟩
  · apply stopped.stopsAfter
    intro allowed limited
    obtain ⟨value, read⟩ := (ofJson_eq_ok accepted).2
    rw [limited] at read
    exact nonneg_of_readLimit read
  · intro place result found
    exact stopped.canceled_iff found
  · dsimp only
    rw [whole]
    exact stopped.leading
  · rw [BulkResult.responseBody, stopped.filter_results, whole]

/-- The services of the command line. -/
def cliServices (options : ServiceOptions) : Services (Pool Cli.Endpoint) :=
  [Cli.Endpoint.users, .groups].map fun endpoint => (endpoint.name, endpoint.service options)

/-- An operation that creates a user. -/
def postUser (bulkId : Json) (userName : String) : Json :=
  .obj [("method", .str "POST"), ("path", .str "/Users"), ("bulkId", bulkId),
    ("data", .obj [("userName", .str userName)])]

/-- A request that one failure stops, with an operation that is none between two
creations. -/
theorem execute_stops_malformed :
    let operations := [postUser (.str "a") "ann", .null, postUser (.str "b") "bob"]
    BulkRequest.ofJson (requestBody operations (.int 1)) = .ok ⟨operations.map .data, some 1⟩ ∧
      ((operations.map BulkEntry.data).length : Int) ≤ ({} : ServiceOptions).maxBulkOperations ∧
      ∃ batch after count,
        (execute (cliServices {}) {} (BulkRequest.ofJson (requestBody operations (.int 1)))).run
          (Cli.emptyPool (.startingOn ⟨2024, 1, 1⟩ 1) "") = (.ok batch, after) ∧
        StopsAfter (some 1) batch.results count := by
  intro operations
  have accepted : BulkRequest.ofJson (requestBody operations (.int 1)) =
      .ok ⟨operations.map .data, some 1⟩ := ofJson_requestBody operations rfl
  obtain ⟨batch, after, count, executed, _, stops, _⟩ :=
    execute_stops (cliServices {}) {} _ _ accepted rfl (by decide)
      (Cli.emptyPool (.startingOn ⟨2024, 1, 1⟩ 1) "")
  exact ⟨accepted, by decide, batch, after, count, executed, stops⟩

end Scim.BulkBatch
