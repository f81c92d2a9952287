import Scim.Proofs.Bulk.References
import Scim.Proofs.Bulk.Settling
import Scim.Proofs.Bulk.Stopping

/-!
# Bulk requests as sequences of calls

The operations of a bulk request do what the calls that they stand for do when they are
made one after another, with each reference replaced by the id of the resource that was
created last under its bulk id.  The sequence of calls keeps a history of creations; the
batch keeps one id for each bulk id.  The two agree because a bulk id that is a text finds
in both what was put there last.
-/

namespace Scim

open Members

/-- Created resources: the bulk ids they were created under and their ids, the last first. -/
abbrev Creations := List (String × Json)

/-- The id of the last resource that was created under a bulk id. -/
def Creations.last? (creations : Creations) (bulkId : String) : Option Json :=
  creations.lookup bulkId

/-- The creations with the resource that an operation returned, if it posted one under a
bulk id. -/
def Creations.behind (creations : Creations) (operation : BulkOperation) (resource : Json) :
    Creations :=
  match operation.method, operation.bulkId, resource with
  | .post, .str bulkId, .obj members => (bulkId, resourceId members) :: creations
  | _, _, _ => creations

namespace BulkBatch

variable {σ : Type}

/-! ## Calls one after another -/

/-- The texts of an operation that may be references: the id in its path and all those in
its data. -/
def referring (target : BulkTarget) (operation : BulkOperation) : List String :=
  target.id.toList ++ operation.data.texts

/-- The service that an operation goes to and the call that it stands for, with each
reference replaced by the id of the last resource that was created under its bulk id. -/
def directCall (services : Services σ) (creations : Creations) (operation : BulkOperation) :
    Except Failure (Service σ × WriteCall) := do
  let some target := BulkTarget.ofPath? operation.path
    | refuse (.invalidPath "Invalid bulk operation path" operation.path)
  let some service := service? services target.endpoint
    | refuse (.invalidPath "Unknown resource endpoint" operation.path)
  let replaced := References.replaced creations.last?
  let (id, data) ← References.unlessDangling creations.last? (referring target operation)
    (target.id.map replaced, operation.data.mapTexts replaced)
  return (service, ← operation.call id data)

/-- Makes the call that an entry stands for. -/
def runDirectly (services : Services σ) (index : Nat) (entry : BulkEntry) :
    Action (σ × Creations) Json := do
  let operation ← Action.ofExcept (entry.read index)
  let (_, creations) ← get
  let (service, call) ← Action.ofExcept (directCall services creations operation)
  let resource ← (call.on service).zoom .first
  modify fun (state, creations) => (state, creations.behind operation resource)
  return resource

/-- Makes the calls of entries in their places from an index on.  Each has an outcome. -/
def inTurn (services : Services σ) (index : Nat) (entries : List BulkEntry) :
    StateM (σ × Creations) (List (Except Failure Json)) :=
  (entries.zipIdx index).mapM fun (entry, place) state => (runDirectly services place entry).run state

/-- A result tells what a call came to: the resource that it returned, or the error that
its failure is reported as. -/
def Reports (result : BulkResult) : Except Failure Json → Prop
  | .ok resource => result.status < 400 ∧ result.response = resource
  | .error failure =>
    result.status = (reported failure).status ∧
      result.response = .obj (reported failure).toMembers

/-- A result of a successful creation under a bulk id. -/
structure Posted (bulkId : String) (result : BulkResult) : Prop where
  method : result.method = "POST"
  bulkId : result.bulkId = .str bulkId
  succeeded : result.status < 400

/-- Whether an operation is directed at a known endpoint and refers to a bulk id. -/
def RefersTo (services : Services σ) (operation : BulkOperation) (bulkId : String) : Prop :=
  ∃ target service text, BulkTarget.ofPath? operation.path = some target ∧
    service? services target.endpoint = some service ∧ text ∈ referring target operation ∧
    References.target? text = some bulkId

/-! ## Planning with references or with creations -/

/-- References that stand for what was created last, and never for nothing. -/
structure Tracks (creations : Creations) (references : References) : Prop where
  idOf : ∀ bulkId, references.idOf bulkId = creations.last? bulkId
  notNull : ∀ bulkId id, creations.last? bulkId = some id → id.isNull = false

theorem tracks_nil : Tracks [] [] where
  idOf _ := rfl
  notNull _ _ found := by cases found

/-- Only a text is the same as a text. -/
theorem same_str_iff (key : Json) (text : String) :
    key.same (.str text) = true ↔ key = .str text := by
  cases key <;> simp [Json.same, Json.num?]

theorem idOf_set (references : References) (bulkId other : String) (id : Json) :
    (references.set (.str bulkId) id).idOf other =
      if bulkId = other then some id else references.idOf other := by
  induction references with
  | nil =>
      by_cases equal : bulkId = other <;>
        simp [References.set, References.idOf, References.find?, same_str_iff, equal]
  | cons reference rest ih =>
      obtain ⟨key, old⟩ := reference
      simp only [References.idOf, References.find?] at ih ⊢
      by_cases taken : key = .str bulkId
      · by_cases equal : bulkId = other <;> simp [References.set, same_str_iff, taken, equal]
      · by_cases found : key = .str other
        · have differ : bulkId ≠ other := by
            rintro rfl
            exact taken found
          simp [References.set, same_str_iff, found, differ, differ.symm]
        · simpa [References.set, same_str_iff, taken, found] using ih

/-- The id in a path is replaced like any other text, and what it is replaced by is
something. -/
theorem Tracks.resolveId {creations : Creations} {references : References}
    (tracks : Tracks creations references) (id : Option String) :
    (id.mapM references.resolveText).map (·.filter (!·.isNull)) =
      References.unlessDangling creations.last? id.toList
        (id.map (References.replaced creations.last?)) := by
  have agree : references.idOf = creations.last? := funext tracks.idOf
  cases id with
  | none => rfl
  | some text =>
      have something : (References.replaced creations.last? text).isNull = false := by
        rw [References.replaced]
        cases found : (References.target? text).bind creations.last? with
        | none => rfl
        | some id =>
            obtain ⟨bulkId, _, last⟩ := Option.bind_eq_some_iff.mp found
            exact tracks.notNull bulkId id last
      change ((references.resolveText text).map some).map (·.filter (!·.isNull)) = _
      rw [References.resolveText_eq, agree, References.map_unlessDangling,
        References.map_unlessDangling]
      simp [something, Option.filter]

theorem Tracks.plan_eq {creations : Creations} {references : References}
    (tracks : Tracks creations references) (services : Services σ) (operation : BulkOperation) :
    plan services references operation = directCall services creations operation := by
  have agree : references.idOf = creations.last? := funext tracks.idOf
  simp only [plan, route, directCall, References.resolve_eq, agree]
  cases BulkTarget.ofPath? operation.path with
  | none => rfl
  | some target =>
      dsimp only
      cases service? services target.endpoint with
      | none => rfl
      | some service =>
          have resolved := tracks.resolveId target.id
          rw [referring, References.unlessDangling_append, ← resolved]
          dsimp only
          cases target.id.mapM references.resolveText with
          | error failure => rfl
          | ok id =>
              simp only [Except.map, bind, Except.bind, pure, Except.pure]
              cases References.unlessDangling creations.last? operation.data.texts
                (operation.data.mapTexts (References.replaced creations.last?)) <;> rfl

/-- A reference to nothing is a refusal, before any call is made. -/
theorem directCall_of_refersTo {creations : Creations} {operation : BulkOperation}
    {bulkId : String} (refers : RefersTo services operation bulkId)
    (nothing : creations.last? bulkId = none) :
    ∃ other, directCall services creations operation = refuse (.unresolvedBulkId other) := by
  obtain ⟨target, service, text, targeted, found, member, names⟩ := refers
  obtain ⟨other, refused⟩ := References.unlessDangling_of_mem member names nothing
    (target.id.map (References.replaced creations.last?),
      operation.data.mapTexts (References.replaced creations.last?))
  refine ⟨other, ?_⟩
  simp only [directCall, targeted, found, refused]
  rfl

/-! ## One operation -/

theorem run_runDirectly (services : Services σ) (index : Nat) (entry : BulkEntry) (state : σ)
    (creations : Creations) :
    (runDirectly services index entry).run (state, creations) =
      match entry.read index with
      | .error failure => (.error failure, state, creations)
      | .ok operation =>
        match directCall services creations operation with
        | .error failure => (.error failure, state, creations)
        | .ok (service, call) =>
          match (call.on service).run state with
          | (.error failure, after) => (.error failure, after, creations)
          | (.ok resource, after) => (.ok resource, after, creations.behind operation resource) := by
  rw [runDirectly, Action.run_bind, Action.run_ofExcept]
  cases entry.read index with
  | error failure => rfl
  | ok operation =>
      simp only [Action.run_bind, Action.run_get, Action.run_ofExcept]
      cases directCall services creations operation with
      | error failure => rfl
      | ok target =>
          simp only [Action.run_zoom_first]
          rcases (target.2.on target.1).run state with ⟨_ | resource, after⟩ <;> rfl

/-- A post is read with a bulk id, and only from an object that states it. -/
theorem ofJson_operation {value : Json} {index : Int} {operation : BulkOperation}
    (read : BulkOperation.ofJson value index = .ok operation) :
    ∃ members, value = .obj members ∧ operation.bulkId = attr members "bulkId" ∧
      (operation.method = .post → operation.bulkId.isVoid = false) := by
  cases value with
  | obj members =>
      refine ⟨members, rfl, ?_⟩
      simp only [BulkOperation.ofJson] at read
      split at read
      · next method _ =>
          by_cases unnamed : (decide (method = .post) && (attr members "bulkId").isVoid) = true
          · simp only [if_pos unnamed] at read
            split_ifs at read <;> cases read
          · simp only [if_neg unnamed] at read
            split_ifs at read <;> cases read
            exact ⟨rfl, by simpa using unnamed⟩
      · cases read
  | _ => cases read

/-- Entries whose operations post only under texts. -/
def NamedByTexts (entry : BulkEntry) : Prop :=
  ∀ (index : Int) (operation : BulkOperation), entry.read index = .ok operation →
    operation.method = .post → ∃ bulkId, operation.bulkId = .str bulkId ∧ bulkId ≠ ""

theorem namedByTexts_of_data {value : Json}
    (textual : ∀ members, value = .obj members →
      (attr members "bulkId").isNull = true ∨ (attr members "bulkId").isStr = true) :
    NamedByTexts (.data value) := by
  intro index operation read posts
  obtain ⟨members, object, bulkId, named⟩ := ofJson_operation read
  have notVoid := named posts
  rcases textual members object with null | text
  · rw [← bulkId] at null
    cases stated : operation.bulkId with
    | null =>
        rw [stated] at notVoid
        cases notVoid
    | _ =>
        rw [stated] at null
        cases null
  · rw [← bulkId] at text
    cases stated : operation.bulkId with
    | str bulkId =>
        rw [stated] at notVoid
        exact ⟨bulkId, rfl, by simpa [Json.isVoid] using notVoid⟩
    | _ =>
        rw [stated] at text
        cases text

/-- Agreement of a batch with calls made one after another: the same state, results that
tell what the calls came to, and the same bulk ids known, each from before or from a
successful creation. -/
structure Agree (creations : Creations) (results : List BulkResult) (batch : σ × References)
    (outcomes : List (Except Failure Json)) (calls : σ × Creations) : Prop where
  state : batch.1 = calls.1
  reports : List.Forall₂ Reports results outcomes
  tracks : Tracks calls.2 batch.2
  known : ∀ bulkId, (calls.2.last? bulkId).isSome = true →
    (creations.last? bulkId).isSome = true ∨ ∃ result ∈ results, Posted bulkId result

theorem Agree.of_failure {creations : Creations} {references : References}
    (tracks : Tracks creations references) (entry : BulkEntry) (failure : Failure) (after : σ) :
    Agree creations [refusal entry failure] (after, references) [.error failure]
      (after, creations) where
  state := rfl
  reports := .cons ⟨rfl, rfl⟩ .nil
  tracks := tracks
  known _ found := .inl found

/-- A creation that is settled is known under its bulk id from then on. -/
theorem Agree.of_creation {creations : Creations} {references recorded : References}
    (tracks : Tracks creations references) {service : Service σ} {operation : BulkOperation}
    {bulkId : String} {data : Json} {members : Members} {result : BulkResult} (after : σ)
    (posts : operation.method = .post) (named : operation.bulkId = .str bulkId)
    (notEmpty : bulkId ≠ "") (notNull : (resourceId members).isNull = false)
    (settled : (settle service operation (.obj members) (.create data)).run references =
      (.ok result, recorded)) :
    Agree creations [result] (after, recorded) [.ok (.obj members)]
      (after, creations.behind operation (.obj members)) := by
  have recordable : Recordable operation.bulkId := by
    rw [named]
    exact .inr rfl
  have notVoid : operation.bulkId.isVoid = false := by
    simp [named, Json.isVoid, notEmpty]
  have behind : creations.behind operation (.obj members) =
      (bulkId, resourceId members) :: creations := by
    simp only [Creations.behind, posts, named]
  have last (other : String) : Creations.last? ((bulkId, resourceId members) :: creations) other =
      if bulkId = other then some (resourceId members) else creations.last? other := by
    by_cases equal : other = bulkId
    · simp [Creations.last?, equal]
    · simp [Creations.last?, List.lookup_cons, beq_eq_false_iff_ne.mpr equal, Ne.symm equal]
  rw [run_settle_create service recordable] at settled
  cases settled
  rw [behind, BulkBatch.recorded, if_neg (by simp [notVoid]), named]
  have succeeded : (201 : Int) < 400 := by decide
  refine ⟨rfl, .cons ⟨succeeded, rfl⟩ .nil, ⟨?_, ?_⟩, ?_⟩
  · intro other
    rw [idOf_set, tracks.idOf, last]
    rfl
  · intro other id found
    rw [last] at found
    split at found
    · cases found
      exact notNull
    · exact tracks.notNull other id found
  · intro other found
    by_cases equal : bulkId = other
    · subst equal
      refine .inr ⟨_, List.mem_singleton_self _, ?_, named, succeeded⟩
      simp [success, posts, BulkMethod.word]
    · rw [last, if_neg equal] at found
      exact .inl found

/-- A call that creates nothing leaves the known bulk ids as they are. -/
theorem Agree.of_update {creations : Creations} {references recorded : References}
    (tracks : Tracks creations references) {service : Service σ} {operation : BulkOperation}
    {call : WriteCall} {resource : Json} {result : BulkResult} (after : σ)
    (posts : operation.method ≠ .post) (kept : recorded = references)
    (settled : (settle service operation resource call).run references = (.ok result, recorded)) :
    Agree creations [result] (after, recorded) [.ok resource]
      (after, creations.behind operation resource) := by
  have behind : creations.behind operation resource = creations := by
    rw [Creations.behind]
    intro bulkId members posted
    exact absurd posted posts
  obtain ⟨status, id, version, fine, rfl⟩ := settle_eq_ok settled
  rw [kept, behind]
  exact ⟨rfl, .cons ⟨fine, rfl⟩ .nil, tracks, fun _ found => .inl found⟩

variable {ι : Type} [DecidableEq ι] {services : Services (Pool ι)}

/-- An entry comes to what the call that it stands for comes to. -/
theorem agree_runEntry (pooled : Pooled services) {entry : BulkEntry}
    (textual : NamedByTexts entry) (index : Nat) {creations : Creations} {references : References}
    (tracks : Tracks creations references) (pool : Pool ι) :
    Agree creations [((runEntry services index entry).run (pool, references)).1]
      ((runEntry services index entry).run (pool, references)).2
      [((runDirectly services index entry).run (pool, creations)).1]
      ((runDirectly services index entry).run (pool, creations)).2 := by
  have came := runEntry_ran services index entry pool references
  generalize (runEntry services index entry).run (pool, references) = ran at came ⊢
  obtain ⟨result, after⟩ := ran
  rw [run_runDirectly]
  dsimp only at came ⊢
  cases came with
  | malformed failure read =>
      rw [read]
      exact .of_failure tracks entry failure pool
  | unplanned operation failure read planned =>
      rw [tracks.plan_eq] at planned
      simp only [read, planned]
      exact .of_failure tracks entry failure pool
  | failed operation service call failure after read planned called =>
      rw [tracks.plan_eq] at planned
      simp only [read, planned, called]
      exact .of_failure tracks entry failure after
  | unsettled operation service call resource failure after recorded read planned called settled =>
      obtain ⟨_, store, wrote, _⟩ := pooled.wrote planned called
      obtain ⟨_, id, data, stands⟩ := plan_eq_ok planned
      have recordable (posts : operation.method = .post) : Recordable operation.bulkId := by
        obtain ⟨bulkId, named, _⟩ := textual index operation read posts
        rw [named]
        exact .inr rfl
      obtain ⟨_, _, fine⟩ := wrote.settles stands recordable service references
      rw [settled] at fine
      cases fine
  | settled operation service call resource result after recorded read planned called settled =>
      obtain ⟨_, store, wrote, _⟩ := pooled.wrote planned called
      obtain ⟨_, id, data, stands⟩ := plan_eq_ok planned
      have direct := tracks.plan_eq services operation
      rw [planned] at direct
      simp only [read, ← direct, called]
      by_cases posts : operation.method = .post
      · obtain ⟨bulkId, named, notEmpty⟩ := textual index operation read posts
        obtain ⟨_, rfl⟩ := (method_of_call stands).mp posts
        cases wrote with
        | created _ id stored shown key notNull free shownId =>
            exact .of_creation tracks after posts named notEmpty
              ((congrArg Json.isNull shownId).trans notNull) settled
      · have other : ∀ data, call ≠ .create data := by
          intro data equal
          exact posts ((method_of_call stands).mpr ⟨data, equal⟩)
        obtain ⟨_, kept⟩ := wrote.settled other service operation references
        rw [settled] at kept
        cases kept
        exact .of_update tracks after posts rfl settled

/-! ## Whole batches -/

theorem inTurn_cons (services : Services σ) (index : Nat) (entry : BulkEntry)
    (rest : List BulkEntry) (state : σ × Creations) :
    (inTurn services index (entry :: rest)).run state =
      let (outcome, middle) := (runDirectly services index entry).run state
      let (others, after) := (inTurn services (index + 1) rest).run middle
      (outcome :: others, after) := by
  rw [inTurn, List.zipIdx_cons, List.mapM_cons]
  rfl

theorem Agree.cons {creations known : Creations} {result : BulkResult}
    {outcome : Except Failure Json} {results : List BulkResult}
    {outcomes : List (Except Failure Json)} {middle batch : σ × References} {state : σ}
    {calls : σ × Creations} (first : Agree creations [result] middle [outcome] (state, known))
    (others : Agree known results batch outcomes calls) :
    Agree creations (result :: results) batch (outcome :: outcomes) calls where
  state := others.state
  reports := .cons (List.forall₂_cons.mp first.reports).1 others.reports
  tracks := others.tracks
  known := by
    intro bulkId found
    rcases others.known bulkId found with before | ⟨later, member, posted⟩
    · rcases first.known bulkId before with before | ⟨here, member, posted⟩
      · exact .inl before
      · exact .inr ⟨here, List.mem_cons.mpr (.inl (List.mem_singleton.mp member)), posted⟩
    · exact .inr ⟨later, List.mem_cons_of_mem _ member, posted⟩

/-- Entries come to what the calls that they stand for come to, one after another. -/
theorem agree_runAll (pooled : Pooled services) (index : Nat) (entries : List BulkEntry)
    (textual : ∀ entry ∈ entries, NamedByTexts entry) {creations : Creations}
    {references : References} (tracks : Tracks creations references) (pool : Pool ι) :
    Agree creations ((runAll services index entries).run (pool, references)).1
      ((runAll services index entries).run (pool, references)).2
      ((inTurn services index entries).run (pool, creations)).1
      ((inTurn services index entries).run (pool, creations)).2 := by
  induction entries generalizing index creations references pool with
  | nil => exact ⟨rfl, .nil, tracks, fun _ found => .inl found⟩
  | cons entry rest ih =>
      have first := agree_runEntry pooled (textual entry List.mem_cons_self) index tracks pool
      rw [runAll_cons, inTurn_cons]
      generalize (runEntry services index entry).run (pool, references) = ran at first ⊢
      generalize (runDirectly services index entry).run (pool, creations) = called at first ⊢
      obtain ⟨result, middle, references⟩ := ran
      obtain ⟨outcome, middle', creations⟩ := called
      obtain rfl : middle = middle' := first.state
      exact first.cons (ih (index + 1)
        (fun other member => textual other (List.mem_cons_of_mem _ member)) first.tracks middle)

/-- An operation that refers to a bulk id under which nothing was created before is refused
as a conflict and leaves the state as it was. -/
theorem runEntry_of_dangling (pooled : Pooled services) {entries : List BulkEntry}
    (textual : ∀ entry ∈ entries, NamedByTexts entry) (pool : Pool ι) {place : Nat}
    {entry : BulkEntry} (found : entries[place]? = some entry) {operation : BulkOperation}
    (read : entry.read place = .ok operation) {bulkId : String}
    (refers : RefersTo services operation bulkId)
    (nothing : ∀ earlier ∈ ((runAll services 0 entries).run (pool, [])).1.take place,
      ¬ Posted bulkId earlier) :
    (∃ result, ((runAll services 0 entries).run (pool, [])).1[place]? = some result ∧
      result.status = 409) ∧
    stateAfter services entries pool (place + 1) = stateAfter services entries pool place := by
  obtain ⟨leading, here, behind⟩ := runAll_at services 0 found (pool, [])
  have before := agree_runAll pooled 0 (entries.take place)
    (fun other member => textual other (List.mem_of_mem_take member)) tracks_nil pool
  rw [leading] at nothing
  rw [Nat.zero_add] at here behind
  simp only [stateAfter]
  rw [here, behind]
  generalize (runAll services 0 (entries.take place)).run (pool, []) = ran at before nothing
  generalize (inTurn services 0 (entries.take place)).run (pool, []) = called at before
  obtain ⟨results, middle, references⟩ := ran
  obtain ⟨outcomes, _, creations⟩ := called
  have unknown : creations.last? bulkId = none := by
    rw [← Option.not_isSome_iff_eq_none]
    intro known
    rcases before.known bulkId known with never | ⟨earlier, member, posted⟩
    · cases never
    · exact nothing earlier member posted
  obtain ⟨other, refused⟩ := directCall_of_refersTo refers unknown
  rw [← before.tracks.plan_eq] at refused
  have ran : (runEntry services place entry).run (middle, references) =
      (refusal entry (.scim (.unresolvedBulkId other)), middle, references) := by
    rw [run_runEntry, read]
    dsimp only
    rw [run_dispatch, refused]
    rfl
  dsimp only
  rw [ran]
  exact ⟨⟨_, rfl, rfl⟩, rfl⟩

/-- A request without a limit, whose bulk ids are texts, does what its calls do one after
another: it leaves the same state and its results tell what the calls came to.  An
operation that refers to a bulk id under which none of those before it created anything
is a conflict and leaves no trace. -/
theorem execute_inTurn (services : Services (Pool ι)) (pooled : Pooled services)
    (options : ServiceOptions) (body : Json) (request : BulkRequest)
    (accepted : BulkRequest.ofJson body = .ok request) (enabled : options.bulkEnabled = true)
    (within : request.entries.length ≤ options.maxBulkOperations)
    (unlimited : request.failOnErrors = none)
    (textual : ∀ members, .data (.obj members) ∈ request.entries →
      (attr members "bulkId").isNull = true ∨ (attr members "bulkId").isStr = true)
    (pool : Pool ι) :
    ∃ batch after outcomes creations,
      (execute services options (BulkRequest.ofJson body)).run pool = (.ok batch, after) ∧
      (runAll services 0 request.entries).run (pool, []) =
        (batch.results, after, batch.references) ∧
      (inTurn services 0 request.entries).run (pool, []) = (outcomes, after, creations) ∧
      List.Forall₂ Reports batch.results outcomes ∧
      ∀ place entry operation bulkId, request.entries[place]? = some entry →
        entry.read place = .ok operation → RefersTo services operation bulkId →
        (∀ earlier ∈ batch.results.take place, ¬ Posted bulkId earlier) →
        (∃ result, batch.results[place]? = some result ∧ result.status = 409) ∧
          stateAfter services request.entries pool (place + 1) =
            stateAfter services request.entries pool place := by
  obtain ⟨⟨operations, read⟩, _⟩ := ofJson_eq_ok accepted
  have named : ∀ entry ∈ request.entries, NamedByTexts entry := by
    intro entry member
    obtain ⟨value, _, rfl⟩ := List.mem_map.mp (read ▸ member)
    apply namedByTexts_of_data
    rintro members rfl
    exact textual members member
  have agree := agree_runAll pooled 0 request.entries named tracks_nil pool
  have executed := execute_unlimited services accepted enabled within unlimited pool
  rcases ran : (runAll services 0 request.entries).run (pool, []) with ⟨results, after, references⟩
  rcases called : (inTurn services 0 request.entries).run (pool, []) with
    ⟨outcomes, after', creations⟩
  rw [ran, called] at agree
  rw [ran] at executed
  obtain rfl : after = after' := agree.state
  refine ⟨_, after, outcomes, creations, executed, rfl, rfl, agree.reports, ?_⟩
  intro place entry operation bulkId found read refers nothing
  have conflict := runEntry_of_dangling pooled named pool found read refers
  rw [ran] at conflict
  exact conflict nothing

/-- A creation, and a removal of a resource that no operation before it created. -/
theorem execute_inTurn_dangling :
    let operations := [postUser (.str "a") "ann",
      .obj [("method", .str "DELETE"), ("path", .str "/Users/bulkId:b")]]
    let request : BulkRequest := ⟨operations.map .data, none⟩
    BulkRequest.ofJson (requestBody operations) = .ok request ∧
      (request.entries.length : Int) ≤ ({} : ServiceOptions).maxBulkOperations ∧
      (∀ members, .data (.obj members) ∈ request.entries →
        (attr members "bulkId").isNull = true ∨ (attr members "bulkId").isStr = true) ∧
      ∃ batch after outcomes creations,
        (execute (cliServices {}) {} (BulkRequest.ofJson (requestBody operations))).run
          (Cli.emptyPool (.startingOn ⟨2024, 1, 1⟩ 1) "") = (.ok batch, after) ∧
        (inTurn (cliServices {}) 0 request.entries).run
          (Cli.emptyPool (.startingOn ⟨2024, 1, 1⟩ 1) "", []) = (outcomes, after, creations) ∧
        List.Forall₂ Reports batch.results outcomes := by
  intro operations request
  have accepted : BulkRequest.ofJson (requestBody operations) = .ok request :=
    ofJson_requestBody operations rfl
  have textual : ∀ members, .data (.obj members) ∈ request.entries →
      (attr members "bulkId").isNull = true ∨ (attr members "bulkId").isStr = true := by
    intro members member
    simp only [request, operations, List.map_cons, List.map_nil, List.mem_cons, postUser,
      BulkEntry.data.injEq, Json.obj.injEq, List.not_mem_nil, or_false] at member
    rcases member with rfl | rfl
    · exact .inr (by decide)
    · exact .inl (by decide)
  obtain ⟨batch, after, outcomes, creations, executed, _, called, reports, _⟩ :=
    execute_inTurn (cliServices {}) (cliServices_pooled {}) {} _ request accepted rfl (by decide)
      rfl textual (Cli.emptyPool (.startingOn ⟨2024, 1, 1⟩ 1) "")
  exact ⟨accepted, by decide, textual, batch, after, outcomes, creations, executed, called, reports⟩

end BulkBatch

end Scim
