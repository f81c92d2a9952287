import Mathlib.Logic.Function.Basic
import Scim.Proofs.Store.Versions
import Scim.Service

/-!
# Changes that run side by side

A change reads a resource in one atomic step and writes the changed one in another,
and any number of clients may take steps in between.  In a store that only holds
stamped resources the versions tell all writes apart, so the write of a change
succeeds only if the resource is still the one that was read.  The change then has
the same effect as if it had run as a whole at the time of its write.
-/

namespace Scim

open Members

/-! ## The two steps of a change -/

namespace Service

section

variable {σ : Type}

/-- The second step of a change up to its write. -/
def writeBack (service : Service σ) (change : PendingChange) : Action σ Json := do
  let expected ← Action.ofExcept change.expected
  let changed ← Action.ofExcept (change.changed service.schema)
  let prepared ← Action.ofExcept (service.prepare changed)
  service.adapter.replace change.id prepared expected

/-- Behind its write, the second step of a change only presents the result. -/
theorem finishChange_eq (service : Service σ) (change : PendingChange) :
    service.finishChange change =
      (service.writeBack change >>= fun written => Action.ofExcept (service.present written)) := by
  simp only [finishChange, writeBack, replace, bind_assoc]

end

/-- What the write of a change attempts: the prepared resource and the version that
it expects. -/
def attempted (service : Service MemoryState) (change : PendingChange) :
    Except Failure (Json × Json) := do
  let expected ← change.expected
  let changed ← change.changed service.schema
  let prepared ← service.prepare changed
  return (prepared, expected)

/-- The outcome of the write of a change and the store after it. -/
def attempt (service : Service MemoryState) (change : PendingChange) (supply : Supply)
    (store : MemoryStore) : Except Failure Json × MemoryStore :=
  let (outcome, after) := (service.writeBack change).run (supply, store)
  (outcome, after.2)

/-- The second step of a change does to the store what its write does. -/
theorem finishChange_store (service : Service MemoryState) (change : PendingChange)
    (supply : Supply) (store : MemoryStore) :
    ((service.finishChange change).run (supply, store)).2.2 =
      (service.attempt change supply store).2 := by
  rw [finishChange_eq, Action.run_bind, attempt]
  rcases (service.writeBack change).run (supply, store) with ⟨outcome, after⟩
  cases outcome <;> rfl

end Service

/-! ## Steps of the clients -/

/-- A step of the clients of a service.  The type `κ` tells the changes apart. -/
inductive SessionStep (κ : Type) where
  /-- A call of the store, served at once. -/
  | call (call : StoreCall)
  /-- The first step of a change, which reads the resource. -/
  | begin (change : κ) (id request : Json)
  /-- The second step of a change, which writes the resource. -/
  | finish (change : κ)

/-- A change that was begun, with the request for it. -/
structure BegunChange where
  request : Json
  change : Service.PendingChange

/-- A store and the changes that were begun and not finished. -/
structure Session (κ : Type) where
  store : MemoryStore
  begun : κ → Option BegunChange

/-- A call of a service: one of its store, or a change as a whole. -/
inductive ServiceCall where
  | store (call : StoreCall)
  | patch (id request : Json)

/-- The store after a call that runs alone. -/
def ServiceCall.alone (service : Service MemoryState) (call : ServiceCall) (supply : Supply)
    (store : MemoryStore) : MemoryStore :=
  match call with
  | .store call => (call.serve supply store).2
  | .patch id request => ((service.patch id request).run (supply, store)).2.2

/-- The store after some calls that run one at a time. -/
def MemoryStore.inTurn (service : Service MemoryState) (store : MemoryStore)
    (calls : List (Supply × ServiceCall)) : MemoryStore :=
  calls.foldl (fun store (supply, call) => call.alone service supply store) store

namespace Session

variable {κ : Type}

/-- A session before its first step. -/
def start (store : MemoryStore) : Session κ where
  store := store
  begun _ := none

variable [DecidableEq κ]

/-- Takes a step.  A step by which a call succeeds returns the call: one of the store
when it is served, a change when its write is, even if the result cannot be presented. -/
def take (service : Service MemoryState) (session : Session κ) (supply : Supply) :
    SessionStep κ → Option ServiceCall × Session κ
  | .call call =>
    let (outcome, store) := call.serve supply session.store
    (outcome.toOption.map fun _ => .store call, { session with store })
  | .begin change id request =>
    match (service.beginChange id request).run (supply, session.store) with
    | (.ok pending, _, store) =>
      (none, ⟨store, Function.update session.begun change (some ⟨request, pending⟩)⟩)
    | (.error _, _, store) => (none, { session with store })
  | .finish change =>
    match session.begun change with
    | none => (none, session)
    | some ⟨request, pending⟩ =>
      let store := ((service.finishChange pending).run (supply, session.store)).2.2
      ((service.attempt pending supply session.store).1.toOption.map fun _ =>
          .patch pending.id request,
        ⟨store, Function.update session.begun change none⟩)

/-- The session after some steps, each with the supply that it draws on. -/
def after (service : Service MemoryState) (session : Session κ)
    (steps : List (Supply × SessionStep κ)) : Session κ :=
  steps.foldl (fun session (supply, step) => (session.take service supply step).2) session

end Session

/-! ## Stores of stamped resources -/

namespace MemoryStore

/-- Every resource in a store was stamped. -/
def Stamped (store : MemoryStore) : Prop :=
  ∀ id, id.isKey = true → WrittenSince 0 id store

variable {store after : MemoryStore} {now : String} {call : StoreCall}
  {outcome : Except Failure Json}

theorem Stamped.served (stamped : store.Stamped) (served : Served now store call outcome after) :
    after.Stamped :=
  fun id key => (stamped id key).served key served

/-- A resource that was read under an id is still there, or the id was written since. -/
inductive Untouched (id : Json) (read : Members) (version : Nat) (store : MemoryStore) : Prop where
  | there (found : store.find? id = some read) (made : version ≤ store.stamps)
  | written (since : WrittenSince version id store)

variable {id : Json} {read : Members} {version : Nat}

theorem Untouched.served (key : id.isKey = true) (served : Served now store call outcome after)
    (untouched : Untouched id read version store) : Untouched id read version after := by
  cases untouched with
  | written since => exact .written (since.served key served)
  | there found made =>
      have put {other : Json} (otherKey : other.isKey = true) (created : Json) (members : Members) :
          Untouched id read version
            (store.stamped.put other (store.signed now other created members)) := by
        cases same : other.same id with
        | true =>
            refine .written (.put_signed made key otherKey created members fun differ => ?_)
            rw [same] at differ
            cases differ
        | false =>
            refine .there ?_ (Nat.le_succ_of_le made)
            rw [find?_put _ otherKey key, same, if_neg Bool.false_ne_true, find?_stamped, found]
      cases served with
      | failed => exact .there found made
      | read => exact .there found made
      | created other members otherKey => exact put otherKey .null members
      | replaced other expected members current otherKey => exact put otherKey _ members
      | deleted other expected current otherKey =>
          cases same : other.same id with
          | true =>
              refine .written (.erase made key otherKey fun differ => ?_)
              rw [same] at differ
              cases differ
          | false =>
              refine .there ?_ made
              rw [find?_erase _ otherKey key, same, if_neg Bool.false_ne_true, found]

/-- The version that was read is found only if the resource is still there. -/
theorem Untouched.found_eq (untouched : Untouched id read version store)
    (stamped : resourceVersion read = .str (versionText version)) {stored : Members}
    (found : store.find? id = some stored)
    (meets : (resourceVersion read).equal (resourceVersion stored) = true) : stored = read := by
  cases untouched with
  | there kept _ =>
      rw [kept, Option.some.injEq] at found
      exact found.symm
  | written since =>
      obtain ⟨n, newer, _, storedVersion⟩ := since.newer stored found
      rw [stamped, storedVersion, Json.equal_str_iff, Json.str.injEq, versionText_inj] at meets
      omega

end MemoryStore

open MemoryStore

/-! ## What a write comes to -/

namespace Service

variable {service : Service MemoryState}

/-- A write that is not attempted fails, and one that is attempted is a conditional
write of the store. -/
theorem attempt_eq (onMemory : service.adapter = MemoryStore.adapter) (change : PendingChange)
    (supply : Supply) (store : MemoryStore) :
    service.attempt change supply store =
      match service.attempted change with
      | .error failure => (.error failure, store)
      | .ok (prepared, expected) =>
        (StoreCall.replace change.id prepared expected).serve supply store := by
  unfold attempt attempted writeBack
  rw [onMemory]
  simp only [Action.run_bind, Action.run_ofExcept]
  cases change.expected with
  | error failure => rfl
  | ok expected =>
      cases change.changed service.schema with
      | error failure => rfl
      | ok changed =>
          cases prepared : service.prepare changed with
          | error failure => simp [prepared, bind, Except.bind]
          | ok resource => simp [prepared, bind, Except.bind, pure, Except.pure, StoreCall.serve,
              StoreCall.action]

/-- The write of a change fails and leaves the store as it was, or it is one that the
store serves. -/
theorem attempt_served (onMemory : service.adapter = MemoryStore.adapter) (change : PendingChange)
    (supply : Supply) (store : MemoryStore) :
    ∃ call, Served supply.readClock.1 store call (service.attempt change supply store).1
      (service.attempt change supply store).2 := by
  rw [attempt_eq onMemory]
  cases service.attempted change with
  | error failure => exact ⟨.read .null, .failed _ failure⟩
  | ok write => exact ⟨_, serve_served (.replace change.id write.1 write.2) supply store⟩

theorem changed_obj_eq_ok {id version : Json} {read : Members} {entries : Option (List PatchEntry)}
    {schema : Option ResourceSchema} {changed : Json}
    (applied : PendingChange.changed ⟨id, .obj read, version, entries⟩ schema = .ok changed) :
    ∃ listed patched, entries = some listed ∧ applyPatch read listed schema = .ok patched ∧
      changed = .obj patched := by
  unfold PendingChange.changed at applied
  cases chosen : effectiveSchema (.obj read) schema with
  | error failure => simp [chosen, bind, Except.bind] at applied
  | ok effective =>
      simp only [chosen, bind, Except.bind] at applied
      cases entries with
      | none => cases applied
      | some listed =>
          have settled : effectiveSchema (.obj read) effective = .ok effective := by
            cases effective with
            | some schema => rfl
            | none =>
                -- without any schema the resource was asked for one and had none
                cases schema with
                | some schema => cases chosen
                | none => exact chosen
          have same : applyPatch read listed effective = applyPatch read listed schema := by
            simp only [applyPatch, settled, chosen]
          dsimp only [Json.applyPatch] at applied
          rw [same] at applied
          cases result : applyPatch read listed schema with
          | error failure => simp [result, bind, Except.bind] at applied
          | ok patched =>
              simp only [result, bind, Except.bind, pure, Except.pure, Except.ok.injEq] at applied
              exact ⟨listed, patched, rfl, result, applied.symm⟩

end Service

/-! ## Changes that were begun -/

/-- What stays true of a change that was begun: it has read a stamped resource that is
still there unless the id was written since. -/
structure BegunChange.Sound (store : MemoryStore) (begun : BegunChange) : Prop where
  key : begun.change.id.isKey = true
  requested : PatchEntry.ofRequest begun.request = .ok begun.change.entries
  unconditional : begun.change.version = .null
  read : ∃ read version, begun.change.current = .obj read ∧
    resourceVersion read = .str (versionText version) ∧
    Untouched begun.change.id read version store

theorem BegunChange.Sound.served {store after : MemoryStore} {begun : BegunChange} {now : String}
    {call : StoreCall} {outcome : Except Failure Json} (sound : begun.Sound store)
    (served : Served now store call outcome after) : begun.Sound after := by
  obtain ⟨key, requested, unconditional, read, version, current, stamped, untouched⟩ := sound
  exact ⟨key, requested, unconditional, read, version, current, stamped,
    untouched.served key served⟩

namespace Service

variable {service : Service MemoryState} {store : MemoryStore} {begun : BegunChange}

end Service

/-! ## Sessions -/

namespace Session

variable {κ : Type} {service : Service MemoryState}

/-- The invariant of a session. -/
structure Sound (session : Session κ) : Prop where
  stamped : session.store.Stamped
  begun : ∀ change begun, session.begun change = some begun → begun.Sound session.store

theorem Sound.served {session : Session κ} (sound : session.Sound) {after : MemoryStore}
    {now : String} {call : StoreCall} {outcome : Except Failure Json}
    (served : Served now session.store call outcome after) :
    ({ session with store := after } : Session κ).Sound where
  stamped := sound.stamped.served served
  begun change begun found := (sound.begun change begun found).served served

variable [DecidableEq κ]

theorem Sound.update {session : Session κ} (sound : session.Sound) (change : κ)
    {begun : Option BegunChange} (begunSound : ∀ found, begun = some found →
      found.Sound session.store) :
    (⟨session.store, Function.update session.begun change begun⟩ : Session κ).Sound where
  stamped := sound.stamped
  begun other found foundEq := by
    dsimp only at foundEq
    by_cases same : other = change
    · subst same
      rw [Function.update_self] at foundEq
      exact begunSound found foundEq
    · rw [Function.update_of_ne same] at foundEq
      exact sound.begun other found foundEq

/-- The first step of a change leaves the store as it was, and the change that it
begins has read what is stored. -/
theorem beginChange_run (onMemory : service.adapter = MemoryStore.adapter) {store : MemoryStore}
    (stamped : store.Stamped) (id request : Json) (supply : Supply) :
    (∃ failure, (service.beginChange id request).run (supply, store) =
      (.error failure, (supply, store))) ∨
    ∃ pending, (service.beginChange id request).run (supply, store) =
      (.ok pending, (supply, store)) ∧ BegunChange.Sound store ⟨request, pending⟩ := by
  simp only [Service.beginChange, Action.run_bind, Action.run_ofExcept]
  cases requested : PatchEntry.ofRequest request with
  | error failure => exact .inl ⟨failure, rfl⟩
  | ok entries =>
      simp only [onMemory, run_read]
      cases fetched : store.fetch id with
      | error failure => exact .inl ⟨failure, rfl⟩
      | ok stored =>
          obtain ⟨key, found⟩ := (fetch_eq_ok_iff store id stored).mp fetched
          obtain ⟨n, _, made, version⟩ := (stamped id key).newer stored found
          exact .inr ⟨_, rfl, key, requested, rfl, stored, n, rfl, version, .there found made⟩

theorem Sound.take (onMemory : service.adapter = MemoryStore.adapter) {session : Session κ}
    (sound : session.Sound) (supply : Supply) (step : SessionStep κ) :
    (session.take service supply step).2.Sound := by
  cases step with
  | call call => exact sound.served (serve_served call supply session.store)
  | begin change id request =>
      rw [Session.take]
      obtain ⟨failure, ran⟩ | ⟨pending, ran, begunSound⟩ :=
        beginChange_run onMemory sound.stamped id request supply
      · rw [ran]
        exact sound
      · rw [ran]
        refine sound.update change ?_
        rintro found ⟨⟩
        exact begunSound
  | finish change =>
      rw [Session.take]
      cases session.begun change with
      | none => exact sound
      | some begun =>
          dsimp only
          rw [Service.finishChange_store]
          obtain ⟨call, served⟩ := service.attempt_served onMemory begun.change supply session.store
          refine (sound.served served).update change ?_
          rintro found ⟨⟩

theorem Sound.after (onMemory : service.adapter = MemoryStore.adapter) {session : Session κ}
    (sound : session.Sound) (steps : List (Supply × SessionStep κ)) :
    (session.after service steps).Sound := by
  induction steps generalizing session with
  | nil => exact sound
  | cons entry rest ih => exact ih (sound.take onMemory entry.1 entry.2)

end Session

end Scim
