import Scim.Proofs.Resource.Primaries
import Scim.Proofs.Service.Writing
import Scim.Proofs.Store.Stamps

/-!
# One primary element in what a service stores

A service that leaves one element marked withdraws the other marks from what it is to write, and
the store stamps the rest as it is.  So the lists at the top of every stored resource have one
marked element at most.  The lists in an extension object are written with the marks they have.
-/

namespace Scim

open Members MemoryStore

/-! ## Stamped resources -/

namespace Members

/-- Whether members are others with the last mark kept in each list, and otherwise the same. -/
structure MarkedFrom (prepared payload : Members) : Prop where
  names : names prepared = names payload
  lists : ∀ key items, get? payload key = some (.arr items) →
    ∃ kept, get? prepared key = some (.arr kept) ∧ KeepsLastMark items kept
  others : ∀ key value, get? payload key = some value → value.isArr = false →
    get? prepared key = some value

theorem markedFrom_singlePrimary (payload : Members) :
    (singlePrimary payload).MarkedFrom payload where
  names := names_singlePrimary payload
  lists _ items held :=
    ⟨_, get?_singlePrimary_eq_arr_iff.mpr ⟨items, held, rfl⟩, keepsLastMark_keepLastPrimary items⟩
  others _ _ held noList := get?_singlePrimary held noList

theorem place_singlePrimary (payload : Members) (name : String) :
    place (singlePrimary payload) name = place payload name := by
  rw [place, place, key?_eq, key?_eq, names_singlePrimary]

/-- A resource without the id and the `meta` attribute, which a write overwrites. -/
def unstamped (payload : Members) : Members := delAttr (delAttr payload "id") "meta"

theorem get?_unstamped (payload : Members) (key : String) :
    get? (unstamped payload) key =
      if key = place payload "meta" then none
      else if key = place payload "id" then none else get? payload key := by
  have differ : sameName "id" "meta" = false := by decide
  rw [unstamped, delAttr_eq_erase, get?_erase, place_congr (spellings_delAttr payload differ),
    delAttr_eq_erase, get?_erase]

end Members

namespace MemoryStore

variable {store : MemoryStore} {payload : Members} {id : Json}

theorem get?_signed (store : MemoryStore) (now : String) (id created : Json) (payload : Members)
    (key : String) :
    get? (store.signed now id created payload) key =
      if key = place payload "meta" then
        some (.obj (store.stampInfo id created now (store.stamps + 1)))
      else if key = place payload "id" then some id else get? payload key := by
  have differ : sameName "id" "meta" = false := by decide
  rw [signed, setAttr_eq_set, get?_set, place_congr (spellings_setAttr_of_differ payload differ id),
    setAttr_eq_set, get?_set]

/-- The stamp itself has no lists. -/
theorem singlyMarked_stampInfo (store : MemoryStore) (id : Json) {created : Json}
    (noList : created.isArr = false) (now : String) (stamp : Nat) :
    (store.stampInfo id created now stamp).SinglyMarked := by
  have dated : (created.orElse (.str now)).isArr = false := by
    rw [Json.orElse]
    split
    · rfl
    · exact noList
  intro key items held
  have listed := mem_of_get? held
  simp only [stampInfo, List.mem_cons, Prod.mk.injEq, reduceCtorEq, and_false, false_or, or_false,
    List.not_mem_nil] at listed
  rw [← listed.2] at dated
  cases dated

theorem singlyMarked_signed (store : MemoryStore) (marked : payload.SinglyMarked)
    (isKey : id.isKey = true) (now : String) (created : Json) :
    (store.signed now id created payload).SinglyMarked := by
  intro key items held
  rw [get?_signed] at held
  split at held
  · cases held
  · split at held
    · cases held
      cases isKey
    · exact marked key items held

/-- The objects of a stamped resource are those of the resource itself and the stamp. -/
theorem singlyMarkedWithin_signed_iff (store : MemoryStore) (isKey : id.isKey = true)
    {created : Json} (noList : created.isArr = false) (now : String) :
    (store.signed now id created payload).SinglyMarkedWithin ↔
      payload.unstamped.SinglyMarkedWithin := by
  constructor
  · intro marked key object held
    apply marked key object
    rw [get?_unstamped] at held
    rw [get?_signed]
    split at held
    · cases held
    · next noStamp =>
      split at held
      · cases held
      · next noId => rw [if_neg noStamp, if_neg noId, held]
  · intro marked key object held
    rw [get?_signed] at held
    split at held
    · cases held
      exact singlyMarked_stampInfo store id noList now _
    · next noStamp =>
      split at held
      · cases held
        cases isKey
      · next noId =>
        refine marked key object ?_
        rw [get?_unstamped, if_neg noStamp, if_neg noId, held]

theorem singlyMarkedWithin_unstamped_singlePrimary_iff (payload : Members) :
    (singlePrimary payload).unstamped.SinglyMarkedWithin ↔
      payload.unstamped.SinglyMarkedWithin := by
  have same (key : String) (object : Members) :
      get? (singlePrimary payload).unstamped key = some (.obj object) ↔
        get? payload.unstamped key = some (.obj object) := by
    rw [get?_unstamped, get?_unstamped, place_singlePrimary, place_singlePrimary]
    split
    · exact .rfl
    · split
      · exact .rfl
      · exact get?_singlePrimary_eq_obj_iff
  simp only [SinglyMarkedWithin, same]

/-! ## Stores -/

/-- Whether each list at the top of a stored resource has at most one marked element. -/
def SinglyMarked (store : MemoryStore) : Prop := ∀ entry ∈ store.entries, entry.2.SinglyMarked

/-- Whether each list in an object of a stored resource has at most one marked element. -/
def SinglyMarkedWithin (store : MemoryStore) : Prop :=
  ∀ entry ∈ store.entries, entry.2.SinglyMarkedWithin

/-- Whether the time of creation of each stored resource is no list. -/
def Dated (store : MemoryStore) : Prop :=
  ∀ entry ∈ store.entries, (createdAt entry.2).isArr = false

/-- What is true of all entries stays true if it is true of an entry that is put. -/
theorem forall_mem_put {P : Members → Prop} (all : ∀ entry ∈ store.entries, P entry.2)
    {resource : Members} (holds : P resource) :
    ∀ entry ∈ (store.stamped.put id resource).entries, P entry.2 := by
  intro entry held
  rcases mem_putEntry held with old | new | ⟨_, new⟩
  · exact all entry old
  · rw [new]
    exact holds
  · rw [new]
    exact holds

theorem exists_mem_put (store : MemoryStore) (id : Json) (resource : Members) :
    ∃ entry ∈ (store.put id resource).entries, entry.2 = resource := by
  suffices put : ∀ entries, ∃ entry ∈ putEntry id resource entries, entry.2 = resource from
    put store.entries
  intro entries
  induction entries with
  | nil => exact ⟨_, List.mem_singleton_self _, rfl⟩
  | cons entry rest ih =>
      obtain ⟨key, stored⟩ := entry
      rw [putEntry]
      split
      · exact ⟨_, List.mem_cons_self, rfl⟩
      · obtain ⟨entry, held, is⟩ := ih
        exact ⟨entry, List.mem_cons_of_mem _ held, is⟩

theorem Dated.find? (dated : store.Dated) {current : Members}
    (found : store.find? id = some current) : (createdAt current).isArr = false := by
  obtain ⟨entry, entryFound, rfl⟩ := Option.map_eq_some_iff.mp found
  exact dated entry (List.mem_of_find?_eq_some entryFound)

end MemoryStore

/-! ## Calls -/

/-- The resource that a call is to write, if it gets so far: the one that is given, or the stored
one with the requested changes. -/
def WriteCall.payload? (schema : Option ResourceSchema) (store : MemoryStore) :
    WriteCall → Option Members
  | .create resource => resource.members?
  | .replace _ resource _ => resource.members?
  | .patch id request _ =>
    match PatchEntry.ofRequest request, store.find? id with
    | .ok (some entries), some stored => (applyPatch stored entries schema).toOption
    | _, _ => none
  | .delete _ _ => none

namespace Service

variable {service : Service MemoryState}

/-- What a call that leaves one mark does to a store: nothing, a removal, or a write of what it is
to write, stamped and with the last mark kept in each list. -/
inductive Stores (schema : Option ResourceSchema) (store : MemoryStore) (call : WriteCall) :
    MemoryStore → Prop where
  | nothing : Stores schema store call store
  | removal (id : Json) : Stores schema store call (store.erase id)
  | write (payload : Members) (now : String) (id created : Json)
      (meant : call.payload? schema store = some payload) (key : id.isKey = true)
      (dated : store.Dated → created.isArr = false) :
      Stores schema store call
        (store.stamped.put id (store.signed now id created (singlePrimary payload)))

/-- Behind the write a call only presents what it wrote. -/
theorem run_present (service : Service MemoryState) (write : Action MemoryState Json)
    (state : MemoryState) :
    ((write >>= fun written => Action.ofExcept (service.present written)).run state).2 =
      (write.run state).2 := by
  rw [Action.run_bind]
  rcases write.run state with ⟨outcome, after⟩
  cases outcome <;> rfl

theorem prepare_eq_ok (single : service.options.ensureSinglePrimary = true)
    {resource prepared : Json}
    (ready : service.prepare resource = .ok prepared) :
    ∃ payload, resource = .obj payload ∧ prepared = .obj (singlePrimary payload) := by
  unfold prepare at ready
  rw [if_pos single] at ready
  split at ready
  · next payload =>
    cases ready
    exact ⟨payload, rfl, rfl⟩
  · cases ready

section

variable (onMemory : service.adapter = MemoryStore.adapter)
  (single : service.options.ensureSinglePrimary = true)
include onMemory single

theorem stores_create (resource : Json) (supply : Supply) (store : MemoryStore) :
    Stores service.schema store (.create resource)
      ((service.create resource).run (supply, store)).2.2 := by
  rw [create, Action.run_bind, Action.run_ofExcept]
  cases ready : service.prepare resource with
  | error failure => exact .nothing
  | ok prepared =>
      obtain ⟨payload, rfl, rfl⟩ := prepare_eq_ok single ready
      have served := serve_served (.create (.obj (singlePrimary payload))) supply store
      dsimp only
      rw [run_present, onMemory]
      simp only [StoreCall.serve, StoreCall.action] at served
      generalize (MemoryStore.adapter.create (.obj (singlePrimary payload))).run (supply, store) = ran
        at served ⊢
      obtain ⟨outcome, after, store'⟩ := ran
      dsimp only at served ⊢
      cases served with
      | failed => exact .nothing
      | created id _ key => exact .write payload supply.readClock.1 id .null rfl key fun _ => rfl

/-- What is written over a resource is written with the last mark kept in each list. -/
theorem stores_replace {call : WriteCall} {store : MemoryStore} {resource : Json}
    (meant : ∀ payload, resource = .obj payload → call.payload? service.schema store = some payload)
    (id version : Json) (supply : Supply) :
    Stores service.schema store call
      ((service.replace id resource version).run (supply, store)).2.2 := by
  rw [replace, Action.run_bind, Action.run_ofExcept]
  cases ready : service.prepare resource with
  | error failure => exact .nothing
  | ok prepared =>
      obtain ⟨payload, rfl, rfl⟩ := prepare_eq_ok single ready
      have served := serve_served (.replace id (.obj (singlePrimary payload)) version) supply store
      dsimp only
      rw [run_present, onMemory]
      simp only [StoreCall.serve, StoreCall.action] at served
      generalize
        (MemoryStore.adapter.replace id (.obj (singlePrimary payload)) version).run (supply, store) =
          ran at served ⊢
      obtain ⟨outcome, after, store'⟩ := ran
      dsimp only at served ⊢
      cases served with
      | failed => exact .nothing
      | replaced _ _ _ current key found =>
          exact .write payload supply.readClock.1 id _ (meant payload rfl) key (·.find? found)

/-- A change writes the stored resource with the requested changes. -/
theorem stores_patch (id request version : Json) (supply : Supply) (store : MemoryStore) :
    Stores service.schema store (.patch id request version)
      ((service.patch id request version).run (supply, store)).2.2 := by
  rw [patch, beginChange]
  simp only [Action.run_bind, Action.run_ofExcept, onMemory]
  cases requested : PatchEntry.ofRequest request with
  | error failure => exact .nothing
  | ok entries =>
      dsimp only
      rw [run_read]
      cases fetched : store.fetch id with
      | error failure => exact .nothing
      | ok stored =>
          obtain ⟨_, found⟩ := (fetch_eq_ok_iff store id stored).mp fetched
          simp only [Except.map, Action.run_pure, finishChange, Action.run_bind,
            Action.run_ofExcept]
          cases PendingChange.expected ⟨id, .obj stored, version, entries⟩ with
          | error failure => exact .nothing
          | ok expected =>
              cases applied : PendingChange.changed ⟨id, .obj stored, version, entries⟩
                  service.schema with
              | error failure => exact .nothing
              | ok changed =>
                  obtain ⟨listed, patched, rfl, patchedOk, rfl⟩ := changed_obj_eq_ok applied
                  refine stores_replace onMemory single ?_ id expected supply
                  rintro _ ⟨⟩
                  simp only [WriteCall.payload?, requested, found, patchedOk]
                  rfl

omit single in
theorem stores_delete (id version : Json) (supply : Supply) (store : MemoryStore) :
    Stores service.schema store (.delete id version)
      (((WriteCall.delete id version).on service).run (supply, store)).2.2 := by
  have served := serve_served (.delete id version) supply store
  simp only [StoreCall.serve, StoreCall.action, Action.run_bind] at served
  simp only [WriteCall.on, delete, onMemory, Action.run_bind]
  generalize (MemoryStore.adapter.delete id version).run (supply, store) = ran at served ⊢
  obtain ⟨_ | _, after, store'⟩ := ran
  · dsimp only at served ⊢
    cases served with
    | failed => exact .nothing
  · dsimp only at served ⊢
    cases served with
    | deleted => exact .removal id

end

/-! ## Runs -/

/-- The store after a call. -/
def after (service : Service MemoryState) (call : WriteCall) (supply : Supply)
    (store : MemoryStore) : MemoryStore := ((call.on service).run (supply, store)).2.2

/-- The resource that a call was to write, if it wrote.  A write is seen in the number of stamps. -/
def payload? (service : Service MemoryState) (call : WriteCall) (supply : Supply)
    (store : MemoryStore) : Option Members :=
  if (service.after call supply store).stamps = store.stamps then none
  else call.payload? service.schema store

/-- A step of a run of calls: the stores before and after it, and what it was to write between. -/
structure WriteStep where
  before : MemoryStore
  payload : Option Members
  after : MemoryStore

/-- The steps of some calls, each with the supply that it draws on. -/
def steps (service : Service MemoryState) (store : MemoryStore) :
    List (Supply × WriteCall) → List WriteStep
  | [] => []
  | (supply, call) :: rest =>
    ⟨store, service.payload? call supply store, service.after call supply store⟩ ::
      steps service (service.after call supply store) rest

/-- Whether a step that writes puts what it was to write, with the last mark kept in each list and
a stamp, and changes nothing else. -/
def WriteStep.KeepsLastMarks (step : WriteStep) : Prop :=
  ∀ payload, step.payload = some payload → ∃ prepared now id created,
    prepared.MarkedFrom payload ∧
      step.after = step.before.stamped.put id (step.before.signed now id created prepared)

section

variable (onMemory : service.adapter = MemoryStore.adapter)
  (single : service.options.ensureSinglePrimary = true)
include onMemory single

theorem stores_after (call : WriteCall) (supply : Supply) (store : MemoryStore) :
    Stores service.schema store call (service.after call supply store) := by
  cases call with
  | create resource => exact stores_create onMemory single resource supply store
  | replace id resource version =>
      refine stores_replace onMemory single ?_ id version supply
      rintro payload rfl
      rfl
  | patch id request version => exact stores_patch onMemory single id request version supply store
  | delete id version => exact stores_delete onMemory id version supply store

/-- A call leaves the stored resources but those that it removes, or it writes. -/
theorem after_cases (call : WriteCall) (supply : Supply) (store : MemoryStore) :
    service.payload? call supply store = none ∧
        (service.after call supply store).entries ⊆ store.entries ∨
      ∃ payload now id created, service.payload? call supply store = some payload ∧
        id.isKey = true ∧ (store.Dated → created.isArr = false) ∧
        service.after call supply store =
          store.stamped.put id (store.signed now id created (singlePrimary payload)) := by
  have stores := stores_after onMemory single call supply store
  rw [payload?]
  generalize service.after call supply store = after at stores ⊢
  cases stores with
  | nothing => exact .inl ⟨if_pos rfl, List.Subset.refl _⟩
  | removal id => exact .inl ⟨if_pos rfl, List.filter_subset_self _⟩
  | write payload now id created meant key dated =>
      refine .inr ⟨payload, now, id, created, ?_, key, dated, rfl⟩
      rw [put_stamps, stamped_stamps, if_neg (Nat.succ_ne_self _), meant]

/-- What every call keeps of a store: one mark at most in each list at the top. -/
theorem singlyMarked_after {store : MemoryStore} (marked : store.SinglyMarked)
    (dated : store.Dated) (call : WriteCall) (supply : Supply) :
    (service.after call supply store).SinglyMarked ∧ (service.after call supply store).Dated := by
  rcases after_cases onMemory single call supply store with
    ⟨_, fewer⟩ | ⟨payload, now, id, created, _, key, noList, written⟩
  · exact ⟨fun entry held => marked entry (fewer held), fun entry held => dated entry (fewer held)⟩
  · rw [written]
    have datedNow :
        (createdAt (store.signed now id created (singlePrimary payload))).isArr = false := by
      rw [createdAt_signed, Json.orElse]
      split
      · rfl
      · exact noList dated
    have markedNow := singlyMarked_signed store (singlyMarked_singlePrimary payload) key now
      created
    exact ⟨forall_mem_put marked markedNow,
      forall_mem_put (P := fun stored => (createdAt stored).isArr = false) dated datedNow⟩

/-- A call keeps one mark at most in each list in an object exactly if there is one at most in what
it was to write. -/
theorem singlyMarkedWithin_after_iff {store : MemoryStore} (within : store.SinglyMarkedWithin)
    (dated : store.Dated) (call : WriteCall) (supply : Supply) :
    (service.after call supply store).SinglyMarkedWithin ↔
      ∀ payload, service.payload? call supply store = some payload →
        payload.unstamped.SinglyMarkedWithin := by
  rcases after_cases onMemory single call supply store with
    ⟨none, fewer⟩ | ⟨payload, now, id, created, wrote, key, noList, written⟩
  · rw [none]
    exact iff_of_true (fun entry held => within entry (fewer held)) nofun
  · have signedIff := (singlyMarkedWithin_signed_iff store key (noList dated) now).trans
      (singlyMarkedWithin_unstamped_singlePrimary_iff payload)
    rw [wrote, written]
    constructor
    · rintro marked _ ⟨⟩
      obtain ⟨entry, held, is⟩ := exists_mem_put store.stamped id
        (store.signed now id created (singlePrimary payload))
      have stored := marked entry held
      rw [is] at stored
      exact signedIff.mp stored
    · intro marked
      exact forall_mem_put within (signedIff.mpr (marked payload rfl))

theorem keepsLastMarks_steps {store : MemoryStore} (marked : store.SinglyMarked)
    (dated : store.Dated) (calls : List (Supply × WriteCall)) :
    ∀ step ∈ service.steps store calls, step.after.SinglyMarked ∧ step.KeepsLastMarks := by
  induction calls generalizing store with
  | nil => nofun
  | cons request rest ih =>
      obtain ⟨supply, call⟩ := request
      obtain ⟨markedAfter, datedAfter⟩ :=
        singlyMarked_after onMemory single marked dated call supply
      intro step held
      cases List.mem_cons.mp held with
      | inr later => exact ih markedAfter datedAfter step later
      | inl first =>
          subst first
          refine ⟨markedAfter, fun payload wrote => ?_⟩
          dsimp only at wrote
          rcases after_cases onMemory single call supply store with
            ⟨none, _⟩ | ⟨_, now, id, created, meant, _, _, written⟩
          · rw [none] at wrote
            cases wrote
          · rw [meant, Option.some.injEq] at wrote
            subst wrote
            exact ⟨_, now, id, created, markedFrom_singlePrimary _, written⟩

theorem singlyMarkedWithin_steps_iff {store : MemoryStore} (marked : store.SinglyMarked)
    (within : store.SinglyMarkedWithin) (dated : store.Dated) (calls : List (Supply × WriteCall)) :
    (∀ step ∈ service.steps store calls, step.after.SinglyMarkedWithin) ↔
      ∀ step ∈ service.steps store calls, ∀ payload, step.payload = some payload →
        payload.unstamped.SinglyMarkedWithin := by
  induction calls generalizing store with
  | nil => exact iff_of_true nofun nofun
  | cons request rest ih =>
      obtain ⟨supply, call⟩ := request
      obtain ⟨markedAfter, datedAfter⟩ :=
        singlyMarked_after onMemory single marked dated call supply
      have first := singlyMarkedWithin_after_iff onMemory single within dated call supply
      rw [steps, List.forall_mem_cons, List.forall_mem_cons]
      constructor
      · rintro ⟨here, later⟩
        exact ⟨first.mp here, (ih markedAfter here datedAfter).mp later⟩
      · rintro ⟨here, later⟩
        have withinAfter := first.mpr here
        exact ⟨withinAfter, (ih markedAfter withinAfter datedAfter).mpr later⟩

/-- However many calls a service serves that leaves one mark, from an empty store on: no list at
the top of a stored resource has two marked elements, a write keeps the last mark of each list and
changes nothing else, and the lists in objects have one mark at most exactly if they had so in all
that was to be written. -/
theorem marks_of_steps_iff (resourceType : String) (endpoint : Option String) (baseUrl : String)
    (calls : List (Supply × WriteCall)) :
    let steps := service.steps (.empty resourceType endpoint baseUrl) calls
    (∀ step ∈ steps, step.after.SinglyMarked ∧ step.KeepsLastMarks) ∧
      ((∀ step ∈ steps, step.after.SinglyMarkedWithin) ↔
        ∀ step ∈ steps, ∀ payload, step.payload = some payload →
          payload.unstamped.SinglyMarkedWithin) := by
  have marked : (MemoryStore.empty resourceType endpoint baseUrl).SinglyMarked := nofun
  have within : (MemoryStore.empty resourceType endpoint baseUrl).SinglyMarkedWithin := nofun
  have dated : (MemoryStore.empty resourceType endpoint baseUrl).Dated := nofun
  exact ⟨keepsLastMarks_steps onMemory single marked dated calls,
    singlyMarkedWithin_steps_iff onMemory single marked within dated calls⟩

end

/-- A primary element that a change appends takes the mark from the one that has it. -/
theorem marks_of_steps_iff_emails :
    let service := Service.of MemoryStore.adapter (some .user) none { ensureSinglePrimary := true }
    let email (value : String) : Json := .obj [("value", .str value), ("primary", .bool true)]
    let calls : List (Supply × WriteCall) := [
      (.startingOn ⟨2024, 1, 1⟩ 1000001,
        .create (.obj [("id", .str "x"), ("emails", .arr [email "a", email "b"])])),
      (.startingOn ⟨2024, 1, 2⟩ 1000001, .patch (.str "x") (.arr
        [.obj [("op", .str "add"), ("path", .str "emails"), ("value", .arr [email "c"])]]) .null)]
    service.options.ensureSinglePrimary = true ∧
      ((service.steps (.empty "User" none "") calls).map fun step => step.after.entries.map
        fun entry => (Members.attr entry.2 "emails").valuesOf.map isPrimary) =
          [[[false, true]], [[false, false, true]]] ∧
      ∀ step ∈ service.steps (.empty "User" none "") calls, step.after.SinglyMarked := by
  intro service email calls
  have stores : service.adapter = MemoryStore.adapter := rfl
  have single : service.options.ensureSinglePrimary = true := rfl
  have kept := (marks_of_steps_iff stores single "User" none "" calls).1
  exact ⟨single, by decide +kernel, fun step held => (kept step held).1⟩

/-- Two elements of a list in an extension object stay marked. -/
theorem not_singlyMarkedWithin_badges :
    let service := Service.of MemoryStore.adapter (some .user) none { ensureSinglePrimary := true }
    let badge (value : String) : Json := .obj [("value", .str value), ("primary", .bool true)]
    let calls : List (Supply × WriteCall) := [(.startingOn ⟨2024, 1, 1⟩ 1000001,
      .create (.obj [("userName", .str "ann"),
        (enterpriseUserUrn, .obj [("badges", .arr [badge "a", badge "b"])])]))]
    ¬ ∀ step ∈ service.steps (.empty "User" none "") calls, step.after.SinglyMarkedWithin := by
  intro service badge calls within
  have marks : ((service.steps (.empty "User" none "") calls).map fun step =>
      step.after.entries.map fun entry => ((get? entry.2 enterpriseUserUrn).bind Json.members?).bind
        fun object => (get? object "badges").map fun badges =>
          (Patch.itemsOf badges).countP isPrimary) = [[some 2]] := by decide +kernel
  have here := List.mem_singleton_self [some 2]
  rw [← marks] at here
  obtain ⟨step, held, entries⟩ := List.mem_map.mp here
  have two := List.mem_singleton_self (some 2)
  rw [← entries] at two
  obtain ⟨entry, stored, counted⟩ := List.mem_map.mp two
  obtain ⟨object, isObject, counted⟩ := Option.bind_eq_some_iff.mp counted
  obtain ⟨badges, heldBadges, count⟩ := Option.map_eq_some_iff.mp counted
  obtain ⟨value, heldObject, is⟩ := Option.bind_eq_some_iff.mp isObject
  cases value with
  | obj members =>
      cases is
      cases badges with
      | arr items =>
          have one : items.countP isPrimary ≤ 1 :=
            within step held entry stored _ _ heldObject _ _ heldBadges
          have two : items.countP isPrimary = 2 := count
          omega
      | _ => cases count
  | _ => cases is

end Service

end Scim
