import Scim.Proofs.Sync.Effects
import Scim.Proofs.Sync.Paging

/-!
# The passes of a reconciliation

A reconciliation reads off the ids of its target, copies the resources of its source and deletes
the orphans.  Between two memory stores of a pool each of these passes succeeds.  The theorems here
say what it leaves in the stores and in the report.
-/

namespace Scim

open Members MemoryStore

variable {ι : Type} [DecidableEq ι]

/-! ## Calls of a service over a store of a pool -/

namespace Service.InPool

variable {service : Service (Pool ι)} {i : ι} (inPool : service.InPool i)
include inPool

theorem lists : service.adapter.Lists fun pool : Pool ι => (pool.store i).resources := by
  rw [inPool.adapter]
  exact MemoryStore.lists.zoom (Pool.memory i)

/-- The service lists its store also where something else is kept beside the pool. -/
theorem lists_beside (τ : Type) : (service.zoom Slot.first).adapter.Lists
    fun state : Pool ι × τ => (state.1.store i).resources := inPool.lists.zoom Slot.first

variable {pool : Pool ι} {text : String}

theorem get_run {stored : Members} (found : (pool.store i).find? (.str text) = some stored) :
    (service.get (.str text)).run pool =
      (.ok (.obj (without stored (hiddenNames service.schema))), pool) := by
  have schema : IsStandard service.schema := inPool.schema
  have fetched : (pool.store i).fetch (.str text) = .ok stored :=
    (fetch_eq_ok_iff ..).mpr ⟨rfl, found⟩
  have ran : (MemoryStore.adapter.read (.str text)).run ((Pool.memory i).get pool) =
      (.ok (.obj stored), (Pool.memory i).get pool) := by
    change ((pool.store i).fetch (.str text) |>.map Json.obj, _) = _
    rw [fetched]
    rfl
  have read : (service.adapter.read (.str text)).run pool = (.ok (.obj stored), pool) := by
    rw [inPool.adapter]
    exact (Action.run_zoom_of_run _ ran).trans (Prod.ext rfl ((Pool.memory i).set_get pool))
  rw [Service.get, Action.run_bind_ok read, Action.run_ofExcept]
  exact Prod.ext (schema.project_eq stored) rfl

theorem delete_run {stored : Members} (found : (pool.store i).find? (.str text) = some stored) :
    (service.delete (.str text)).run pool =
      (.ok (), (Pool.memory i).set (pool.supply, (pool.store i).erase (.str text)) pool) := by
  rw [Service.delete, inPool.adapter]
  exact Action.run_zoom_of_run (Pool.memory i) (run_delete rfl found pool.supply)

end Service.InPool

namespace Reconciliation

/-! ## Copying -/

/-- A report to which copies under some texts are added. -/
def copiedTo (before : IdSet) (texts : List String) (report : ReconciliationReport) :
    ReconciliationReport :=
  { report with
    created := report.created ++ (texts.map .str).filter (!before.has ·)
    updated := report.updated ++ (texts.map .str).filter (before.has ·) }

/-- A resource that can be copied under a text: it has the text as its id, and no two names of it
are spellings of one name. -/
structure Copyable (item : String × Members) : Prop where
  nonempty : item.1 ≠ ""
  named : attr? item.2 "id" = some (.str item.1)
  distinct : Distinct item.2

theorem copiedTo_append (before : IdSet) (first last : List String)
    (report : ReconciliationReport) :
    copiedTo before (first ++ last) report =
      copiedTo before last (copiedTo before first report) := by
  simp [copiedTo]

section

variable {target : Service (Pool ι)} {j : ι} (inPool : target.InPool j)
include inPool

/-- A copy leaves all other stores alone. -/
theorem copy_store {i : ι} (apart : i ≠ j) (before : IdSet) (resource : Json)
    (state : Pool ι × ReconciliationReport) :
    ((copy target before resource).run state).2.1.store i = state.1.store i := by
  obtain ⟨pool, report⟩ := state
  obtain ⟨alone, _, _, rfl⟩ := inPool.exists_alone
  -- what the target writes, it writes to the store of its own name
  have writes (action : Action MemoryState Json)
      (note : Action (Pool ι × ReconciliationReport) Unit)
      (notes : ∀ state, (note.run state).2.1 = state.1) :
      (((action.zoom (Pool.memory j)).zoom Slot.first >>= fun _ => note).run
        (pool, report)).2.1.store i = pool.store i := by
    have kept := Pool.updated_of_ne pool.store (action.run (pool.supply, pool.store j)).2.2 apart
    rw [Action.run_bind, Action.run_zoom_first, Action.run_zoom]
    dsimp only
    cases (action.run ((Pool.memory j).get pool)).1 with
    | error failure => exact kept
    | ok _ =>
        dsimp only
        rw [notes]
        exact kept
  rw [copy, Action.run_bind, Action.run_ofExcept]
  cases resource.attrOf "id" with
  | error failure => rfl
  | ok id =>
      dsimp only
      split
      · rfl
      split
      · rfl
      split
      · rw [Service.replace_zoom]
        exact writes _ _ fun _ => rfl
      · rw [Service.create_zoom]
        exact writes _ _ fun _ => rfl

theorem copyAll_store {i : ι} (apart : i ≠ j) (before : IdSet) (resources : List Json)
    (state : Pool ι × ReconciliationReport) :
    ((copyAll target before resources).run state).2.1.store i = state.1.store i := by
  induction resources generalizing state with
  | nil => rfl
  | cons resource rest ih =>
      have first := copy_store inPool apart before resource state
      rw [copyAll, Action.run_bind]
      generalize (copy target before resource).run state = ran at first
      obtain ⟨outcome, after⟩ := ran
      cases outcome with
      | error failure => exact first
      | ok _ => exact (ih after).trans first

omit inPool in
/-- A write that puts the payload of a resource under its text, with a note of it in the report. -/
theorem run_noted {action : Action MemoryState Json} {text : String} {original : Members}
    (copyable : Copyable (text, original)) {pool : Pool ι}
    (puts : Puts pool.supply (pool.store j) (.str text) (delAttr original "meta") action)
    (note : ReconciliationReport → ReconciliationReport) (report : ReconciliationReport) :
    ∃ supply written, IsCopy original written ∧
      ((action.zoom (Pool.memory j)).zoom Slot.first >>= fun _ =>
        modify fun state => (state.1, note state.2)).run (pool, report) =
        (.ok (), (Pool.memory j).set (supply, (pool.store j).stamped.put (.str text) written) pool,
          note report) := by
  obtain ⟨result, supply, now, created, ran⟩ := puts
  refine ⟨supply, _, isCopy_signed copyable.distinct copyable.named (pool.store j) now created, ?_⟩
  have inPool := Action.run_zoom_of_run (Pool.memory j) ran
  rw [Action.run_bind_ok (Action.run_zoom_of_run Slot.first inPool)]
  rfl

variable (lenient : target.options.ensureSinglePrimary = false)
include lenient

/-- Copying a resource puts a copy of it into the store, and the report says whether the store had
one before. -/
theorem copy_run {before : IdSet} {item : String × Members} (copyable : Copyable item)
    {pool : Pool ι}
    (known : before.has (.str item.1) = ((pool.store j).find? (.str item.1)).isSome)
    (report : ReconciliationReport) :
    ∃ supply written, IsCopy item.2 written ∧
      (copy target before (.obj item.2)).run (pool, report) =
        (.ok (), (Pool.memory j).set
          (supply, (pool.store j).stamped.put (.str item.1) written) pool,
            copiedTo before [item.1] report) := by
  obtain ⟨text, original⟩ := item
  obtain ⟨alone, standard, options, rfl⟩ := inPool.exists_alone
  have stated : (Json.obj original).attrOf "id" = .ok (.str text) := by
    rw [Json.attrOf, attr, copyable.named]
    rfl
  have given : (Json.str text).isVoid = false := by simpa [Json.isVoid] using copyable.nonempty
  have key : (!(Json.str text).isKey) = false := rfl
  have own : attr (delAttr original "meta") "id" = .str text := by
    rw [attr, attr?_congr (spellings_delAttr original (by decide)), copyable.named]
    rfl
  rw [copy, Action.run_bind, Action.run_ofExcept, stated]
  dsimp only
  rw [given, key, if_neg Bool.false_ne_true, if_neg Bool.false_ne_true]
  cases found : (pool.store j).find? (.str text) with
  | none =>
      have puts := standard.puts_create lenient own rfl given found pool.supply
      have new : before.has (.str text) = false := by rw [known, found, Option.isSome_none]
      have counted : copiedTo before [text] report =
          { report with created := report.created ++ [.str text] } := by simp [copiedTo, new]
      rw [new, if_neg Bool.false_ne_true, Service.create_zoom, counted]
      exact run_noted copyable puts
        (fun report => { report with created := report.created ++ [.str text] }) report
  | some current =>
      have puts := standard.puts_replace lenient rfl found (delAttr original "meta") pool.supply
      have common : before.has (.str text) = true := by rw [known, found, Option.isSome_some]
      have counted : copiedTo before [text] report =
          { report with updated := report.updated ++ [.str text] } := by simp [copiedTo, common]
      rw [common, if_pos rfl, Service.replace_zoom, counted]
      exact run_noted copyable puts
        (fun report => { report with updated := report.updated ++ [.str text] }) report

/-- Copying some resources under distinct texts puts a copy of each into the store, and the report
says which of them it had before. -/
theorem copyAll_run {before : IdSet} {items : List (String × Members)}
    (copyable : ∀ item ∈ items, Copyable item) (nodup : (items.map (·.1)).Nodup) {pool : Pool ι}
    (known : ∀ item ∈ items,
      before.has (.str item.1) = ((pool.store j).find? (.str item.1)).isSome)
    (report : ReconciliationReport) :
    ∃ supply after, Copied items (pool.store j) after ∧
      (copyAll target before (items.map fun item => .obj item.2)).run (pool, report) =
        (.ok (), (Pool.memory j).set (supply, after) pool,
          copiedTo before (items.map (·.1)) report) := by
  induction items generalizing pool report with
  | nil =>
      refine ⟨pool.supply, pool.store j, .nil _, ?_⟩
      have unchanged : copiedTo before [] report = report := by simp [copiedTo]
      have same := (Pool.memory j).set_get pool
      exact Prod.ext rfl (Prod.ext same.symm unchanged.symm)
  | cons item rest ih =>
      obtain ⟨itemCopyable, restCopyable⟩ := List.forall_mem_cons.mp copyable
      obtain ⟨itemKnown, restKnown⟩ := List.forall_mem_cons.mp known
      rw [List.map_cons, List.nodup_cons] at nodup
      obtain ⟨supply, written, isCopy, ran⟩ :=
        copy_run inPool lenient itemCopyable itemKnown report
      let middle := (Pool.memory j).set
        (supply, (pool.store j).stamped.put (.str item.1) written) pool
      have stored : middle.store j = (pool.store j).stamped.put (.str item.1) written :=
        Pool.updated_self ..
      have known : ∀ other ∈ rest,
          before.has (.str other.1) = ((middle.store j).find? (.str other.1)).isSome := by
        intro other held
        have differs : item.1 ≠ other.1 := by
          intro same
          exact nodup.1 (same ▸ List.mem_map_of_mem held)
        rw [stored, find?_put_text, if_neg differs, find?_stamped]
        exact restKnown other held
      obtain ⟨last, after, copied, later⟩ :=
        ih restCopyable nodup.2 known (copiedTo before [item.1] report)
      rw [stored] at copied
      refine ⟨last, after, .cons isCopy copied, ?_⟩
      rw [List.map_cons, copyAll, Action.run_bind_ok ran, later, ← copiedTo_append,
        (Pool.memory j).set_set]
      rfl

end

/-! ## Deleting -/

/-- Deleting resources that are there takes them away. -/
theorem deleteAll_run {target : Service (Pool ι)} {j : ι} (inPool : target.InPool j)
    {texts : List String} (nodup : texts.Nodup) {pool : Pool ι}
    (held : ∀ text ∈ texts, .str text ∈ (pool.store j).ids) (report : ReconciliationReport) :
    (deleteAll target (texts.map .str)).run (pool, report) =
      (.ok (), (Pool.memory j).set (pool.supply, (pool.store j).eraseAll texts) pool,
        { report with deleted := report.deleted ++ texts.map .str }) := by
  induction texts generalizing pool report with
  | nil =>
      have unchanged : { report with deleted := report.deleted ++ [] } = report := by simp
      have same := (Pool.memory j).set_get pool
      exact Prod.ext rfl (Prod.ext same.symm unchanged.symm)
  | cons text rest ih =>
      obtain ⟨textHeld, restHeld⟩ := List.forall_mem_cons.mp held
      rw [List.nodup_cons] at nodup
      obtain ⟨stored, found⟩ := ((pool.store j).mem_ids_iff text).mp textHeld
      have deleted := inPool.delete_run found
      have left : ∀ other ∈ rest, .str other ∈ ((pool.store j).erase (.str text)).ids := by
        intro other inRest
        have differs : Json.str other ≠ .str text := by
          rintro ⟨⟩
          exact nodup.1 inRest
        rw [ids_erase, List.mem_filter]
        exact ⟨restHeld other inRest, by simpa [← Json.same_str_iff] using differs⟩
      let middle := (Pool.memory j).set (pool.supply, (pool.store j).erase (.str text)) pool
      have stored : middle.store j = (pool.store j).erase (.str text) := Pool.updated_self ..
      have later := ih nodup.2 (stored ▸ left)
        { report with deleted := report.deleted ++ [.str text] }
      rw [List.map_cons, deleteAll, Action.run_bind_ok (Action.run_zoom_of_run Slot.first deleted)]
      refine later.trans ?_
      rw [stored, (Pool.memory j).set_set]
      refine Prod.ext rfl (Prod.ext rfl ?_)
      simp

/-! ## The ids of the target -/

theorem has_iff (texts : List String) (text : String) :
    IdSet.has (texts.map .str) (.str text) = true ↔ text ∈ texts := by
  simp [IdSet.has, Json.containedIn, Json.same]

theorem insertAll_append (ids : IdSet) (first last : List Json) :
    ids.insertAll (first ++ last) = ids.insertAll first >>= (·.insertAll last) := by
  induction first generalizing ids with
  | nil => rfl
  | cons resource rest ih =>
      rw [List.cons_append, IdSet.insertAll, IdSet.insertAll]
      cases resource.attrOf "id" with
      | error failure => rfl
      | ok id =>
          change (if id.isVoid then _ else _) = (if id.isVoid then _ else _) >>= _
          cases id.isVoid with
          | true => exact ih ids
          | false =>
              change (ids.insert id >>= _) = (ids.insert id >>= _) >>= _
              cases ids.insert id with
              | error failure => rfl
              | ok more => exact ih more

/-- Resources with distinct texts as their ids put these into a set. -/
theorem insertAll_texts {texts : List String} {resources : List Json}
    (named : List.Forall₂ (fun text resource => resource.attrOf "id" = .ok (.str text)) texts
      resources) (nonempty : ∀ text ∈ texts, text ≠ "") (before : List String)
    (nodup : (before ++ texts).Nodup) :
    IdSet.insertAll (before.map .str) resources = .ok ((before ++ texts).map .str) := by
  induction named generalizing before with
  | nil => rw [List.append_nil]; rfl
  | @cons text resource texts resources first _ ih =>
      obtain ⟨textNonempty, othersNonempty⟩ := List.forall_mem_cons.mp nonempty
      have new : IdSet.has (before.map .str) (.str text) = false := by
        rw [Bool.eq_false_iff, Ne, has_iff]
        intro held
        exact (List.nodup_append.mp nodup).2.2 text held text List.mem_cons_self rfl
      have given : (Json.str text).isVoid = false := by simpa [Json.isVoid] using textNonempty
      have inserted : IdSet.insert (before.map .str) (.str text) =
          .ok ((before ++ [text]).map .str) := by
        have key : (!(Json.str text).isKey) = false := rfl
        rw [IdSet.insert, key, new, List.map_append]
        rfl
      rw [IdSet.insertAll, first]
      change (if (Json.str text).isVoid then _ else _) = _
      rw [given, if_neg Bool.false_ne_true, inserted]
      have later := ih othersNonempty (before ++ [text]) (by simpa using nodup)
      rw [List.append_assoc] at later
      exact later

/-- What is presented of resources if only their ids are asked for. -/
theorem present_ids {schema : Option ResourceSchema} (standard : IsStandard schema)
    {items : List (String × Members)}
    (named : ∀ item ∈ items, attr? item.2 "id" = some (.str item.1)) :
    ∃ shown, ({ attributes := ["id"] } : QuerySpec).present schema
        (items.map fun item => .obj item.2) = .ok shown ∧
      List.Forall₂ (fun text resource => resource.attrOf "id" = .ok (.str text))
        (items.map (·.1)) shown := by
  induction items with
  | nil => exact ⟨[], rfl, .nil⟩
  | cons item rest ih =>
      obtain ⟨itemNamed, restNamed⟩ := List.forall_mem_cons.mp named
      obtain ⟨others, presented, later⟩ := ih restNamed
      obtain ⟨first, projected, id⟩ := standard.project_id itemNamed
      refine ⟨.obj first :: others, ?_, .cons (congrArg Except.ok id) later⟩
      rw [QuerySpec.present] at presented ⊢
      rw [List.map_cons, List.mapM_cons, projected, presented]
      rfl

/-- Puts the ids of some resources into a set beside the state. -/
def collect {σ : Type} (resources : List Json) : Action (σ × IdSet) Unit := do
  let (_, ids) ← get
  let ids ← Action.ofExcept (ids.insertAll resources)
  modify fun (state, _) => (state, ids)

theorem collect_run {σ : Type} (resources : List Json) (state : σ) (ids : IdSet) :
    (collect resources).run (state, ids) =
      match ids.insertAll resources with
      | .ok more => (.ok (), (state, more))
      | .error failure => (.error failure, (state, ids)) := by
  rw [collect, Action.run_bind, Action.run_get]
  dsimp only
  rw [Action.run_bind, Action.run_ofExcept]
  cases ids.insertAll resources <;> rfl

theorem collect_state {σ : Type} {resources : List Json} {state after : σ × IdSet}
    (visited : (collect resources).run state = (.ok (), after)) : after.1 = state.1 := by
  rw [collect_run] at visited
  split at visited
  · cases visited
    rfl
  · cases visited

theorem splits_collect {σ : Type} : Walk.Splits (collect (σ := σ)) where
  nil := rfl
  append := by
    rintro first last ⟨state, ids⟩ after visited
    rw [collect_run, insertAll_append] at visited
    cases inserted : ids.insertAll first with
    | error failure =>
        rw [inserted] at visited
        cases visited
    | ok more =>
        refine ⟨(state, more), by rw [collect_run, inserted], ?_⟩
        rw [inserted] at visited
        rw [collect_run]
        change (match more.insertAll last with | .ok more => _ | .error failure => _) = _ at visited
        cases rest : more.insertAll last with
        | error failure =>
            rw [rest] at visited
            cases visited
        | ok all =>
            rw [rest] at visited
            exact visited

/-- Reading off the ids of a service is a walk that collects them. -/
theorem allIds_of_walk {σ : Type} {service : Service σ} {size : Int} {budget : Nat}
    {state after : σ} {ids : IdSet}
    (walked : (Walk.pages (service.zoom .first) { attributes := ["id"] } size collect budget).run
      (state, []) = (.ok (), (after, ids))) :
    (allIds service size budget).run state = (.ok ids, after) := by
  unfold allIds Action.run
  extract_lets visit walk
  beta_reduce
  rw [show walk (state, []) = _ from walked]

/-- The ids of a service over a store of a pool are those of the store. -/
theorem allIds_run {service : Service (Pool ι)} {i : ι} (inPool : service.InPool i)
    (limit : ∀ limit, service.options.maxResults = some limit → 1 ≤ limit) {size : Int}
    (positive : 1 ≤ size) {pool : Pool ι} {items : List (String × Members)}
    (holds : (pool.store i).Holds items) {budget : Nat} (enough : items.length < budget) :
    (allIds service size budget).run pool = (.ok ((items.map (·.1)).map .str), pool) := by
  obtain ⟨shown, presented, named⟩ := present_ids inPool.schema holds.named
  have nonempty : ∀ text ∈ items.map (·.1), text ≠ "" := List.forall_mem_map.mpr holds.nonempty
  have visited : (collect shown).run (pool, []) =
      (.ok (), (pool, (items.map (·.1)).map .str)) := by
    have inserted := insertAll_texts named nonempty [] holds.nodup
    rw [collect_run]
    rw [List.map_nil, List.nil_append] at inserted
    rw [inserted]
  refine allIds_of_walk ?_
  have shownStill : ∀ state : Pool ι × IdSet, state.1.store i = pool.store i →
      ({ attributes := ["id"] } : QuerySpec).present service.schema (state.1.store i).resources =
        .ok shown := by
    intro state kept
    rw [kept, holds.resources_eq]
    exact presented
  have enough : shown.length < budget := by
    rw [← named.length_eq, List.length_map]
    exact enough
  have keeps : ∀ part (state after : Pool ι × IdSet), state.1.store i = pool.store i →
      (collect part).run state = (.ok (), after) → after.1.store i = pool.store i := by
    intro part state after kept ran
    rw [collect_state ran, kept]
  exact Walk.pages_run (inPool.lists_beside IdSet) ⟨rfl, rfl⟩ shownStill positive limit
    splits_collect keeps rfl enough visited

theorem splits_copyAll {σ : Type} (target : Service σ) (before : IdSet) :
    Walk.Splits (copyAll target before) where
  nil := rfl
  append := by
    intro first last state after ran
    induction first generalizing state with
    | nil => exact ⟨state, rfl, ran⟩
    | cons resource rest ih =>
        rw [List.cons_append, copyAll] at ran
        obtain ⟨_, middle, copied, later⟩ := Action.run_bind_eq_ok_iff.mp ran
        obtain ⟨between, restRan, lastRan⟩ := ih later
        exact ⟨between, by rw [copyAll, Action.run_bind_ok copied, restRan], lastRan⟩

end Reconciliation

end Scim
