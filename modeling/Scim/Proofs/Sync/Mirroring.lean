import Scim.Proofs.Sync.Passes

/-!
# A reconciliation mirrors its source

Between two memory stores of a pool a reconciliation always succeeds, in pages of any size.
The target has the resources of the source afterwards, apart from their `meta` attributes,
and the report says which of them were new, which the target had and what was deleted.
-/

namespace Scim

open Members MemoryStore

variable {ι : Type} [DecidableEq ι]

namespace Reconciliation

/-! ## What is presented of a source -/

/-- The resources of a source as it presents them. -/
def presented (schema : Option ResourceSchema) (items : List (String × Members)) :
    List (String × Members) :=
  items.map fun item => (item.1, without item.2 (hiddenNames schema))

section

variable (schema : Option ResourceSchema) (items : List (String × Members))

theorem texts_presented : (presented schema items).map (·.1) = items.map (·.1) := by
  rw [presented, List.map_map]
  rfl

theorem mem_presented {text : String} {shown : Members}
    (held : (text, shown) ∈ presented schema items) :
    ∃ stored, (text, stored) ∈ items ∧ shown = without stored (hiddenNames schema) := by
  obtain ⟨⟨_, stored⟩, inItems, same⟩ := List.mem_map.mp held
  cases same
  exact ⟨stored, inItems, rfl⟩

variable {schema} {items}

theorem present_eq (standard : IsStandard schema) :
    ({} : QuerySpec).present schema (items.map fun item => .obj item.2) =
      .ok ((presented schema items).map fun item => .obj item.2) := by
  rw [QuerySpec.present]
  induction items with
  | nil => rfl
  | cons item rest ih =>
      rw [List.map_cons, List.mapM_cons, standard.project_eq, ih]
      rfl

theorem copyable_presented (standard : IsStandard schema) {store : MemoryStore}
    (holds : store.Holds items) (distinct : ∀ item ∈ items, Distinct item.2) :
    ∀ item ∈ presented schema items, Copyable item := by
  rintro ⟨text, shown⟩ held
  obtain ⟨stored, inItems, rfl⟩ := mem_presented schema items held
  have named := holds.named (text, stored) inItems
  have shownNamed := (attr?_congr (standard.spellings_id stored)).trans named
  exact ⟨holds.nonempty (text, stored) inItems, shownNamed,
    (distinct _ inItems).of_sublist (without_sublist ..)⟩

end

/-! ## Reports -/

/-- The texts under which a target holds resources that a source lacks, in ascending order. -/
def orphanTexts (source target : List String) : List String :=
  (target.filter (· ∉ source)).mergeSort fun a b => !(b < a)

/-- The report of a run from the ids of a source and of a target, with or without the deletion of
orphans. -/
def reportOf (source target : List String) (orphans : Bool) : ReconciliationReport where
  created := (source.filter (· ∉ target)).map .str
  updated := (source.filter (· ∈ target)).map .str
  deleted := if orphans then (orphanTexts source target).map .str else []

section

variable {source target : List String}

theorem mem_orphanTexts {text : String} :
    text ∈ orphanTexts source target ↔ text ∈ target ∧ text ∉ source := by
  simp [orphanTexts]

theorem nodup_orphanTexts (nodup : target.Nodup) : (orphanTexts source target).Nodup :=
  (List.mergeSort_perm ..).nodup_iff.mpr (nodup.filter _)

theorem notBefore_iff (a b : String) : (!decide (b < a)) = true ↔ a ≤ b := by
  rw [Bool.not_eq_true', decide_eq_false_iff_not, String.not_lt]

/-- Orphans stand in ascending order. -/
theorem pairwise_orphanTexts (nodup : target.Nodup) :
    (orphanTexts source target).Pairwise (· < ·) := by
  have ordered : (orphanTexts source target).Pairwise fun a b => (!decide (b < a)) = true := by
    refine List.pairwise_mergeSort (fun a b c first second => ?_) (fun a b => ?_) _
    · rw [notBefore_iff] at first second ⊢
      exact String.le_trans first second
    · rw [Bool.or_eq_true, notBefore_iff, notBefore_iff]
      exact String.le_total a b
  refine (ordered.and (nodup_orphanTexts nodup)).imp fun ⟨notAfter, differ⟩ => ?_
  rw [notBefore_iff] at notAfter
  exact String.not_le.mp fun notBefore => differ (String.le_antisymm notAfter notBefore)

theorem has_texts (texts : List String) (text : String) :
    IdSet.has (texts.map .str) (.str text) = decide (text ∈ texts) := by
  rw [Bool.eq_iff_iff, has_iff, decide_eq_true_iff]

theorem copiedTo_eq : copiedTo (target.map .str) source {} = reportOf source target false := by
  have new : (fun id => !IdSet.has (target.map .str) id) ∘ Json.str =
      fun text => decide (text ∉ target) := by
    funext text
    simp [has_texts]
  have common : (fun id => IdSet.has (target.map .str) id) ∘ Json.str =
      fun text => decide (text ∈ target) := by
    funext text
    simp [has_texts]
  rw [copiedTo, List.filter_map, List.filter_map, new, common]
  rfl

/-- What a target held and a source lacks is found from the report about the copies. -/
theorem without_copied :
    IdSet.without (target.map .str)
      ((reportOf source target false).created ++ (reportOf source target false).updated) =
      (target.filter (· ∉ source)).map .str := by
  have copied (text : String) : IdSet.has ((reportOf source target false).created ++
      (reportOf source target false).updated) (.str text) = decide (text ∈ source) := by
    rw [reportOf, ← List.map_append, has_texts, decide_eq_decide, List.mem_append, List.mem_filter,
      List.mem_filter]
    by_cases held : text ∈ target <;> simp [held]
  rw [IdSet.without, List.filter_map]
  congr 1
  refine List.filter_congr fun text _ => ?_
  simp [copied]

theorem sorted_orphans :
    IdSet.sorted ((target.filter (· ∉ source)).map .str) =
      .ok ((orphanTexts source target).map .str) := by
  have texts : ((target.filter (· ∉ source)).map Json.str).all Json.isStr = true := by
    simp [Json.isStr]
  have ordered := List.map_mergeSort (r := fun a b : String => !decide (b < a))
    (s := IdSet.comesFirst) (f := Json.str) (l := target.filter (· ∉ source)) fun a _ b _ => rfl
  rw [IdSet.sorted, texts, Bool.true_or, if_pos rfl, orphanTexts, ordered]

end

/-! ## The store of the target after a run -/

/-- What is known of two stores before a run: which resources they hold, and that no two names of a
resource of the source are spellings of one name. -/
structure Contents (first second : MemoryStore) (sources targets : List (String × Members)) :
    Prop where
  sourceHolds : first.Holds sources
  targetHolds : second.Holds targets
  distinct : ∀ item ∈ sources, Distinct item.2

/-- A store with copies, without orphans if these are to be deleted. -/
def settled (sources targets : List (String × Members)) (orphans : Bool) (copies : MemoryStore) :
    MemoryStore :=
  if orphans then copies.eraseAll (orphanTexts (sources.map (·.1)) (targets.map (·.1))) else copies

section

variable {first second copies : MemoryStore} {sources targets : List (String × Members)}
  (contents : Contents first second sources targets) {schema : Option ResourceSchema}
  (copied : Copied (presented schema sources) second copies)

theorem find?_settled {text : String} (notOrphan : text ∉ targets.map (·.1) ∨
    text ∈ sources.map (·.1)) (orphans : Bool) :
    (settled sources targets orphans copies).find? (.str text) = copies.find? (.str text) := by
  cases orphans with
  | false => rfl
  | true =>
      refine find?_eraseAll_of_absent fun orphan => ?_
      obtain ⟨held, missing⟩ := mem_orphanTexts.mp orphan
      exact notOrphan.elim (· held) missing

include copied

/-- What the target held before a run and the source lacks is left as it was. -/
theorem find?_orphan {text : String} (missing : text ∉ sources.map (·.1)) :
    (settled sources targets false copies).find? (.str text) = second.find? (.str text) := by
  rw [settled, if_neg Bool.false_ne_true]
  refine copied.find?_of_absent ?_
  rwa [texts_presented]

include contents

/-- Under each text of the source there is a copy of what the source presents. -/
theorem exists_copy {item : String × Members} (held : item ∈ sources) (orphans : Bool) :
    ∃ copy, (settled sources targets orphans copies).find? (.str item.1) = some copy ∧
      IsCopy (without item.2 (hiddenNames schema)) copy := by
  have nodup : ((presented schema sources).map (·.1)).Nodup := by
    rw [texts_presented]
    exact contents.sourceHolds.nodup
  have shown : (item.1, without item.2 (hiddenNames schema)) ∈ presented schema sources :=
    List.mem_map_of_mem (f := fun item : String × Members =>
      (item.1, without item.2 (hiddenNames schema))) held
  rw [find?_settled (.inr (List.mem_map_of_mem held))]
  exact copied.find?_of_mem nodup shown

theorem mem_ids_settled (orphans : Bool) (id : Json) :
    id ∈ (settled sources targets orphans copies).ids ↔
      id ∈ first.ids ∨ orphans = false ∧ id ∈ second.ids := by
  have copies_ids : id ∈ copies.ids ↔ id ∈ second.ids ∨ id ∈ first.ids := by
    rw [copied.mem_ids, contents.sourceHolds.ids_eq, ← texts_presented schema sources,
      List.map_map]
    rfl
  cases orphans with
  | false => simp [settled, copies_ids, or_comm]
  | true =>
      have orphan : id ∈ (orphanTexts (sources.map (·.1)) (targets.map (·.1))).map .str ↔
          id ∈ second.ids ∧ id ∉ first.ids := by
        rw [contents.sourceHolds.ids_eq, contents.targetHolds.ids_eq]
        cases id with
        | str text => simp [orphanTexts]
        | _ => simp
      rw [settled, if_pos rfl, mem_ids_eraseAll, copies_ids, orphan]
      by_cases held : id ∈ first.ids <;> simp [held]

theorem keyed_settled (standard : IsStandard schema) (orphans : Bool) :
    (settled sources targets orphans copies).Keyed := by
  have copyable := copyable_presented standard contents.sourceHolds contents.distinct
  have keyed : copies.Keyed := by
    refine copied.keyed contents.targetHolds.keyed fun item held =>
      ⟨(copyable item held).nonempty, ?_⟩
    rw [attr, (copyable item held).named, Option.getD_some]
  cases orphans with
  | false => exact keyed
  | true => exact keyed.eraseAll

theorem length_settled_le (orphans : Bool) :
    (settled sources targets orphans copies).ids.length ≤ second.ids.length + first.ids.length := by
  have most := copied.length_ids_le
  rw [presented, List.length_map] at most
  have count := contents.sourceHolds.length_ids
  cases orphans with
  | false =>
      rw [settled, if_neg Bool.false_ne_true]
      omega
  | true =>
      have fewer := length_ids_eraseAll_le copies
        (orphanTexts (sources.map (·.1)) (targets.map (·.1)))
      rw [settled, if_pos rfl]
      omega

end

/-! ## Runs between two stores of a pool -/

/-- A run is a walk after the ids of the target were read off, with the deletion of orphans. -/
theorem run_of_walk {σ : Type} {source target : Service σ} {size : Int} {orphans : Bool}
    {budget : Nat} {state middle after : σ} {before : IdSet} {report : ReconciliationReport}
    (ids : (allIds target size budget).run state = (.ok before, middle))
    (walked : (Walk.pages (source.zoom .first) {} size (copyAll target before) budget >>= fun _ =>
      if orphans then deleteOrphans target before else pure ()).run (middle, {}) =
        (.ok (), (after, report))) :
    (run source target size orphans budget).run state = (.ok report, after) := by
  rw [run, Action.run_bind_ok ids]
  unfold Action.run
  extract_lets action
  beta_reduce
  rw [show action (middle, {}) = _ from walked]

/-- Two services of users or two of groups over different stores of a pool, with lists of at least
one resource.  The target leaves what is marked as primary as it is. -/
structure Setting (source target : Service (Pool ι)) (i j : ι) : Prop where
  sourceInPool : source.InPool i
  targetInPool : target.InPool j
  apart : i ≠ j
  sameSchema : target.schema = source.schema
  lenient : target.options.ensureSinglePrimary = false
  sourceLimit : ∀ limit, source.options.maxResults = some limit → 1 ≤ limit
  targetLimit : ∀ limit, target.options.maxResults = some limit → 1 ≤ limit

section

variable {source target : Service (Pool ι)} {i j : ι} (setting : Setting source target i j)
  {size : Int} (positive : 1 ≤ size) {pool : Pool ι} {sources targets : List (String × Members)}
  (contents : Contents (pool.store i) (pool.store j) sources targets) {budget : Nat}
include setting positive contents

/-- The walk through the source copies all that it presents. -/
theorem walk_run (enough : sources.length < budget) :
    ∃ supply copies, Copied (presented source.schema sources) (pool.store j) copies ∧
      (Walk.pages (source.zoom .first) {} size
        (copyAll target ((targets.map (·.1)).map .str)) budget).run (pool, {}) =
        (.ok (), ((Pool.memory j).set (supply, copies) pool,
          reportOf (sources.map (·.1)) (targets.map (·.1)) false)) := by
  have standard : IsStandard source.schema := setting.sourceInPool.schema
  have copyable := copyable_presented standard contents.sourceHolds contents.distinct
  have nodup : ((presented source.schema sources).map (·.1)).Nodup := by
    rw [texts_presented]
    exact contents.sourceHolds.nodup
  have known : ∀ item ∈ presented source.schema sources,
      IdSet.has ((targets.map (·.1)).map .str) (.str item.1) =
        ((pool.store j).find? (.str item.1)).isSome := by
    intro item _
    rw [Bool.eq_iff_iff, has_iff, ← contents.targetHolds.mem_ids_iff, mem_ids_iff,
      Option.isSome_iff_exists]
  obtain ⟨supply, copies, copied, visited⟩ :=
    copyAll_run setting.targetInPool setting.lenient copyable nodup known {}
  rw [texts_presented, copiedTo_eq] at visited
  refine ⟨supply, copies, copied, ?_⟩
  have shown : ∀ state : Pool ι × ReconciliationReport, state.1.store i = pool.store i →
      ({} : QuerySpec).present source.schema (state.1.store i).resources =
        .ok ((presented source.schema sources).map fun item => .obj item.2) := by
    intro state kept
    rw [kept, contents.sourceHolds.resources_eq]
    exact present_eq standard
  -- the copies go to another store than the one that is walked through
  have keeps : ∀ part (state after : Pool ι × ReconciliationReport),
      state.1.store i = pool.store i →
        (copyAll target ((targets.map (·.1)).map .str) part).run state = (.ok (), after) →
          after.1.store i = pool.store i := by
    intro part state after kept ran
    have same := copyAll_store setting.targetInPool setting.apart
      ((targets.map (·.1)).map .str) part state
    rw [ran] at same
    exact same.trans kept
  have enough : ((presented source.schema sources).map fun item => Json.obj item.2).length <
      budget := by
    rw [List.length_map, presented, List.length_map]
    exact enough
  exact Walk.pages_run (setting.sourceInPool.lists_beside ReconciliationReport) ⟨rfl, rfl⟩ shown
    positive setting.sourceLimit (splits_copyAll target _) keeps rfl enough visited

omit positive in
/-- After the copies the orphans can be deleted. -/
theorem deleteOrphans_run {supply : Supply} {copies : MemoryStore}
    (copied : Copied (presented source.schema sources) (pool.store j) copies) :
    (deleteOrphans target ((targets.map (·.1)).map .str)).run
        ((Pool.memory j).set (supply, copies) pool,
          reportOf (sources.map (·.1)) (targets.map (·.1)) false) =
      (.ok (), ((Pool.memory j).set
          (supply, copies.eraseAll (orphanTexts (sources.map (·.1)) (targets.map (·.1)))) pool,
        reportOf (sources.map (·.1)) (targets.map (·.1)) true)) := by
  let middle := (Pool.memory j).set (supply, copies) pool
  have stored : middle.store j = copies := Pool.updated_self ..
  have held : ∀ text ∈ orphanTexts (sources.map (·.1)) (targets.map (·.1)),
      .str text ∈ (middle.store j).ids := by
    intro text orphan
    rw [stored, copied.mem_ids, contents.targetHolds.mem_ids_iff]
    exact .inl (mem_orphanTexts.mp orphan).1
  have deleted := deleteAll_run setting.targetInPool
    (nodup_orphanTexts contents.targetHolds.nodup) held
    (reportOf (sources.map (·.1)) (targets.map (·.1)) false)
  rw [deleteOrphans, Action.run_bind, Action.run_get]
  dsimp only
  rw [without_copied, sorted_orphans, Action.run_bind, Action.run_ofExcept]
  refine deleted.trans ?_
  rw [stored, (Pool.memory j).set_set]
  rfl

/-- A run succeeds.  It leaves copies of the source in the target, without orphans if these are to
be deleted. -/
theorem run_eq (sourceEnough : sources.length < budget) (targetEnough : targets.length < budget)
    (orphans : Bool) :
    ∃ supply copies, Copied (presented source.schema sources) (pool.store j) copies ∧
      (run source target size orphans budget).run pool =
        (.ok (reportOf (sources.map (·.1)) (targets.map (·.1)) orphans),
          (Pool.memory j).set (supply, settled sources targets orphans copies) pool) := by
  obtain ⟨supply, copies, copied, walked⟩ := walk_run setting positive contents sourceEnough
  have ids := allIds_run setting.targetInPool setting.targetLimit positive contents.targetHolds
    targetEnough
  refine ⟨supply, copies, copied, ?_⟩
  refine run_of_walk ids ?_
  rw [Action.run_bind_ok walked]
  cases orphans with
  | false => rfl
  | true => exact deleteOrphans_run setting contents copied

end

/-! ## What a run comes to -/

/-- What a run comes to, from one state of a pool to another and with a report, if the source has
the store `i` and the target the store `j`. -/
structure Mirrored (source target : Service (Pool ι)) (i j : ι) (orphans : Bool)
    (pool after : Pool ι) (report : ReconciliationReport) : Prop where
  /-- Created is what was new to the target. -/
  created : ∀ id, id ∈ report.created ↔ id ∈ (pool.store i).ids ∧ id ∉ (pool.store j).ids
  createdOnce : report.created.Nodup
  /-- Updated is what both had. -/
  updated : ∀ id, id ∈ report.updated ↔ id ∈ (pool.store i).ids ∧ id ∈ (pool.store j).ids
  updatedOnce : report.updated.Nodup
  /-- Deleted are the orphans, if they are to be deleted, in ascending order. -/
  deleted : ∀ id, id ∈ report.deleted ↔
    orphans = true ∧ id ∈ (pool.store j).ids ∧ id ∉ (pool.store i).ids
  ascending : ∃ texts : List String, report.deleted = texts.map .str ∧ texts.Pairwise (· < ·)
  skipped : report.skipped = 0
  /-- The target has the ids of the source, and its orphans unless they are to be deleted. -/
  ids : ∀ id, id ∈ (after.store j).ids ↔
    id ∈ (pool.store i).ids ∨ orphans = false ∧ id ∈ (pool.store j).ids
  idsOnce : (after.store j).ids.Nodup
  /-- Under each id of the source both services return the same, apart from `meta`. -/
  same : ∀ id ∈ (pool.store i).ids, ∃ original copy,
    (source.get id).run after = (.ok (.obj original), after) ∧
      (target.get id).run after = (.ok (.obj copy), after) ∧
        delAttr copy "meta" = delAttr original "meta"
  /-- Orphans are left as they were unless they are to be deleted. -/
  kept : orphans = false → ∀ id ∈ (pool.store j).ids, id ∉ (pool.store i).ids →
    (after.store j).find? id = (pool.store j).find? id
  /-- All other stores are left as they were, that of the source included. -/
  others : ∀ k, k ≠ j → after.store k = pool.store k
  sessions : after.session = pool.session

namespace Mirrored

variable {source target : Service (Pool ι)} {i j : ι} {orphans : Bool} {pool after : Pool ι}
  {report : ReconciliationReport} (mirrored : Mirrored source target i j orphans pool after report)
include mirrored

omit [DecidableEq ι] in
/-- Nothing is created if the target had all that the source has. -/
theorem created_eq_nil (known : ∀ id ∈ (pool.store i).ids, id ∈ (pool.store j).ids) :
    report.created = [] := by
  refine List.eq_nil_iff_forall_not_mem.mpr fun id created => ?_
  obtain ⟨held, missing⟩ := (mirrored.created id).mp created
  exact missing (known id held)

omit [DecidableEq ι] in
/-- Nothing is deleted if the target had nothing that the source lacks. -/
theorem deleted_eq_nil
    (known : orphans = true → ∀ id ∈ (pool.store j).ids, id ∈ (pool.store i).ids) :
    report.deleted = [] := by
  refine List.eq_nil_iff_forall_not_mem.mpr fun id deleted => ?_
  obtain ⟨asked, held, missing⟩ := (mirrored.deleted id).mp deleted
  exact missing (known asked id held)

end Mirrored

section

variable {source target : List String}

theorem nodup_texts {texts : List String} (nodup : texts.Nodup) : (texts.map Json.str).Nodup :=
  nodup.map fun _ _ => Json.str.inj

theorem mem_created (id : Json) (orphans : Bool) :
    id ∈ (reportOf source target orphans).created ↔
      id ∈ source.map Json.str ∧ id ∉ target.map Json.str := by
  cases id <;> simp [reportOf]

theorem mem_updated (id : Json) (orphans : Bool) :
    id ∈ (reportOf source target orphans).updated ↔
      id ∈ source.map Json.str ∧ id ∈ target.map Json.str := by
  cases id <;> simp [reportOf]

theorem mem_deleted (id : Json) (orphans : Bool) :
    id ∈ (reportOf source target orphans).deleted ↔
      orphans = true ∧ id ∈ target.map Json.str ∧ id ∉ source.map Json.str := by
  cases orphans <;> cases id <;> simp [reportOf, orphanTexts]

theorem ascending_deleted (nodup : target.Nodup) (orphans : Bool) :
    ∃ texts : List String, (reportOf source target orphans).deleted = texts.map .str ∧
      texts.Pairwise (· < ·) := by
  cases orphans with
  | false => exact ⟨[], rfl, .nil⟩
  | true => exact ⟨_, rfl, pairwise_orphanTexts nodup⟩

end

section

variable {source target : Service (Pool ι)} {i j : ι} (setting : Setting source target i j)
  {pool : Pool ι} {sources targets : List (String × Members)}
  (contents : Contents (pool.store i) (pool.store j) sources targets) {copies : MemoryStore}
  (copied : Copied (presented source.schema sources) (pool.store j) copies)
include setting contents copied

/-- What the stores hold after a run meets again what is asked for before a run. -/
theorem exists_contents (orphans : Bool) :
    ∃ left, Contents (pool.store i) (settled sources targets orphans copies) sources left := by
  have keyed := keyed_settled contents copied setting.sourceInPool.schema orphans
  have texts : ∀ id ∈ (settled sources targets orphans copies).ids, id.isStr = true := by
    intro id held
    have known := (mem_ids_settled contents copied orphans id).mp held
    rw [contents.sourceHolds.ids_eq, contents.targetHolds.ids_eq] at known
    rcases known with inSources | ⟨_, inTargets⟩
    · obtain ⟨text, _, rfl⟩ := List.mem_map.mp inSources
      rfl
    · obtain ⟨text, _, rfl⟩ := List.mem_map.mp inTargets
      rfl
  exact (keyed.exists_holds texts).imp fun left holds =>
    ⟨contents.sourceHolds, holds, contents.distinct⟩

/-- Under an id of the source both services return the same after a run, apart from `meta`. -/
theorem returns_same {id : Json} (held : id ∈ (pool.store i).ids) {orphans : Bool}
    {after : Pool ι} (sourceStore : after.store i = pool.store i)
    (targetStore : after.store j = settled sources targets orphans copies) :
    ∃ original copy, (source.get id).run after = (.ok (.obj original), after) ∧
      (target.get id).run after = (.ok (.obj copy), after) ∧
        delAttr copy "meta" = delAttr original "meta" := by
  rw [contents.sourceHolds.ids_eq, List.map_map] at held
  obtain ⟨item, inSources, rfl⟩ := List.mem_map.mp held
  have original := contents.sourceHolds.find?_of_mem inSources
  obtain ⟨copy, found, isCopy⟩ := exists_copy contents copied inSources orphans
  rw [← sourceStore] at original
  rw [← targetStore] at found
  have distinct := contents.distinct item inSources
  have bare : without copy (hiddenNames source.schema) = copy := by
    refine without_of_lacks fun name hidden =>
      isCopy.lacks (distinct.lacks_without name hidden) ?_
    have standard : IsStandard source.schema := setting.sourceInPool.schema
    obtain names | names := standard.hiddenNames_cases <;> rw [names] at hidden
    · cases List.mem_singleton.mp hidden
      decide
    · cases hidden
  have read := setting.targetInPool.get_run found
  rw [setting.sameSchema, bare] at read
  exact ⟨_, copy, setting.sourceInPool.get_run original, read,
    isCopy.delAttr_meta (distinct.of_sublist (without_sublist ..))⟩

/-- The state that a run leaves and its report are as they should be. -/
theorem mirrored (orphans : Bool) (supply : Supply) :
    Mirrored source target i j orphans pool
      ((Pool.memory j).set (supply, settled sources targets orphans copies) pool)
      (reportOf (sources.map (·.1)) (targets.map (·.1)) orphans) where
  created id := by
    rw [contents.sourceHolds.ids_eq, contents.targetHolds.ids_eq]
    exact mem_created id orphans
  createdOnce := nodup_texts (contents.sourceHolds.nodup.filter _)
  updated id := by
    rw [contents.sourceHolds.ids_eq, contents.targetHolds.ids_eq]
    exact mem_updated id orphans
  updatedOnce := nodup_texts (contents.sourceHolds.nodup.filter _)
  deleted id := by
    rw [contents.sourceHolds.ids_eq, contents.targetHolds.ids_eq]
    exact mem_deleted id orphans
  ascending := ascending_deleted contents.targetHolds.nodup orphans
  skipped := rfl
  ids id := by
    have stored := Pool.updated_self pool.store j (settled sources targets orphans copies)
    refine Iff.trans ?_ (mem_ids_settled contents copied orphans id)
    exact iff_of_eq (congrArg (fun store : MemoryStore => id ∈ store.ids) stored)
  idsOnce := by
    have stored := Pool.updated_self pool.store j (settled sources targets orphans copies)
    obtain ⟨left, contentsLeft⟩ := exists_contents setting contents copied orphans
    refine (congrArg (fun store : MemoryStore => store.ids.Nodup) stored).mpr ?_
    rw [contentsLeft.targetHolds.ids_eq]
    exact nodup_texts contentsLeft.targetHolds.nodup
  same _ held := returns_same setting contents copied held
    (Pool.updated_of_ne pool.store _ setting.apart) (Pool.updated_self pool.store j _)
  kept := by
    rintro rfl id held missing
    have stored := Pool.updated_self pool.store j (settled sources targets false copies)
    refine (congrArg (·.find? id) stored).trans ?_
    rw [contents.targetHolds.ids_eq] at held
    obtain ⟨text, _, rfl⟩ := List.mem_map.mp held
    exact find?_orphan copied fun inSources =>
      missing ((contents.sourceHolds.mem_ids_iff text).mpr inSources)
  others k other := Pool.updated_of_ne pool.store _ other
  sessions := rfl

end

/-- A reconciliation between two stores whose ids are texts succeeds, with pages of any size and a
budget of more list requests than there are resources.  The target then mirrors the source, and
another run has nothing to create or to delete. -/
theorem run_mirrors {source target : Service (Pool ι)} {i j : ι}
    (setting : Setting source target i j) {size : Int} (positive : 1 ≤ size) (orphans : Bool)
    {pool : Pool ι} (sourceReached : (pool.store i).Reachable)
    (targetReached : (pool.store j).Reachable)
    (sourceTexts : ∀ id ∈ (pool.store i).ids, id.isStr = true)
    (targetTexts : ∀ id ∈ (pool.store j).ids, id.isStr = true)
    (distinct : ∀ entry ∈ (pool.store i).entries, Distinct entry.2) {budget : Nat}
    (enough : (pool.store i).ids.length + (pool.store j).ids.length < budget) :
    ∃ report after, (run source target size orphans budget).run pool = (.ok report, after) ∧
      Mirrored source target i j orphans pool after report ∧
      ∀ again, 1 ≤ again → ∃ second last,
        (run source target again orphans budget).run after = (.ok second, last) ∧
          second.created = [] ∧ second.deleted = [] := by
  obtain ⟨sources, sourceHolds⟩ := sourceReached.keyed.exists_holds sourceTexts
  obtain ⟨targets, targetHolds⟩ := targetReached.keyed.exists_holds targetTexts
  have contents : Contents (pool.store i) (pool.store j) sources targets :=
    ⟨sourceHolds, targetHolds, fun item held => distinct _ (sourceHolds.mem_entries held)⟩
  have sourceCount := sourceHolds.length_ids
  have sourceEnough : sources.length < budget := by omega
  have targetEnough : targets.length < budget := by
    have targetCount := targetHolds.length_ids
    omega
  obtain ⟨supply, copies, copied, ran⟩ :=
    run_eq setting positive contents sourceEnough targetEnough orphans
  have comesTo := mirrored setting contents copied orphans supply
  refine ⟨_, _, ran, comesTo, fun again againPositive => ?_⟩
  obtain ⟨left, contentsLeft⟩ := exists_contents setting contents copied orphans
  have leftEnough : left.length < budget := by
    have leftCount := contentsLeft.targetHolds.length_ids
    have most := length_settled_le contents copied orphans
    omega
  generalize afterEq :
    (Pool.memory j).set (supply, settled sources targets orphans copies) pool = after at comesTo
  have targetStore : after.store j = settled sources targets orphans copies :=
    afterEq ▸ Pool.updated_self ..
  have sourceStore : after.store i = pool.store i := comesTo.others i setting.apart
  rw [← targetStore, ← sourceStore] at contentsLeft
  obtain ⟨nextSupply, nextCopies, copiedAgain, ranAgain⟩ :=
    run_eq setting againPositive contentsLeft sourceEnough leftEnough orphans
  have comesToAgain := mirrored setting contentsLeft copiedAgain orphans nextSupply
  refine ⟨_, _, ranAgain, comesToAgain.created_eq_nil ?_, comesToAgain.deleted_eq_nil ?_⟩
  · rw [sourceStore]
    exact fun id held => (comesTo.ids id).mpr (.inl held)
  · rintro rfl id held
    rw [sourceStore]
    exact ((comesTo.ids id).mp held).resolve_right fun kept => nomatch kept.1

/-- A user with a password, under a text that is the name as well. -/
def sampleUser (text : String) : Json :=
  .obj [("id", .str text), ("userName", .str text), ("password", .str "secret")]

/-- A store into which users are loaded. -/
def sampleStore (texts : List String) : MemoryStore :=
  ((load (texts.map sampleUser)).run ({ instant := 0, tick := 1 }, empty "User" none "")).2.2

/-- A source with two users and a target with one of them and another one. -/
def samplePool : Pool Bool where
  supply := { instant := 0, tick := 1 }
  store isTarget := sampleStore (if isTarget then ["bob", "cyd"] else ["ada", "bob"])
  session _ := { pending := [], last := { status := 200, headers := [], body := "" } }

/-- The service over one of the two stores, with lists of at most one resource. -/
def sampleService (isTarget : Bool) : Service (Pool Bool) where
  adapter := MemoryStore.adapter.zoom (Pool.memory isTarget)
  schema := some .user
  endpoint := "Users"
  options := { maxResults := some 1 }

theorem run_mirrors_sample : ∃ report after,
    (run (sampleService false) (sampleService true) 7 true 5).run samplePool = (.ok report, after) ∧
      .str "ada" ∈ report.created ∧ .str "bob" ∈ report.updated ∧ .str "cyd" ∈ report.deleted := by
  have setting : Setting (sampleService false) (sampleService true) false true :=
    ⟨⟨rfl, .inl rfl⟩, ⟨rfl, .inl rfl⟩, by decide, rfl, rfl, by rintro _ ⟨⟩; decide,
      by rintro _ ⟨⟩; decide⟩
  have sourceIds : (samplePool.store false).ids = [.str "ada", .str "bob"] := rfl
  have targetIds : (samplePool.store true).ids = [.str "bob", .str "cyd"] := rfl
  have distinct : ∀ entry ∈ (samplePool.store false).entries,
      (names entry.2).Pairwise fun a b => sameName a b = false := by decide
  obtain ⟨report, after, ran, mirrored, _⟩ := run_mirrors setting (by decide : (1 : Int) ≤ 7) true
    (.loaded ..) (.loaded ..) (by rw [sourceIds]; decide) (by rw [targetIds]; decide) distinct
    (by rw [sourceIds, targetIds]; decide : _ < 5)
  refine ⟨report, after, ran, (mirrored.created _).mpr ?_, (mirrored.updated _).mpr ?_,
    (mirrored.deleted _).mpr ⟨rfl, ?_⟩⟩ <;> rw [sourceIds, targetIds] <;> simp

end Reconciliation

end Scim
