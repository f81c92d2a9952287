import Scim.Proofs.Patch.Requests
import Scim.Proofs.Query.Leftovers
import Scim.Proofs.Query.PushDown
import Scim.Proofs.Service.Writing

/-!
# Queries that crash

A query comes as texts that a client writes, and each of them reaches the reader of filters
or of paths, and then the resources.  Under the schemas of users and of groups, and with
resources that declare their URNs in a list, little can crash: an integer of too many
digits wherever a filter or a path is read, a sort by a schema as a whole, and a filter in
brackets that asks an element of a list for its URNs.
-/

namespace Scim

open Members

variable {resource members after : Members} {resources : List Json} {schema : ResourceSchema}
  {path : AttributePath} {texts : List String} {spec : QuerySpec}

/-! ## Resources that declare their URNs -/

/-- Whether the URNs that a resource declares, if it declares any, are in a list. -/
def Members.DeclaresList (resource : Members) : Prop :=
  ∀ value, get? resource "schemas" = some value → value.isArr = true

namespace Members.DeclaresList

theorem isRow (declares : resource.DeclaresList) : resource.schemasValue.isRow = true := by
  rw [schemasValue]
  cases held : get? resource "schemas" with
  | none => rfl
  | some value =>
      have listed := declares value held
      cases value with
      | arr => rfl
      | _ => cases listed

theorem not_stumbles {φ : Type} (declares : resource.DeclaresList) (path : PathOf φ) :
    ¬ path.Stumbles resource := by
  rintro ⟨_, _, _, _, row⟩
  rw [declares.isRow] at row
  cases row

theorem exists_isCoreUri (declares : resource.DeclaresList) (uri : String) :
    ∃ core, isCoreUri resource uri = .ok core := by
  refine (failsOnly_isCoreUri resource uri).exists_ok ?_
  rw [crashes_isCoreUri_iff, declares.isRow]
  nofun

theorem erase (declares : resource.DeclaresList) (key : String) :
    (erase resource key).DeclaresList := by
  intro value held
  rw [get?_erase] at held
  split at held
  · cases held
  · exact declares value held

theorem modify (declares : resource.DeclaresList) (key : String) {f : Json → Json}
    (kept : ∀ value : Json, value.isArr = true → (f value).isArr = true) :
    (modify resource key f).DeclaresList := by
  intro value held
  rw [get?_modify] at held
  split at held
  · next same =>
    subst same
    obtain ⟨whole, heldWhole, rfl⟩ := Option.map_eq_some_iff.mp held
    exact kept whole (declares whole heldWhole)
  · exact declares value held

/-- The object of an extension is not the list of URNs. -/
theorem updateObject (declares : resource.DeclaresList) {key : String} {object : Members}
    (held : get? resource key = some (.obj object)) (f : Members → Members) :
    (Projection.updateObject resource key f).DeclaresList := by
  intro value there
  rw [Projection.updateObject, held] at there
  dsimp only at there
  rw [get?_set] at there
  split at there
  · next same =>
    rw [← same] at held
    cases declares _ held
  · exact declares value there

theorem dropAttr (declares : resource.DeclaresList) (attr : String) (sub : Option String) :
    (Projection.dropAttr attr sub resource).DeclaresList := by
  unfold Projection.dropAttr
  cases sub with
  | none =>
      dsimp only
      rw [delAttr_eq_erase]
      exact declares.erase _
  | some sub =>
      dsimp only
      split
      · exact declares
      · refine declares.modify _ fun value isArr => ?_
        cases value with
        | arr => rfl
        | _ => cases isArr

end Members.DeclaresList

/-! ## Sorting -/

theorem crashes_sortCaseExact_iff :
    Crashes (sortCaseExact (some schema) path) ↔
      path.attr = none ∧ (schema.schemaFor? path.uri).isSome = true := by
  rw [sortCaseExact]
  cases path.attr with
  | some attr => exact iff_of_false (not_crashes_ok _) nofun
  | none =>
      rw [eq_self, true_and]
      cases (schema.schemaFor? path.uri).isSome with
      | true => exact iff_of_true (crashes_failWith (by decide)) rfl
      | false => exact iff_of_false (not_crashes_ok _) nofun

theorem not_crashes_sortValue (declares : resource.DeclaresList) (path : AttributePath) :
    ¬ Crashes (sortValue (.obj resource) path) := by
  rw [sortValue, crashes_bind_of_safe fun _ => not_crashes_pure _, crashes_attributeValues_iff]
  exact declares.not_stumbles _

/-- What a sort by a text can stumble over: an over-long integer in it, or a schema as a whole
that the resources go by, which is no attribute and has no characteristics. -/
inductive SortStumbles (schema : ResourceSchema) (text : String) : Prop where
  | reading (tooLong : PathOf.read (Text.trim text) = .error .integerTooLong)
  | ranking {path : AttributePath} (parsed : PathOf.parse text = .ok path)
      (whole : path.attr = none) (known : (schema.schemaFor? path.uri).isSome = true)

theorem crashes_sortResources_iff {text : String} {order : SortOrder}
    (declares : ∀ resource ∈ resources, ∃ members, resource = .obj members ∧ DeclaresList members) :
    Crashes (sortResources resources text order (some schema)) ↔ SortStumbles schema text := by
  have keyed (path : AttributePath) :
      ¬ Crashes (resources.mapM fun item => return (← sortValue (id item) path, item)) := by
    refine not_crashes_mapM fun resource held => ?_
    obtain ⟨members, rfl, list⟩ := declares resource held
    rw [crashes_bind_of_safe fun _ => not_crashes_pure _]
    exact not_crashes_sortValue list path
  rw [sortResources, sortOn, crashes_bind_iff, PathOf.crashes_parse_iff]
  constructor
  · rintro (tooLong | ⟨path, parsed, crashed⟩)
    · exact .reading tooLong
    · rcases crashes_bind_iff.mp crashed with crashed | ⟨_, _, crashed⟩
      · obtain ⟨whole, known⟩ := crashes_sortCaseExact_iff.mp crashed
        exact .ranking parsed whole known
      · exact absurd ((crashes_bind_of_safe fun _ => not_crashes_pure _).mp crashed) (keyed path)
  · rintro (tooLong | ⟨parsed, whole, known⟩)
    · exact .inl tooLong
    · exact .inr ⟨_, parsed, crashes_bind_iff.mpr
        (.inl (crashes_sortCaseExact_iff.mpr ⟨whole, known⟩))⟩

/-! ## Projecting -/

/-- Whether the first of some texts that cannot be read as a path has an over-long integer. -/
def FirstTooLong : List String → Prop
  | [] => False
  | text :: rest =>
    PathOf.read (Text.trim text) = .error .integerTooLong ∨
      (∃ path : AttributePath, PathOf.parse text = .ok path) ∧ FirstTooLong rest

/-- Steps along paths that always succeed crash exactly if a path cannot be read. -/
theorem crashes_foldlM_parse_iff (step : Members → AttributePath → Except Failure Members)
    (holds : Members → Prop) (succeeds : ∀ value path, holds value →
      ∃ next, step value path = .ok next ∧ holds next) {start : Members} (first : holds start) :
    Crashes (texts.foldlM (fun value text => do step value (← PathOf.parse text)) start) ↔
      FirstTooLong texts := by
  induction texts generalizing start with
  | nil => exact iff_of_false (not_crashes_ok _) id
  | cons text rest ih =>
      rw [List.foldlM_cons, crashes_bind_iff, FirstTooLong]
      refine or_congr ?_ ?_
      · rw [crashes_bind_iff, PathOf.crashes_parse_iff]
        refine or_iff_left ?_
        rintro ⟨path, _, crashed⟩
        obtain ⟨next, stepped, _⟩ := succeeds start path first
        rw [stepped] at crashed
        exact crashed
      · constructor
        · rintro ⟨next, ran, crashed⟩
          obtain ⟨path, parsed, stepped⟩ := bind_eq_ok_iff.mp ran
          obtain ⟨next', stepped', after⟩ := succeeds start path first
          cases stepped.symm.trans stepped'
          exact ⟨⟨path, parsed⟩, (ih after).mp crashed⟩
        · rintro ⟨⟨path, parsed⟩, tooLong⟩
          obtain ⟨next, stepped, after⟩ := succeeds start path first
          exact ⟨next, bind_eq_ok_iff.mpr ⟨path, parsed, stepped⟩, (ih after).mpr tooLong⟩

namespace Projection

theorem exists_source? {φ : Type} (declares : resource.DeclaresList) (path : PathOf φ) :
    ∃ found, source? resource path = .ok found := by
  unfold source?
  cases path.uri with
  | none => exact ⟨_, rfl⟩
  | some uri =>
      obtain ⟨core, asked⟩ := declares.exists_isCoreUri uri
      dsimp only
      rw [asked]
      cases core with
      | true => exact ⟨_, rfl⟩
      | false =>
          dsimp only [bind, Except.bind]
          rw [if_neg Bool.false_ne_true]
          split
          · exact ⟨_, rfl⟩
          · split <;> exact ⟨_, rfl⟩

theorem exists_copyPath (declares : resource.DeclaresList) (target : Members)
    (path : AttributePath) : ∃ next, copyPath resource target path = .ok next := by
  obtain ⟨found, looked⟩ := exists_source? declares path
  unfold copyPath
  rw [looked]
  dsimp only [bind, Except.bind]
  split
  · exact ⟨_, rfl⟩
  · split
    · exact ⟨_, rfl⟩
    · exact ⟨_, rfl⟩
    · exact ⟨_, rfl⟩
    · split <;> exact ⟨_, rfl⟩

/-- Dropping a path leaves the list of URNs or drops it as a whole. -/
theorem exists_dropPath (declares : resource.DeclaresList) (path : AttributePath) :
    ∃ next, dropPath resource path = .ok next ∧ next.DeclaresList := by
  obtain ⟨found, looked⟩ := exists_source? declares path
  unfold dropPath
  rw [looked]
  dsimp only [bind, Except.bind]
  rcases found with _ | ⟨source, extension⟩
  · exact ⟨resource, rfl, declares⟩
  · rcases source?_eq_ok looked with ⟨rfl, _⟩ | ⟨key, rfl, held⟩
    · cases path.attr with
      | none => exact ⟨_, rfl, declares⟩
      | some attr => exact ⟨_, rfl, declares.dropAttr attr path.sub⟩
    · cases path.attr with
      | none => exact ⟨_, rfl, declares.erase key⟩
      | some attr => exact ⟨_, rfl, declares.updateObject held _⟩

end Projection

/-- The attributes that a query names: those to be shown, or else those to be left out. -/
def QuerySpec.named (spec : QuerySpec) : List String :=
  if spec.attributes.isEmpty then spec.excluded else spec.attributes

theorem crashes_project_iff (standard : IsStandard (some schema))
    (declares : resource.DeclaresList) (spec : QuerySpec) :
    Crashes ((Json.obj resource).project spec.attributes spec.excluded (some schema)) ↔
      FirstTooLong spec.named := by
  have shown : ∀ kept, ¬ Crashes (Projection.dropHidden (some schema) kept) := by
    intro kept
    rw [standard.dropHidden_eq]
    exact not_crashes_ok _
  rw [Json.project, crashes_map_iff, Projection.project_eq, crashes_bind_of_safe shown,
    Projection.requested, QuerySpec.named]
  split
  · refine crashes_foldlM_parse_iff (fun result path =>
        if Projection.isKept (some schema) path then pure result
        else Projection.dropPath result path) DeclaresList ?_ declares
    intro result path list
    split
    · exact ⟨result, rfl, list⟩
    · exact Projection.exists_dropPath list path
  · refine crashes_foldlM_parse_iff (Projection.copyPath resource) (fun _ => True) ?_ trivial
    intro result path _
    obtain ⟨next, copied⟩ := Projection.exists_copyPath declares result path
    exact ⟨next, copied, trivial⟩

/-! ## Queries -/

namespace QuerySpec

/-- What a query can stumble over among some resources: its filter on one of them, the path of
its sort, or an over-long integer in a path along which the resources of its page are shown. -/
inductive Stumbles (schema : ResourceSchema) (spec : QuerySpec) (resources : List Json) : Prop where
  | filtering {filter : Filter} {resource : Members} (filterEq : spec.filter = some filter)
      (held : .obj resource ∈ resources)
      (stumbles : filter.Stumbles (.top (some schema)) resource)
  | sorting {text : String} (sortEq : spec.sortBy = some text) (given : text ≠ "")
      (stumbles : SortStumbles schema text)
  | showing {found : List Json}
      (matched : ({ resources } : Listing).matching spec (some schema) = .ok found)
      (shown : spec.page found ≠ []) (tooLong : FirstTooLong spec.named)

section

variable (declares : ∀ resource ∈ resources, ∃ members, resource = .obj members ∧
  DeclaresList members)
include declares

theorem crashes_select_iff :
    Crashes (spec.select (some schema) resources) ↔
      ∃ filter resource, spec.filter = some filter ∧ .obj resource ∈ resources ∧
        filter.Stumbles (.top (some schema)) resource := by
  rw [select]
  cases spec.filter with
  | none => exact iff_of_false (not_crashes_ok _) (by simp)
  | some filter =>
      dsimp only
      rw [filterResources, crashes_filterM_iff]
      · constructor
        · rintro ⟨resource, held, crashed⟩
          obtain ⟨members, rfl, _⟩ := declares resource held
          exact ⟨filter, members, rfl, held, Filter.crashes_eval_iff.mp crashed⟩
        · rintro ⟨_, members, ⟨⟩, held, stumbles⟩
          exact ⟨_, held, Filter.crashes_eval_iff.mpr stumbles⟩
      · intro resource held
        exact filter.failsOnly_eval _ resource

theorem exists_select (safe : ¬ Crashes (spec.select (some schema) resources)) :
    ∃ kept, spec.select (some schema) resources = .ok kept := by
  rw [crashes_select_iff declares] at safe
  refine ⟨_, select_eq_ok_iff.mpr ⟨fun filter filterEq resource held => ?_, rfl⟩⟩
  obtain ⟨members, rfl, _⟩ := declares resource held
  refine (filter.failsOnly_eval _ (.obj members)).exists_ok fun crashed => safe ?_
  exact ⟨filter, members, filterEq, held, Filter.crashes_eval_iff.mp crashed⟩

theorem crashes_arrange_iff :
    Crashes (spec.arrange (some schema) resources) ↔
      ∃ text, spec.sortBy = some text ∧ text ≠ "" ∧ SortStumbles schema text := by
  rw [arrange]
  split
  · next none => exact iff_of_false (not_crashes_ok _) (by simp [none])
  · next empty => exact iff_of_false (not_crashes_ok _) (by simp [empty])
  · next text given sortEq =>
    rw [crashes_sortResources_iff declares, sortEq]
    constructor
    · exact fun stumbles => ⟨text, rfl, given, stumbles⟩
    · rintro ⟨_, ⟨⟩, _, stumbles⟩
      exact stumbles

theorem crashes_present_iff (standard : IsStandard (some schema)) :
    Crashes (spec.present (some schema) resources) ↔
      resources ≠ [] ∧ FirstTooLong spec.named := by
  have each : ∀ resource ∈ resources,
      (Crashes (resource.project spec.attributes spec.excluded (some schema)) ↔
        FirstTooLong spec.named) := by
    intro resource held
    obtain ⟨members, rfl, list⟩ := declares resource held
    exact crashes_project_iff standard list spec
  rw [present]
  constructor
  · intro crashed
    by_contra safe
    refine not_crashes_mapM (fun resource held => ?_) crashed
    rw [each resource held]
    exact fun tooLong => safe ⟨List.ne_nil_of_mem held, tooLong⟩
  · rintro ⟨some, tooLong⟩
    obtain ⟨first, rest, rfl⟩ := List.exists_cons_of_ne_nil some
    rw [List.mapM_cons]
    exact crashes_bind_iff.mpr (.inl ((each first List.mem_cons_self).mpr tooLong))

omit declares in
/-- The matches of a query among all resources are filtered and then sorted. -/
theorem matching_eq (schema : Option ResourceSchema) :
    ({ resources } : Listing).matching spec schema =
      spec.select schema resources >>= spec.arrange schema := by
  simp [Listing.matching, Listing.filterStage_eq, Listing.sortStage_eq]

omit declares in
theorem subset_of_select {schema : Option ResourceSchema} {kept : List Json}
    (selected : spec.select schema resources = .ok kept) : kept ⊆ resources := by
  rw [(select_eq_ok_iff.mp selected).2]
  exact List.filter_subset_self _

theorem crashes_matching_iff :
    Crashes (({ resources } : Listing).matching spec (some schema)) ↔
      (∃ filter resource, spec.filter = some filter ∧ .obj resource ∈ resources ∧
        filter.Stumbles (.top (some schema)) resource) ∨
      ∃ text, spec.sortBy = some text ∧ text ≠ "" ∧ SortStumbles schema text := by
  rw [matching_eq, crashes_bind_iff, ← crashes_select_iff declares]
  constructor
  · rintro (crashed | ⟨kept, selected, crashed⟩)
    · exact .inl crashed
    · exact .inr ((crashes_arrange_iff fun resource held =>
        declares resource (subset_of_select selected held)).mp crashed)
  · rintro (crashed | stumbles)
    · exact .inl crashed
    · by_cases crashed : Crashes (spec.select (some schema) resources)
      · exact .inl crashed
      · obtain ⟨kept, selected⟩ := exists_select declares crashed
        exact .inr ⟨kept, selected, (crashes_arrange_iff fun resource held =>
          declares resource (subset_of_select selected held)).mpr stumbles⟩

/-- Answering a query with all resources crashes exactly if the query stumbles. -/
theorem crashes_complete_iff (standard : IsStandard (some schema)) :
    Crashes (({ resources } : Listing).complete spec (some schema)) ↔
      spec.Stumbles schema resources := by
  have presents (found : List Json)
      (matched : ({ resources } : Listing).matching spec (some schema) = .ok found) :
      Crashes (Listing.finish false spec (some schema) (spec.page found) (.count found.length)) ↔
        spec.page found ≠ [] ∧ FirstTooLong spec.named := by
    obtain ⟨kept, selected, arranged⟩ := bind_eq_ok_iff.mp ((matching_eq _).symm.trans matched)
    have onPage : spec.page found ⊆ found := by
      simp only [page, paginate]
      cases spec.count with
      | none => exact List.drop_subset _ _
      | some count => exact List.Subset.trans (List.take_subset _ _) (List.drop_subset _ _)
    change Crashes (spec.present (some schema) (spec.page found) >>= _) ↔ _
    rw [crashes_bind_of_safe fun _ => not_crashes_pure _]
    refine crashes_present_iff (fun resource held => declares resource ?_) standard
    exact subset_of_select selected ((arrange_perm arranged).mem_iff.mp (onPage held))
  rw [Listing.complete_of_not_paginated rfl, crashes_bind_iff, crashes_matching_iff declares]
  constructor
  · rintro ((⟨filter, resource, filterEq, held, stumbles⟩ | ⟨text, sortEq, given, stumbles⟩) |
      ⟨found, matched, crashed⟩)
    · exact .filtering filterEq held stumbles
    · exact .sorting sortEq given stumbles
    · obtain ⟨shown, tooLong⟩ := (presents found matched).mp crashed
      exact .showing matched shown tooLong
  · rintro (⟨filterEq, held, stumbles⟩ | ⟨sortEq, given, stumbles⟩ | ⟨matched, shown, tooLong⟩)
    · exact .inl (.inl ⟨_, _, filterEq, held, stumbles⟩)
    · exact .inl (.inr ⟨_, sortEq, given, stumbles⟩)
    · exact .inr ⟨_, matched, (presents _ matched).mpr ⟨shown, tooLong⟩⟩

end

end QuerySpec

/-! ## Parameters -/

theorem Filter.crashes_parse_iff {text : String} :
    Crashes (Filter.parse text) ↔ Filter.read text = .error .integerTooLong := by
  rw [Filter.parse]
  cases Filter.read text with
  | ok filter => exact iff_of_false (not_crashes_ok _) (by simp)
  | error refusal =>
      cases refusal with
      | malformed => exact iff_of_false (not_crashes_refuse _) (by simp)
      | tooDeep => exact iff_of_false (not_crashes_refuse _) (by simp)
      | integerTooLong => exact iff_of_true (crashes_failWith (by decide)) rfl

namespace QuerySpec

theorem not_crashes_readOrder (word : Option String) : ¬ Crashes (readOrder word) := by
  unfold readOrder
  split
  · exact not_crashes_ok _
  · split
    · exact not_crashes_ok _
    · exact not_crashes_refuse _

theorem not_crashes_readInteger (name : String) (text : Option String) :
    ¬ Crashes (readInteger name text) := by
  unfold readInteger
  split
  · exact not_crashes_ok _
  · split
    · exact not_crashes_ok _
    · exact not_crashes_refuse _

/-- Reading a query crashes exactly if its filter has an over-long integer. -/
theorem crashes_ofParams_iff {params : Members} :
    Crashes (ofParams params) ↔ ∃ text, param params "filter" = some text ∧
      Filter.read text = .error .integerTooLong := by
  rw [ofParams, crashes_bind_of_safe]
  · cases param params "filter" with
    | none => exact iff_of_false (not_crashes_ok _) (by simp)
    | some text =>
        simp only [Option.some.injEq, exists_eq_left']
        exact crashes_map_iff.trans Filter.crashes_parse_iff
  · intro filter
    refine (crashes_bind_of_safe fun sortOrder => ?_).not.mpr (not_crashes_readOrder _)
    refine (crashes_bind_of_safe fun startIndex => ?_).not.mpr (not_crashes_readInteger _ _)
    exact (crashes_bind_of_safe fun count => not_crashes_pure _).not.mpr
      (not_crashes_readInteger _ _)

end QuerySpec

/-! ## Services -/

namespace Service

variable {σ : Type}

/-- Answers a query that comes as the parameters of a request. -/
def answer (service : Service σ) (params : Members) : Action σ QueryResult := do
  service.list (← Action.ofExcept (QuerySpec.ofParams params))

/-- Under a standard schema, a query of resources that declare their URNs in lists crashes
exactly if its filter has an over-long integer or, with its page cut to the largest number of
resources, it stumbles among the stored resources. -/
theorem Standard.not_crashesAt_answer_iff {service : Service MemoryState}
    (standard : service.Standard) {store : MemoryStore}
    (declares : ∀ entry ∈ store.entries, entry.2.DeclaresList) (params : Members)
    (supply : Supply) :
    ¬ (service.answer params).CrashesAt (supply, store) ↔
      (∀ text, QuerySpec.param params "filter" = some text →
        Filter.read text ≠ .error .integerTooLong) ∧
      ∀ spec schema, QuerySpec.ofParams params = .ok spec → service.schema = some schema →
        ¬ (service.capped spec).Stumbles schema store.resources := by
  obtain ⟨schema, isSchema⟩ := IsStandard.exists_eq standard.schema
  have known : IsStandard (some schema) := isSchema ▸ standard.schema
  have objects : ∀ resource ∈ store.resources,
      ∃ members, resource = .obj members ∧ DeclaresList members := by
    intro resource held
    obtain ⟨entry, inStore, rfl⟩ := List.mem_map.mp held
    exact ⟨entry.2, rfl, declares entry inStore⟩
  have listed (spec : QuerySpec) :
      (service.list spec).CrashesAt (supply, store) ↔
        (service.capped spec).Stumbles schema store.resources := by
    rw [← QuerySpec.crashes_complete_iff objects known, list, query, standard.adapter, isSchema]
    rfl
  rw [answer, Action.crashesAt_ofExcept_bind, QuerySpec.crashes_ofParams_iff]
  simp only [listed, isSchema]
  constructor
  · intro safe
    refine ⟨fun text given tooLong => safe (.inl ⟨text, given, tooLong⟩), ?_⟩
    rintro spec _ read ⟨⟩ stumbles
    exact safe (.inr ⟨spec, read, stumbles⟩)
  · rintro ⟨short, safe⟩ (⟨text, given, tooLong⟩ | ⟨spec, read, stumbles⟩)
    · exact short text given tooLong
    · exact safe spec schema read rfl stumbles

/-- A sort by a name does not crash. -/
theorem Standard.not_crashesAt_answer_userName :
    let service := Service.of MemoryStore.adapter (some .user) none {}
    let store : MemoryStore := ⟨"User", "/Users", "", [(.str "x",
      [("schemas", .arr [.str userUrn]), ("id", .str "x"), ("userName", .str "ann")])], 0⟩
    let params : Members := [("sortBy", .str "userName"), ("attributes", .str "id")]
    let supply : Supply := .startingOn ⟨2024, 1, 1⟩ 1000001
    service.Standard ∧ (∀ entry ∈ store.entries, entry.2.DeclaresList) ∧
      ¬ (service.answer params).CrashesAt (supply, store) := by
  intro service store params supply
  have standard : service.Standard := ⟨rfl, .inl rfl⟩
  have declares : ∀ entry ∈ store.entries, entry.2.DeclaresList := by
    refine List.forall_mem_singleton.mpr fun value held => ?_
    cases held
    rfl
  have texts : QuerySpec.param params "filter" = none ∧
      QuerySpec.param params "sortBy" = some "userName" ∧
      QuerySpec.param params "sortOrder" = none ∧
      QuerySpec.param params "startIndex" = none ∧ QuerySpec.param params "count" = none ∧
      QuerySpec.splitList (QuerySpec.param params "attributes") = ["id"] := by decide +kernel
  obtain ⟨filter, sortBy, sortOrder, start, count, attributes⟩ := texts
  have sorted : PathOf.parse "userName" = .ok (.plain "userName" : AttributePath) := rfl
  have shown : PathOf.parse "id" = .ok (.plain "id" : AttributePath) := rfl
  have short {text : String} {path : AttributePath} (parsed : PathOf.parse text = .ok path) :
      PathOf.read (Text.trim text) ≠ .error .integerTooLong := by
    intro tooLong
    have crashed := PathOf.crashes_parse_iff.mpr tooLong
    rw [parsed] at crashed
    exact crashed
  refine ⟨standard, declares, (standard.not_crashesAt_answer_iff declares params supply).mpr ?_⟩
  constructor
  · intro text given
    cases filter.symm.trans given
  · intro spec schema given _ stumbles
    rw [QuerySpec.ofParams, filter, sortBy, sortOrder, start, count, attributes] at given
    cases given
    cases stumbles with
    | filtering filterEq => cases filterEq
    | sorting sortEq _ stumbles =>
        cases sortEq
        cases stumbles with
        | reading tooLong => exact short sorted tooLong
        | ranking parsed whole =>
            cases sorted.symm.trans parsed
            cases whole
    | showing _ _ tooLong => exact tooLong.elim (short shown) And.right

/-- A sort by the URN of an extension crashes. -/
theorem not_answer_safe :
    ¬ ∀ (service : Service MemoryState) (store : MemoryStore) (params : Members)
      (supply : Supply), service.Standard →
      (∀ entry ∈ store.entries, ∃ urns : List String,
        get? entry.2 "schemas" = some (.arr (urns.map .str))) →
      (∀ param ∈ params, param.2.isStr = true) →
      ¬ (service.answer params).CrashesAt (supply, store) := by
  intro safe
  refine safe (Service.of MemoryStore.adapter (some .user) none {})
    ⟨"User", "/Users", "", [(.str "x",
      [("schemas", .arr [.str userUrn]), ("id", .str "x"), ("userName", .str "ann")])], 0⟩
    [("sortBy", .str enterpriseUserUrn)] (.startingOn ⟨2024, 1, 1⟩ 1000001) ⟨rfl, .inl rfl⟩
    (List.forall_mem_singleton.mpr ⟨[userUrn], rfl⟩) (List.forall_mem_singleton.mpr rfl) ?_
  decide +kernel

end Service

end Scim
