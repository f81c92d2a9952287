import Scim.Proofs.Query.Stages

/-!
# Adapters that apply stages of a query

An adapter may answer a query with all its resources or apply stages of the query first and
say so.  If it applies them as the engine does, and cuts out the page only of what is
filtered and sorted, then the query has the same result.
-/

namespace Scim

namespace QuerySpec

/-- The resources that satisfy the filter of a query. -/
def select (spec : QuerySpec) (schema : Option ResourceSchema) (resources : List Json) :
    Except Failure (List Json) :=
  match spec.filter with
  | some filter => filterResources resources filter schema
  | none => .ok resources

/-- Resources in the order of a query. -/
def arrange (spec : QuerySpec) (schema : Option ResourceSchema) (resources : List Json) :
    Except Failure (List Json) :=
  match spec.sortBy with
  | none | some "" => .ok resources
  | some path => sortResources resources path spec.sortOrder schema

/-- Resources with the attributes that a query shows. -/
def present (spec : QuerySpec) (schema : Option ResourceSchema) (resources : List Json) :
    Except Failure (List Json) :=
  resources.mapM fun resource => resource.project spec.attributes spec.excluded schema

/-- The page of a query. -/
def page (spec : QuerySpec) (resources : List Json) : List Json :=
  paginate resources spec.startIndex spec.count

/-- Whether the comparison of the sort of a query is transitive on the values that some
resources are sorted by. -/
def SortsTransitively (spec : QuerySpec) (schema : Option ResourceSchema)
    (resources : List Json) : Prop :=
  ∀ sortBy, spec.sortBy = some sortBy →
    Scim.SortsTransitively resources sortBy spec.sortOrder schema

variable {spec : QuerySpec} {schema : Option ResourceSchema} {resources : List Json}

theorem SortsTransitively.of_subset {fewer : List Json}
    (transitive : spec.SortsTransitively schema resources) (subset : fewer ⊆ resources) :
    spec.SortsTransitively schema fewer :=
  fun sortBy given => (transitive sortBy given).of_subset subset

theorem select_eq_ok_iff {kept : List Json} :
    spec.select schema resources = .ok kept ↔
      (∀ filter, spec.filter = some filter → ∀ resource ∈ resources,
        ∃ answer, filter.holds resource schema = .ok answer) ∧
      kept = resources.filter fun resource =>
        spec.filter.all fun filter => passes (filter.holds · schema) resource := by
  rw [select]
  cases spec.filter with
  | none =>
      constructor
      · intro equal
        cases equal
        exact ⟨nofun, by simp⟩
      · rintro ⟨-, rfl⟩
        simp
  | some filter =>
      simp only [filterResources, filterM_eq_ok_iff, Option.some.injEq, forall_eq', Option.all_some]

theorem arrange_perm {sorted : List Json} (sort : spec.arrange schema resources = .ok sorted) :
    sorted.Perm resources := by
  rw [arrange] at sort
  split at sort
  · cases sort
    exact .refl _
  · cases sort
    exact .refl _
  · exact sortResources_perm sort

theorem arrange_filter {sorted : List Json} (transitive : spec.SortsTransitively schema resources)
    (sort : spec.arrange schema resources = .ok sorted) (keep : Json → Bool) :
    spec.arrange schema (resources.filter keep) = .ok (sorted.filter keep) := by
  rw [arrange] at sort ⊢
  split at sort
  · cases sort
    rfl
  · cases sort
    rfl
  · next path _ given => exact sortResources_filter (transitive path given) sort keep

/-- What is filtered after it is sorted may as well be filtered before. -/
theorem select_arrange_iff {sorted : List Json}
    (transitive : spec.SortsTransitively schema resources)
    (sort : spec.arrange schema resources = .ok sorted) (matching : List Json) :
    (∃ kept, spec.select schema resources = .ok kept ∧ spec.arrange schema kept = .ok matching) ↔
      spec.select schema sorted = .ok matching := by
  -- the same resources are tested in either order, so one test fails if the other does
  have perm := arrange_perm sort
  simp only [select_eq_ok_iff, perm.mem_iff]
  constructor
  · rintro ⟨_, ⟨tested, rfl⟩, arranged⟩
    rw [arrange_filter transitive sort] at arranged
    cases arranged
    exact ⟨tested, rfl⟩
  · rintro ⟨tested, rfl⟩
    exact ⟨_, ⟨tested, rfl⟩, arrange_filter transitive sort _⟩

/-- The attributes that are shown may be cut out before the page is or after. -/
theorem present_page {shown : List Json} (presented : spec.present schema resources = .ok shown) :
    spec.present schema (spec.page resources) = .ok (spec.page shown) := by
  have related := mapM_eq_ok_iff.mp presented
  refine mapM_eq_ok_iff.mpr ?_
  simp only [page, paginate]
  have rest := List.forall₂_drop (max 1 spec.startIndex - 1).toNat related
  cases spec.count with
  | none => exact rest
  | some count => exact List.forall₂_take count.toNat rest

end QuerySpec

namespace Listing

variable {spec : QuerySpec} {schema : Option ResourceSchema} {listing : Listing}

theorem filterStage_eq (listing : Listing) (spec : QuerySpec) (schema : Option ResourceSchema) :
    listing.filterStage spec schema =
      if listing.filtered then .ok listing.resources
      else spec.select schema listing.resources := by
  rw [filterStage, QuerySpec.select]
  cases spec.filter <;> simp

theorem sortStage_eq (listing : Listing) (spec : QuerySpec) (schema : Option ResourceSchema)
    (resources : List Json) :
    listing.sortStage spec schema resources =
      if listing.sorted then .ok resources else spec.arrange schema resources := by
  rw [sortStage, QuerySpec.arrange, needsSort]
  cases spec.sortBy with
  | none => simp
  | some path =>
      by_cases empty : path = ""
      · subst empty
        simp
      · cases listing.sorted <;> simp [empty]

/-- A listing filtered to some of its resources. -/
def afterSelect (listing : Listing) (kept : List Json) : Listing :=
  { listing with resources := kept, filtered := true }

/-- A listing with its resources sorted. -/
def afterArrange (listing : Listing) (sorted : List Json) : Listing :=
  { listing with resources := sorted, sorted := true }

/-- The page of a query cut out of a listing, which states how many resources it had. -/
def afterCut (listing : Listing) (spec : QuerySpec) : Listing :=
  { listing with
    resources := spec.page listing.resources
    total := some (.count listing.resources.length)
    paginated := true }

/-- A listing with its resources as they are shown. -/
def afterPresent (listing : Listing) (shown : List Json) : Listing :=
  { listing with resources := shown, projected := true }

/-- Whether a listing has whole resources of all pages. -/
def Whole (listing : Listing) : Prop := listing.paginated = false ∧ listing.projected = false

/-- Whether nothing is left to filter or sort for a query. -/
def Ready (listing : Listing) (spec : QuerySpec) : Prop :=
  listing.needsFilter spec = false ∧ listing.needsSort spec = false

/-- The resources that a query matches on all pages, in its order. -/
def matching (listing : Listing) (spec : QuerySpec) (schema : Option ResourceSchema) :
    Except Failure (List Json) := do
  listing.sortStage spec schema (← listing.filterStage spec schema)

/-- What is ready has the resources that the query matches. -/
theorem Ready.matching_eq (ready : listing.Ready spec) (schema : Option ResourceSchema) :
    listing.matching spec schema = .ok listing.resources := by
  obtain ⟨filtered, sorted⟩ := ready
  have selected : listing.filterStage spec schema = .ok listing.resources := by
    rw [filterStage]
    split
    · next filter given => simp_all [needsFilter]
    · rfl
  have arranged : listing.sortStage spec schema listing.resources = .ok listing.resources := by
    rw [sortStage, sorted]
    split <;> rfl
  rw [matching, selected]
  exact arranged

theorem matching_afterSelect {kept : List Json} (new : listing.filtered = false)
    (selected : spec.select schema listing.resources = .ok kept) :
    (listing.afterSelect kept).matching spec schema = listing.matching spec schema := by
  simp only [matching, filterStage_eq, sortStage_eq, afterSelect, new, selected]
  rfl

theorem matching_afterArrange {sorted : List Json} (new : listing.sorted = false)
    (transitive : spec.SortsTransitively schema listing.resources)
    (arranged : spec.arrange schema listing.resources = .ok sorted) (found : List Json) :
    (listing.afterArrange sorted).matching spec schema = .ok found ↔
      listing.matching spec schema = .ok found := by
  simp only [matching, filterStage_eq, sortStage_eq, afterArrange, bind_eq_ok_iff, new]
  cases listing.filtered with
  | true => simp [arranged]
  | false => simp [← QuerySpec.select_arrange_iff transitive arranged found]

/-- The result of a query, from the page of it and the number of matches on all pages. -/
def finish (projected : Bool) (spec : QuerySpec) (schema : Option ResourceSchema)
    (page : List Json) (total : Total) : Except Failure QueryResult := do
  let resources ← if projected then .ok page else spec.present schema page
  return ⟨resources, total, spec.startIndex, resources.length⟩

theorem complete_of_paginated (paged : listing.paginated = true) :
    listing.complete spec schema = finish listing.projected spec schema listing.resources
      (listing.total.getD (.count listing.resources.length)) := by
  rw [complete, pageStage, paged]
  rfl

theorem complete_of_not_paginated (unpaged : listing.paginated = false) :
    listing.complete spec schema = listing.matching spec schema >>= fun matching =>
      finish listing.projected spec schema (spec.page matching) (.count matching.length) := by
  rw [complete, pageStage, unpaged, matching]
  cases listing.filterStage spec schema with
  | error failure => rfl
  | ok kept =>
      change ((listing.sortStage spec schema kept >>= _) >>= _) =
        listing.sortStage spec schema kept >>= _
      cases listing.sortStage spec schema kept <;> rfl

/-- Listings of whole resources have the same result if they have the same matches. -/
theorem complete_iff_of_matching {other : Listing} (whole : listing.Whole) (whole' : other.Whole)
    (same : ∀ found,
      listing.matching spec schema = .ok found ↔ other.matching spec schema = .ok found)
    (result : QueryResult) :
    listing.complete spec schema = .ok result ↔ other.complete spec schema = .ok result := by
  rw [complete_of_not_paginated whole.1, complete_of_not_paginated whole'.1, whole.2, whole'.2]
  simp only [bind_eq_ok_iff, same]

theorem complete_afterCut (new : listing.paginated = false) (ready : listing.Ready spec) :
    (listing.afterCut spec).complete spec schema = listing.complete spec schema := by
  have paged : (listing.afterCut spec).paginated = true := rfl
  rw [complete_of_paginated paged, complete_of_not_paginated new, ready.matching_eq]
  rfl

/-- The attributes of what is ready may be cut out early, whether or not the page is. -/
theorem complete_afterPresent {shown : List Json} (new : listing.projected = false)
    (ready : listing.Ready spec)
    (presented : spec.present schema listing.resources = .ok shown) :
    (listing.afterPresent shown).complete spec schema = listing.complete spec schema := by
  have length := (mapM_eq_ok_iff.mp presented).length_eq
  have ready' : (listing.afterPresent shown).Ready spec := ready
  rcases Bool.eq_false_or_eq_true listing.paginated with paged | unpaged
  · have paged' : (listing.afterPresent shown).paginated = true := paged
    rw [complete_of_paginated paged, complete_of_paginated paged', new, finish, finish, presented,
      length]
    rfl
  · have unpaged' : (listing.afterPresent shown).paginated = false := unpaged
    rw [complete_of_not_paginated unpaged, complete_of_not_paginated unpaged', ready.matching_eq,
      ready'.matching_eq, new]
    change finish true spec schema (spec.page shown) _ =
      finish false spec schema (spec.page listing.resources) _
    rw [finish, finish, QuerySpec.present_page presented, length]
    rfl

end Listing

/-- The listings that an adapter may answer a query with if it holds some resources and is honest.
It applies the stages of the query as they are defined: it filters and sorts whole resources of all
pages, and cuts out the page or the attributes to be shown once nothing is left to filter or sort.
The flags say what it did, and the total how many resources there were before it cut out the
page. -/
inductive Honest (spec : QuerySpec) (schema : Option ResourceSchema) (resources : List Json) :
    Listing → Prop where
  | bare (total : Option Total) : Honest spec schema resources { resources, total }
  | select {listing : Listing} {kept : List Json} (honest : Honest spec schema resources listing)
      (new : listing.filtered = false) (whole : listing.Whole)
      (selected : spec.select schema listing.resources = .ok kept) :
      Honest spec schema resources (listing.afterSelect kept)
  | arrange {listing : Listing} {sorted : List Json} (honest : Honest spec schema resources listing)
      (new : listing.sorted = false) (whole : listing.Whole)
      (arranged : spec.arrange schema listing.resources = .ok sorted) :
      Honest spec schema resources (listing.afterArrange sorted)
  | cut {listing : Listing} (honest : Honest spec schema resources listing)
      (new : listing.paginated = false) (ready : listing.Ready spec) :
      Honest spec schema resources (listing.afterCut spec)
  | present {listing : Listing} {shown : List Json} (honest : Honest spec schema resources listing)
      (new : listing.projected = false) (ready : listing.Ready spec)
      (presented : spec.present schema listing.resources = .ok shown) :
      Honest spec schema resources (listing.afterPresent shown)

namespace Honest

variable {spec : QuerySpec} {schema : Option ResourceSchema} {resources : List Json}
  {listing : Listing}

/-- Whole resources of all pages are some of those that the adapter holds. -/
theorem subset (honest : Honest spec schema resources listing) (whole : listing.Whole) :
    listing.resources ⊆ resources := by
  induction honest with
  | bare => exact List.Subset.refl resources
  | select _ _ before selected ih =>
      obtain ⟨-, rfl⟩ := QuerySpec.select_eq_ok_iff.mp selected
      exact fun resource member => ih before (List.mem_of_mem_filter member)
  | arrange _ _ before arranged ih =>
      have perm := QuerySpec.arrange_perm arranged
      exact fun resource member => ih before (perm.mem_iff.mp member)
  | cut => cases whole.1
  | present => cases whole.2

/-- Each stage that the adapter applies leaves the result of the query as it is. -/
theorem complete_iff (honest : Honest spec schema resources listing)
    (transitive : spec.SortsTransitively schema resources) (result : QueryResult) :
    listing.complete spec schema = .ok result ↔
      ({ resources } : Listing).complete spec schema = .ok result := by
  -- A sort is compared with one of fewer resources, so the order on all that the adapter holds
  -- has to be carried along to the resources that a filter left.
  induction honest with
  | bare => exact Iff.rfl
  | @select listing kept _ new whole selected ih =>
      have whole' : (listing.afterSelect kept).Whole := whole
      have same := Listing.matching_afterSelect new selected
      rw [← ih, Listing.complete_iff_of_matching whole' whole (fun found => by rw [same])]
  | @arrange listing sorted honest new whole arranged ih =>
      have whole' : (listing.afterArrange sorted).Whole := whole
      have known := transitive.of_subset (honest.subset whole)
      rw [← ih, Listing.complete_iff_of_matching whole' whole
        (Listing.matching_afterArrange new known arranged)]
  | cut _ new ready ih => rw [← ih, Listing.complete_afterCut new ready]
  | present _ new ready presented ih =>
      rw [← ih, Listing.complete_afterPresent new ready presented]

end Honest

/-- A query has the same result from an adapter that applies stages of it honestly as from one
that answers with all its resources, as long as the sort puts these in an order. -/
theorem query_pushDown {σ τ : Type} {bare : Adapter σ} {pushing : Adapter τ} {spec : QuerySpec}
    {schema : Option ResourceSchema} {resources : List Json} {listing : Listing}
    {state after : σ} {state' after' : τ}
    (lists : (bare.list spec).run state = (.ok { resources }, after))
    (pushes : (pushing.list spec).run state' = (.ok listing, after'))
    (honest : Honest spec schema resources listing)
    (transitive : spec.SortsTransitively schema resources) (result : QueryResult) :
    (query pushing spec schema).run state' = (.ok result, after') ↔
      (query bare spec schema).run state = (.ok result, after) := by
  rw [query, query, Action.run_bind_ok lists, Action.run_bind_ok pushes, Action.run_ofExcept,
    Action.run_ofExcept, Prod.mk.injEq, Prod.mk.injEq, honest.complete_iff transitive]
  simp only [and_true]

/-- An adapter that answers every query with the same listing and can do nothing else. -/
def Adapter.answering (listing : Listing) : Adapter Unit where
  create _ := Action.failWith .noSuchMember
  read _ := Action.failWith .noSuchMember
  replace _ _ _ := Action.failWith .noSuchMember
  delete _ _ := Action.failWith .noSuchMember
  list _ := pure listing

/-- A user with a name only. -/
def namedUser (name : String) : Json := .obj [("userName", .str name)]

/-- A query that needs every stage. -/
def firstByName : QuerySpec where
  filter := some (.present (.plain "userName"))
  sortBy := some "userName"
  count := some 1
  attributes := ["userName"]

/-- The users to be listed, with a resource that is none. -/
def unsortedUsers : List Json :=
  [namedUser "bob", .obj [("displayName", .str "staff")], namedUser "alice"]

theorem firstByName_transitive : firstByName.SortsTransitively none unsortedUsers := by
  intro sortBy given path caseExact parsed cased
  cases given
  have named : PathOf.parse "userName" = .ok (.plain "userName" : AttributePath) := rfl
  cases named.symm.trans parsed
  cases cased
  have known (value : Json) (sorts : IsSortValue (.plain "userName") unsortedUsers value) :
      value ∈ [Json.str "bob", .null, .str "alice"] := by
    obtain ⟨resource, member, found⟩ := sorts
    simp only [unsortedUsers, List.mem_cons, List.not_mem_nil, or_false] at member ⊢
    rcases member with rfl | rfl | rfl <;> cases found
    · exact .inl rfl
    · exact .inr (.inl rfl)
    · exact .inr (.inr rfl)
  have decided : ∀ a ∈ [Json.str "bob", .null, .str "alice"],
      ∀ b ∈ [Json.str "bob", .null, .str "alice"], ∀ c ∈ [Json.str "bob", .null, .str "alice"],
      compareKeys true .ascending b a ≠ .lt → compareKeys true .ascending c b ≠ .lt →
        compareKeys true .ascending c a ≠ .lt := by
    decide +kernel
  exact fun a b c ka kb kc => decided a (known a ka) b (known b kb) c (known c kc)

theorem firstByName_arrange :
    firstByName.arrange none [namedUser "bob", namedUser "alice"] =
      .ok [namedUser "alice", namedUser "bob"] := by
  let keyed := [(Json.str "bob", namedUser "bob"), (Json.str "alice", namedUser "alice")]
  have found : ∀ pair ∈ keyed, sortValue pair.2 (.plain "userName") = .ok pair.1 :=
    List.forall_mem_cons.mpr ⟨rfl, List.forall_mem_cons.mpr ⟨rfl, nofun⟩⟩
  have within : ∀ pair ∈ keyed, IsSortValue (.plain "userName") unsortedUsers pair.1 := by
    intro pair member
    refine ⟨pair.2, ?_, found pair member⟩
    simp only [keyed, unsortedUsers, List.mem_cons, List.not_mem_nil, or_false] at member ⊢
    rcases member with rfl | rfl <;> simp
  have falling : keyed.Pairwise fun a b => keyedBefore true .ascending b a = true := by
    refine List.pairwise_pair.mpr ?_
    decide +kernel
  have orders := keyedBefore_orders (α := Json) (firstByName_transitive _ rfl _ _ rfl rfl)
  refine sortResources_eq_ok_iff.mpr ⟨_, true, keyed, rfl, rfl, ⟨rfl, found⟩, ?_⟩
  have reversed : Sorting.sort (keyedBefore true .ascending) keyed = keyed.reverse :=
    Sorting.sort_of_falling orders within falling
  exact congrArg (List.map (·.2)) reversed.symm

/-- The adapter of all users gives the page that another one answers with, which did all stages. -/
theorem query_pushDown_firstByName :
    let listing : Listing :=
      { resources := [namedUser "alice"], total := some (.count 2), filtered := true,
        sorted := true, paginated := true, projected := true }
    Honest firstByName none unsortedUsers listing ∧
      firstByName.SortsTransitively none unsortedUsers ∧
      (query (.answering { resources := unsortedUsers }) firstByName none).run () =
        (.ok ⟨[namedUser "alice"], .count 2, 1, 1⟩, ()) := by
  intro listing
  have selected : firstByName.select none unsortedUsers =
      .ok [namedUser "bob", namedUser "alice"] := rfl
  have honest : Honest firstByName none unsortedUsers listing :=
    .present (.cut (.arrange (.select (.bare none) rfl ⟨rfl, rfl⟩ selected) rfl ⟨rfl, rfl⟩
      firstByName_arrange) rfl ⟨rfl, rfl⟩) rfl ⟨rfl, rfl⟩ rfl
  have pushes : ((Adapter.answering listing).list firstByName).run () = (.ok listing, ()) := rfl
  exact ⟨honest, firstByName_transitive,
    (query_pushDown rfl pushes honest firstByName_transitive _).mp rfl⟩

end Scim
