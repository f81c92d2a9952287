import Scim.Proofs.Outcome
import Scim.Proofs.Query.Values
import Scim.Proofs.Sorting.Permuting
import Scim.Proofs.Sorting.Stability
import Scim.Query.Result

/-!
# The stages of a query

What each stage of a query makes of a list of resources, and in which order the stages may
be applied: the filter before or after the sort, the page before or after the projection.
-/

namespace Scim

/-! ## Sorting some of the resources -/

/-- A value that one of some resources is sorted by. -/
def IsSortValue (path : AttributePath) (resources : List Json) (value : Json) : Prop :=
  ∃ resource ∈ resources, sortValue resource path = .ok value

/-- Whether a sort puts some values in an order: a value that another one does not come before
stands before all that the other stands before. -/
def TransitiveOn (caseExact : Bool) (order : SortOrder) (known : Json → Prop) : Prop :=
  ∀ a b c, known a → known b → known c → compareKeys caseExact order b a ≠ .lt →
    compareKeys caseExact order c b ≠ .lt → compareKeys caseExact order c a ≠ .lt

/-- Whether an item comes before another in a sort by the values that go with them. -/
def keyedBefore {α : Type} (caseExact : Bool) (order : SortOrder) (a b : Json × α) : Bool :=
  compareKeys caseExact order a.1 b.1 == .lt

theorem keyedBefore_orders {α : Type} {caseExact : Bool} {order : SortOrder} {known : Json → Prop}
    (transitive : TransitiveOn caseExact order known) :
    Sorting.Orders (keyedBefore (α := α) caseExact order) fun item => known item.1 where
  asymm a b before := by
    rw [keyedBefore, beq_iff_eq] at before
    rw [keyedBefore, beq_eq_false_iff_ne]
    exact compareKeys_asymm caseExact order a.1 b.1 .lt nofun before
  trans a b c ka kb kc first second := by
    rw [Sorting.NotAfter, keyedBefore, beq_eq_false_iff_ne] at first second ⊢
    exact transitive a.1 b.1 c.1 ka kb kc first second

/-- Items go with their values exactly if each value is that of its item. -/
theorem mapM_keyed_eq_ok_iff {α β : Type} {key : α → Except Failure β} {items : List α}
    {keyed : List (β × α)} :
    (items.mapM fun item => return (← key item, item)) = .ok keyed ↔
      items = keyed.map (·.2) ∧ ∀ pair ∈ keyed, key pair.2 = .ok pair.1 := by
  rw [mapM_eq_ok_iff]
  constructor
  · intro related
    induction related with
    | nil => exact ⟨rfl, nofun⟩
    | cons first _ ih =>
        obtain ⟨value, found, equal⟩ := bind_eq_ok_iff.mp first
        cases equal
        exact ⟨congrArg _ ih.1, List.forall_mem_cons.mpr ⟨found, ih.2⟩⟩
  · rintro ⟨rfl, found⟩
    rw [List.forall₂_map_left_iff, List.forall₂_same]
    exact fun pair member => bind_eq_ok_iff.mpr ⟨pair.1, found pair member, rfl⟩

/-- Resources are sorted along with their values, which must exist for all of them. -/
theorem sortResources_eq_ok_iff {resources sorted : List Json} {sortBy : String}
    {order : SortOrder} {schema : Option ResourceSchema} :
    sortResources resources sortBy order schema = .ok sorted ↔
      ∃ (path : AttributePath) (caseExact : Bool) (keyed : List (Json × Json)),
        PathOf.parse sortBy = .ok path ∧ sortCaseExact schema path = .ok caseExact ∧
        (resources = keyed.map (·.2) ∧ ∀ pair ∈ keyed, sortValue pair.2 path = .ok pair.1) ∧
        sorted = (Sorting.sort (keyedBefore caseExact order) keyed).map (·.2) := by
  rw [sortResources, sortOn, bind_eq_ok_iff]
  constructor
  · rintro ⟨path, parsed, rest⟩
    obtain ⟨caseExact, cased, rest⟩ := bind_eq_ok_iff.mp rest
    obtain ⟨keyed, mapped, equal⟩ := bind_eq_ok_iff.mp rest
    cases equal
    exact ⟨path, caseExact, keyed, parsed, cased, mapM_keyed_eq_ok_iff.mp mapped, rfl⟩
  · rintro ⟨path, caseExact, keyed, parsed, cased, mapped, rfl⟩
    exact ⟨path, parsed, bind_eq_ok_iff.mpr ⟨caseExact, cased,
      bind_eq_ok_iff.mpr ⟨keyed, mapM_keyed_eq_ok_iff.mpr mapped, rfl⟩⟩⟩

/-- Whether the comparison of a sort is transitive on the values that some resources are
sorted by. -/
def SortsTransitively (resources : List Json) (sortBy : String) (order : SortOrder)
    (schema : Option ResourceSchema) : Prop :=
  ∀ path caseExact, PathOf.parse sortBy = .ok path → sortCaseExact schema path = .ok caseExact →
    TransitiveOn caseExact order (IsSortValue path resources)

section

variable {resources sorted : List Json} {sortBy : String} {order : SortOrder}
  {schema : Option ResourceSchema}

theorem SortsTransitively.of_subset {fewer : List Json}
    (transitive : SortsTransitively resources sortBy order schema) (subset : fewer ⊆ resources) :
    SortsTransitively fewer sortBy order schema := by
  intro path caseExact parsed cased a b c ka kb kc
  have known (value : Json) : IsSortValue path fewer value → IsSortValue path resources value :=
    fun ⟨resource, member, found⟩ => ⟨resource, subset member, found⟩
  exact transitive path caseExact parsed cased a b c (known a ka) (known b kb) (known c kc)

/-- The values that go with sorted resources are sort values of these. -/
theorem isSortValue_of_keyed {path : AttributePath} {keyed : List (Json × Json)}
    (found : ∀ pair ∈ keyed, sortValue pair.2 path = .ok pair.1) :
    ∀ pair ∈ keyed, IsSortValue path (keyed.map (·.2)) pair.1 :=
  fun pair member => ⟨pair.2, List.mem_map_of_mem member, found pair member⟩

/-- A sort only rearranges the resources. -/
theorem sortResources_perm (sort : sortResources resources sortBy order schema = .ok sorted) :
    sorted.Perm resources := by
  obtain ⟨path, caseExact, keyed, _, _, ⟨rfl, _⟩, rfl⟩ := sortResources_eq_ok_iff.mp sort
  exact (Sorting.sort_perm (keyedBefore caseExact order) keyed).map _

/-- Of sorted resources those that are kept are in the order in which they are sorted alone. -/
theorem sortResources_filter (transitive : SortsTransitively resources sortBy order schema)
    (sort : sortResources resources sortBy order schema = .ok sorted) (keep : Json → Bool) :
    sortResources (resources.filter keep) sortBy order schema = .ok (sorted.filter keep) := by
  obtain ⟨path, caseExact, keyed, parsed, cased, ⟨rfl, found⟩, rfl⟩ :=
    sortResources_eq_ok_iff.mp sort
  have orders := keyedBefore_orders (α := Json) (transitive path caseExact parsed cased)
  refine sortResources_eq_ok_iff.mpr ⟨path, caseExact, keyed.filter (keep ∘ (·.2)), parsed, cased,
    ⟨List.filter_map, ?_⟩, ?_⟩
  · exact fun pair member => found pair (List.mem_of_mem_filter member)
  · rw [List.filter_map, Sorting.sort_filter orders (isSortValue_of_keyed found)]

end

end Scim
