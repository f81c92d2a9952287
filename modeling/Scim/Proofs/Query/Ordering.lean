import Scim.Proofs.Query.Preorders
import Scim.Proofs.Sorting.Levels

/-!
# What a sort makes of resources

A sort of resources is a stable arrangement by their values, wherever the comparison of these
is a preorder.  It then depends on the order of its input among ties only, puts the resources
without a value last in the order in which it got them, whichever way it goes, and leaves
those with equal values in their order.
-/

namespace Scim

variable {resources sorted : List Json} {sortBy : String} {order : SortOrder}
  {schema : Option ResourceSchema} {path : AttributePath} {caseExact : Bool}
  {resource value : Json}

/-- The value that a resource is sorted by, null also if none can be looked up. -/
def sortKey (path : AttributePath) (resource : Json) : Json :=
  match sortValue resource path with
  | .ok value => value
  | .error _ => .null

theorem sortKey_of_ok (found : sortValue resource path = .ok value) :
    sortKey path resource = value := by
  rw [sortKey, found]

/-- Whether a resource comes before another in a sort by a path. -/
def sortsBefore (caseExact : Bool) (order : SortOrder) (path : AttributePath) (a b : Json) : Bool :=
  compareKeys caseExact order (sortKey path a) (sortKey path b) == .lt

/-- Whether each of some resources can be asked for its value. -/
def HaveSortValues (path : AttributePath) (resources : List Json) : Prop :=
  ∀ resource ∈ resources, ∃ value, sortValue resource path = .ok value

namespace HaveSortValues

theorem sortValue_eq (valued : HaveSortValues path resources) (member : resource ∈ resources) :
    sortValue resource path = .ok (sortKey path resource) := by
  obtain ⟨value, found⟩ := valued resource member
  rw [found, sortKey_of_ok found]

theorem isSortValue (valued : HaveSortValues path resources) (member : resource ∈ resources) :
    IsSortValue path resources (sortKey path resource) :=
  ⟨resource, member, valued.sortValue_eq member⟩

theorem perm {others : List Json} (valued : HaveSortValues path resources)
    (perm : others.Perm resources) : HaveSortValues path others :=
  fun resource member => valued resource (perm.mem_iff.mp member)

/-- Resources that are made to have values have them. -/
theorem of_map {α : Type} {items : List α} {hold value : α → Json}
    (found : ∀ item ∈ items, sortValue (hold item) path = .ok (value item)) :
    HaveSortValues path (items.map hold) := by
  intro resource member
  obtain ⟨item, listed, rfl⟩ := List.mem_map.mp member
  exact ⟨value item, found item listed⟩

end HaveSortValues

/-- Resources that are made to have values are sorted by no others. -/
theorem exists_of_isSortValue {α : Type} {items : List α} {hold value : α → Json} {known : Json}
    (found : ∀ item ∈ items, sortValue (hold item) path = .ok (value item))
    (sorts : IsSortValue path (items.map hold) known) : ∃ item ∈ items, known = value item := by
  obtain ⟨resource, member, looked⟩ := sorts
  obtain ⟨item, listed, rfl⟩ := List.mem_map.mp member
  rw [found item listed] at looked
  exact ⟨item, listed, (Except.ok.inj looked).symm⟩

/-- A sort has an outcome exactly if each resource can be asked for its value. -/
theorem exists_sortResources_iff (parsed : PathOf.parse sortBy = .ok path)
    (cased : sortCaseExact schema path = .ok caseExact) :
    (∃ sorted, sortResources resources sortBy order schema = .ok sorted) ↔
      HaveSortValues path resources := by
  constructor
  · rintro ⟨sorted, sort⟩
    obtain ⟨path', _, keyed, parsed', _, ⟨rfl, found⟩, _⟩ := sortResources_eq_ok_iff.mp sort
    cases parsed.symm.trans parsed'
    intro resource member
    obtain ⟨pair, held, rfl⟩ := List.mem_map.mp member
    exact ⟨pair.1, found pair held⟩
  · intro valued
    refine ⟨_, sortResources_eq_ok_iff.mpr
      ⟨path, caseExact, resources.map fun r => (sortKey path r, r), parsed, cased, ⟨?_, ?_⟩, rfl⟩⟩
    · rw [List.map_map]
      exact (List.map_id resources).symm
    · intro pair held
      obtain ⟨resource, member, rfl⟩ := List.mem_map.mp held
      exact valued.sortValue_eq member

theorem sortsBefore_orders (valued : HaveSortValues path resources)
    (transitive : TransitiveOn caseExact order (IsSortValue path resources)) :
    Sorting.Orders (sortsBefore caseExact order path) (· ∈ resources) where
  asymm a b before := by
    rw [sortsBefore, beq_iff_eq] at before
    rw [sortsBefore, beq_eq_false_iff_ne]
    exact compareKeys_asymm caseExact order _ _ .lt nofun before
  trans a b c ka kb kc first second := by
    rw [Sorting.NotAfter, sortsBefore, beq_eq_false_iff_ne] at first second ⊢
    exact transitive _ _ _ (valued.isSortValue ka) (valued.isSortValue kb) (valued.isSortValue kc)
      first second

/-- A sort by values that are in an order is the stable arrangement of the resources. -/
theorem sortResources_arranged (parsed : PathOf.parse sortBy = .ok path)
    (cased : sortCaseExact schema path = .ok caseExact)
    (transitive : TransitiveOn caseExact order (IsSortValue path resources))
    (sort : sortResources resources sortBy order schema = .ok sorted) :
    Sorting.Arranged (sortsBefore caseExact order path) (· ∈ resources) resources sorted := by
  obtain ⟨path', caseExact', keyed, parsed', cased', ⟨rfl, found⟩, rfl⟩ :=
    sortResources_eq_ok_iff.mp sort
  cases parsed.symm.trans parsed'
  cases cased.symm.trans cased'
  have arranged := Sorting.sort_arranged (keyedBefore_orders (α := Json) transitive)
    (isSortValue_of_keyed found)
  -- what goes with a resource is its value, so pairs compare as their resources do
  have same : ∀ pair ∈ keyed, ∀ other ∈ keyed, keyedBefore caseExact order pair other =
      sortsBefore caseExact order path pair.2 other.2 := by
    intro pair held other held'
    rw [keyedBefore, sortsBefore, sortKey_of_ok (found pair held),
      sortKey_of_ok (found other held')]
  have within {pair : Json × Json}
      (held : pair ∈ Sorting.sort (keyedBefore caseExact order) keyed) : pair ∈ keyed :=
    arranged.perm.mem_iff.mp held
  refine ⟨fun _ => id, arranged.perm.map _, List.pairwise_map.mpr ?_, ?_⟩
  · refine arranged.ordered.imp_of_mem fun held held' notAfter => ?_
    rw [Sorting.NotAfter, same _ (within held') _ (within held)] at notAfter
    exact notAfter
  · intro z member
    obtain ⟨known, heldKnown, rfl⟩ := List.mem_map.mp member
    have level {pair : Json × Json} (held : pair ∈ keyed) :
        Sorting.level (sortsBefore caseExact order path) known.2 pair.2 =
          Sorting.level (keyedBefore caseExact order) known pair := by
      rw [Sorting.level, Sorting.level, same _ heldKnown _ held, same _ held _ heldKnown]
    have stable := arranged.stable known (isSortValue_of_keyed found known heldKnown)
    have kept (items : List (Json × Json)) (all : ∀ pair ∈ items, pair ∈ keyed) :
        (items.map (·.2)).filter (Sorting.level (sortsBefore caseExact order path) known.2) =
          (items.filter (Sorting.level (keyedBefore caseExact order) known)).map (·.2) := by
      rw [List.filter_map]
      exact congrArg _ (List.filter_congr fun pair held => level (all pair held))
    rw [kept _ fun _ => within, kept _ fun _ => id, stable]

/-! ## The order of the input -/

/-- Whether the outcome of a sort does not depend on the order in which the resources are given,
except that those whose values are level may change places. -/
def SettlesOrder (caseExact : Bool) (order : SortOrder) (path : AttributePath)
    (resources : List Json) (sortBy : String) (schema : Option ResourceSchema) : Prop :=
  ∀ others : List Json, others.Perm resources → ∃ sorted sorted',
    sortResources resources sortBy order schema = .ok sorted ∧
    sortResources others sortBy order schema = .ok sorted' ∧
    List.Forall₂ (fun a b => compareKeys caseExact order (sortKey path a) (sortKey path b) = .eq)
      sorted sorted'

theorem isSortValue_perm {others : List Json} (perm : others.Perm resources) :
    IsSortValue path others = IsSortValue path resources := by
  funext value
  refine propext ⟨?_, ?_⟩
  · rintro ⟨resource, member, found⟩
    exact ⟨resource, perm.mem_iff.mp member, found⟩
  · rintro ⟨resource, member, found⟩
    exact ⟨resource, perm.mem_iff.mpr member, found⟩

/-- Where the comparison is a preorder, the order of the input decides among ties only. -/
theorem Preorders.settlesOrder (preorders : Preorders caseExact order (IsSortValue path resources))
    (parsed : PathOf.parse sortBy = .ok path) (cased : sortCaseExact schema path = .ok caseExact)
    (valued : HaveSortValues path resources) :
    SettlesOrder caseExact order path resources sortBy schema := by
  intro others perm
  obtain ⟨sorted, sort⟩ := (exists_sortResources_iff parsed cased).mpr valued
  obtain ⟨sorted', sort'⟩ := (exists_sortResources_iff parsed cased).mpr (valued.perm perm)
  have transitive := preorders.transitiveOn
  have transitive' : TransitiveOn caseExact order (IsSortValue path others) :=
    (isSortValue_perm perm).symm ▸ transitive
  have arranged := sortResources_arranged parsed cased transitive sort
  have arranged' := sortResources_arranged parsed cased transitive' sort'
  have sameItems : (· ∈ others) = (· ∈ resources) := funext fun _ => propext perm.mem_iff
  rw [sameItems] at arranged'
  have levels := arranged.forall₂_level (sortsBefore_orders valued transitive) arranged' perm
  refine ⟨sorted, sorted', sort, sort', levels.imp ?_⟩
  rintro a b ⟨member, member', level⟩
  have known := valued.isSortValue member
  have known' := valued.isSortValue member'
  obtain ⟨notAfter, notBefore⟩ := (Sorting.level_iff a b).mp level
  rw [Sorting.NotAfter, sortsBefore, beq_eq_false_iff_ne] at notAfter notBefore
  rw [preorders.ne_lt_iff known known'] at notAfter
  cases compared : compareKeys caseExact order (sortKey path a) (sortKey path b) with
  | eq => rfl
  | lt => exact absurd compared notBefore
  | gt => exact absurd compared notAfter

/-- The comparison of a sort of resources by truth values, finite numbers and texts is a total
preorder with the missing values last, and its outcome independent of the order of the input,
exactly if no three of the texts go round in a circle. -/
theorem preorders_iff_straight (parsed : PathOf.parse sortBy = .ok path)
    (cased : sortCaseExact schema path = .ok caseExact) (valued : HaveSortValues path resources)
    (plain : ∀ value, IsSortValue path resources value → value.isPlain = true) :
    (Preorders caseExact order (IsSortValue path resources) ∧
      SettlesOrder caseExact order path resources sortBy schema) ↔
    ∀ s t u, IsSortValue path resources (.str s) → IsSortValue path resources (.str t) →
      IsSortValue path resources (.str u) → ¬ Json.GoRound caseExact s t u := by
  rw [← preorders_iff_of_plain plain]
  exact ⟨And.left, fun preorders => ⟨preorders, preorders.settlesOrder parsed cased valued⟩⟩

/-- A resource that has nothing but a title. -/
def titled (title : Json) : Json := .obj [("title", title)]

/-- Titles of all kinds, with the missing one last: a truth value comes before a number, and a
number before texts. -/
theorem preorders_iff_straight_titles :
    let resources := [Json.str "x", .null, .str "2024-01-01", .int 3, .bool true].map titled
    HaveSortValues (.plain "title") resources ∧
      (∀ value, IsSortValue (.plain "title") resources value → value.isPlain = true) ∧
      Preorders true .descending (IsSortValue (.plain "title") resources) ∧
      SettlesOrder true .descending (.plain "title") resources "title" none := by
  intro resources
  have found : ∀ title ∈ [Json.str "x", .null, .str "2024-01-01", .int 3, .bool true],
      sortValue (titled title) (.plain "title" : AttributePath) = .ok title := by
    simp only [List.forall_mem_cons]
    exact ⟨rfl, rfl, rfl, rfl, rfl, nofun⟩
  have valued : HaveSortValues (.plain "title") resources := .of_map found
  have plain (value : Json) (sorts : IsSortValue (.plain "title") resources value) :
      value.isPlain = true := by
    obtain ⟨title, listed, rfl⟩ := exists_of_isSortValue found sorts
    simp only [List.mem_cons, List.not_mem_nil, or_false] at listed
    rcases listed with rfl | rfl | rfl | rfl | rfl <;> rfl
  have straight (s t u : String) (ks : IsSortValue (.plain "title") resources (.str s))
      (kt : IsSortValue (.plain "title") resources (.str t))
      (_ : IsSortValue (.plain "title") resources (.str u)) : ¬ Json.GoRound true s t u := by
    -- there is only one timestamp, and it stands on a level with itself
    have timestamp (v : String) (sorts : IsSortValue (.plain "title") resources (.str v))
        {x : Timestamp} (read : Timestamp.parse? v = some x) : v = "2024-01-01" := by
      obtain ⟨title, listed, rfl⟩ := exists_of_isSortValue found sorts
      simp only [List.mem_cons, List.not_mem_nil, or_false, Json.str.injEq, reduceCtorEq,
        false_or] at listed
      rcases listed with rfl | rfl
      · cases read
      · rfl
    rintro ⟨x, y, left, right, _, _, _, _, strict⟩
    obtain rfl := timestamp s ks left
    obtain rfl := timestamp t kt right
    cases left.symm.trans right
    exact strict.elim (lt_irrefl _) (lt_irrefl _)
  exact ⟨valued, plain, (preorders_iff_straight rfl rfl valued plain).mpr straight⟩

/-- The text between two timestamps with different offsets closes a circle: it stands before the
first one and behind the second, which is the later one. -/
theorem not_preorders :
    ¬ ∀ (resources : List Json) (sortBy : String) (order : SortOrder)
      (schema : Option ResourceSchema) (path : AttributePath) (caseExact : Bool),
      PathOf.parse sortBy = .ok path → sortCaseExact schema path = .ok caseExact →
      HaveSortValues path resources →
      (∀ value, IsSortValue path resources value → value.isPlain = true) →
      Preorders caseExact order (IsSortValue path resources) ∧
        SettlesOrder caseExact order path resources sortBy schema := by
  intro preorders
  let titles := [Json.str "2024-01-01T10:00+05:00", .str "2024-01-01T08:00Z", .str "2024-01-01T09"]
  have found : ∀ title ∈ titles,
      sortValue (titled title) (.plain "title" : AttributePath) = .ok title := by
    simp only [titles, List.forall_mem_cons]
    exact ⟨rfl, rfl, rfl, nofun⟩
  have sorts {title : Json} (listed : title ∈ titles) :
      IsSortValue (.plain "title") (titles.map titled) title :=
    ⟨titled title, List.mem_map_of_mem listed, found title listed⟩
  have plain (value : Json) (known : IsSortValue (.plain "title") (titles.map titled) value) :
      value.isPlain = true := by
    obtain ⟨title, listed, rfl⟩ := exists_of_isSortValue found known
    simp only [titles, List.mem_cons, List.not_mem_nil, or_false] at listed
    rcases listed with rfl | rfl | rfl <;> rfl
  have trans := (preorders (titles.map titled) "title" .ascending none (.plain "title") true rfl rfl
    (.of_map found) plain).1.trans _ _ _ (sorts (.head _)) (sorts (.tail _ (.head _)))
      (sorts (.tail _ (.tail _ (.head _))))
  revert trans
  decide +kernel

end Scim
