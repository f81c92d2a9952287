import Scim.Proofs.Query.Ordering

/-!
# Sorting values of one kind

If all values that resources are sorted by are numbers, or all timestamps, or all other texts, then
no comparison falls back on the rank of a value or on how it is shown, and none contradicts another.
The resources end up in the order of their values, and missing values, whose place does not depend
on the direction, behind all others.  A direction turns the values around, but not the
resources that tie.
-/

namespace Scim

/-- Whether the values that are there are all finite numbers, or all timestamps, or all texts that
are no timestamps. -/
def Uniform (known : Json → Prop) : Prop :=
  (∀ value, known value → value.isNull = true ∨ value.rational?.isSome = true) ∨
    (∀ value, known value → value.isNull = true ∨ value.isTimestamp = true) ∨
    (∀ value, known value → value.isNull = true ∨ value.isOtherText = true)

/-- Whether the order of a value and one behind it is that of a sort: they are level, or the first
one is less, or greater if the sort descends. -/
def SortOrder.Admits (order : SortOrder) (way : Option Ordering) : Prop :=
  way = some .eq ∨ way = some (match order with | .ascending => .lt | .descending => .gt)

/-- Whether some resources are a stable arrangement of others by the values at a path: those without
a value last and in their order, those with values before them in the order of these, and those
whose values are level in their order. -/
structure StablySorted (caseExact : Bool) (order : SortOrder) (path : AttributePath)
    (resources sorted : List Json) : Prop where
  perm : sorted.Perm resources
  missing_last : ∃ front,
    sorted = front ++ resources.filter (fun resource => (sortKey path resource).isNull) ∧
    (∀ resource ∈ front, (sortKey path resource).isNull = false) ∧
    front.Pairwise fun a b =>
      order.Admits (Json.order? caseExact (sortKey path a) (sortKey path b))
  ties : ∀ z ∈ resources,
    sorted.filter (fun r => Json.order? caseExact (sortKey path z) (sortKey path r) == some .eq) =
      resources.filter fun r => Json.order? caseExact (sortKey path z) (sortKey path r) == some .eq

variable {known : Json → Prop} {caseExact : Bool} {order : SortOrder} {a b value : Json}

namespace Uniform

theorem isPlain (uniform : Uniform known) (given : known value) : value.isPlain = true := by
  have plain (held : value.isNull = true ∨ value.rational?.isSome = true ∨
      value.isTimestamp = true ∨ value.isOtherText = true) : value.isPlain = true := by
    rcases value with _ | _ | _ | (_ | _ | _) | _ | _ | _ <;>
      simp_all [Json.isNull, Json.rational?, Json.isTimestamp, Json.isOtherText, Json.isPlain]
  rcases uniform with numbers | timestamps | others
  · exact plain ((numbers value given).imp_right .inl)
  · exact plain ((timestamps value given).imp_right fun held => .inr (.inl held))
  · exact plain ((others value given).imp_right fun held => .inr (.inr held))

/-- A circle takes texts of both kinds. -/
theorem straight (uniform : Uniform known) {s t u : String} (known_s : known (.str s))
    (known_u : known (.str u)) : ¬ Json.GoRound caseExact s t u := by
  rintro ⟨x, _, read, _, unread, _⟩
  rcases uniform with numbers | timestamps | others
  · exact (numbers _ known_s).elim nofun nofun
  · have held := (timestamps _ known_u).resolve_left nofun
    rw [Json.isTimestamp, unread] at held
    cases held
  · have held := (others _ known_s).resolve_left nofun
    rw [Json.isOtherText, read] at held
    cases held

theorem preorders (uniform : Uniform known) (caseExact : Bool) (order : SortOrder) :
    Preorders caseExact order known :=
  (preorders_iff_of_plain fun _ => uniform.isPlain).mpr
    fun _ _ _ known_s _ known_u => uniform.straight known_s known_u

/-- Values of one kind have an order of their own. -/
theorem exists_order (uniform : Uniform known) (known_a : known a) (known_b : known b)
    (there_a : a.isNull = false) (there_b : b.isNull = false) :
    ∃ way, Json.order? caseExact a b = some way := by
  have texts (held : a.isTimestamp = true ∨ a.isOtherText = true)
      (held' : b.isTimestamp = true ∨ b.isOtherText = true) :
      ∃ way, Json.order? caseExact a b = some way := by
    cases a with
    | str s =>
        cases b with
        | str t => exact ⟨_, rfl⟩
        | _ => exact held'.elim nofun nofun
    | _ => exact held.elim nofun nofun
  have there (v : Json) {kind : Prop} (present : v.isNull = false)
      (given : v.isNull = true ∨ kind) : kind :=
    given.resolve_left (by rw [present]; exact Bool.false_ne_true)
  rcases uniform with numbers | timestamps | others
  · obtain ⟨p, denotes_p⟩ := Option.isSome_iff_exists.mp (there a there_a (numbers a known_a))
    obtain ⟨q, denotes_q⟩ := Option.isSome_iff_exists.mp (there b there_b (numbers b known_b))
    exact ⟨_, Json.order?_of_rational denotes_p denotes_q⟩
  · exact texts (.inl (there a there_a (timestamps a known_a)))
      (.inl (there b there_b (timestamps b known_b)))
  · exact texts (.inr (there a there_a (others a known_a)))
      (.inr (there b there_b (others b known_b)))

/-- Values of one kind are compared by their own order, turned around if the sort descends. -/
theorem compareKeys_eq (uniform : Uniform known) (known_a : known a) (known_b : known b)
    (there_a : a.isNull = false) (there_b : b.isNull = false) :
    ∃ way, Json.order? caseExact a b = some way ∧ compareKeys caseExact order a b =
      match order with | .ascending => way | .descending => way.swap := by
  obtain ⟨way, found⟩ := uniform.exists_order known_a known_b there_a there_b
  have sorted : Json.sortOrder caseExact a b = way := by
    rw [Json.sortOrder_eq, found]
    rfl
  refine ⟨way, found, ?_⟩
  rw [compareKeys_of_there there_a there_b]
  cases order with
  | ascending => exact sorted
  | descending => exact congrArg Ordering.swap sorted

end Uniform

variable {resources sorted : List Json} {path : AttributePath} {schema : Option ResourceSchema}

/-- The resources on the level of one without a value are those without a value. -/
theorem level_of_missing (missing : sortKey path a = .null) (b : Json) :
    Sorting.level (sortsBefore caseExact order path) a b = (sortKey path b).isNull := by
  rw [Sorting.level, sortsBefore, sortsBefore, missing, compareKeys_null_left,
    compareKeys_null_right]
  cases (sortKey path b).isNull <;> rfl

theorem eq_null_of_isNull (missing : value.isNull = true) : value = .null := by
  cases value with
  | null => rfl
  | _ => cases missing

section

variable (uniform : Uniform (IsSortValue path resources)) (valued : HaveSortValues path resources)

include uniform valued

/-- A resource does not stand after another if its value is missing only if the other one's is, and
admitted before the other one's if both are there. -/
theorem admits_of_notAfter (member : a ∈ resources) (member' : b ∈ resources)
    (notAfter : Sorting.NotAfter (sortsBefore caseExact order path) a b) :
    ((sortKey path b).isNull = false → (sortKey path a).isNull = false) ∧
    ((sortKey path a).isNull = false → (sortKey path b).isNull = false →
      order.Admits (Json.order? caseExact (sortKey path a) (sortKey path b))) := by
  rw [Sorting.NotAfter, sortsBefore, beq_eq_false_iff_ne] at notAfter
  constructor
  · intro there
    cases missing : (sortKey path a).isNull with
    | false => rfl
    | true =>
        rw [eq_null_of_isNull missing, compareKeys_null_right, there] at notAfter
        exact absurd rfl notAfter
  · intro there there'
    have known := valued.isSortValue member
    have known' := valued.isSortValue member'
    rw [(uniform.preorders caseExact order).ne_lt_iff known known'] at notAfter
    obtain ⟨way, found, compared⟩ := uniform.compareKeys_eq known known' there there'
    rw [compared] at notAfter
    rw [found]
    cases order <;> cases way <;> simp_all [SortOrder.Admits]

/-- The resources on the level of one that has a value are those whose values are equal to its. -/
theorem level_iff_order (member : a ∈ resources) (there : (sortKey path a).isNull = false)
    (member' : b ∈ resources) :
    Sorting.level (sortsBefore caseExact order path) a b =
      (Json.order? caseExact (sortKey path a) (sortKey path b) == some .eq) := by
  have known := valued.isSortValue member
  have known' := valued.isSortValue member'
  have preorders := uniform.preorders caseExact order
  rw [Sorting.level, sortsBefore, sortsBefore, preorders.swap _ _ known known']
  cases missing : (sortKey path b).isNull with
  | true =>
      have unordered : Json.order? caseExact (sortKey path a) .null = none := by
        cases sortKey path a <;> rfl
      rw [eq_null_of_isNull missing, compareKeys_null_right, there, unordered]
      rfl
  | false =>
      obtain ⟨way, found, compared⟩ := uniform.compareKeys_eq known known' there missing
      rw [compared, found]
      cases order <;> cases way <;> rfl

/-- A stable arrangement of the resources under the comparison is one by their values. -/
theorem stablySorted_of_arranged
    (arranged : Sorting.Arranged (sortsBefore caseExact order path) (· ∈ resources) resources
      sorted) : StablySorted caseExact order path resources sorted := by
  let there (resource : Json) : Bool := !(sortKey path resource).isNull
  have split : sorted = sorted.filter there ++ sorted.filter (!there ·) := by
    refine Sorting.eq_filter_append_filter there (arranged.ordered.imp_of_mem ?_)
    intro a b held held' notAfter
    simp only [there, Bool.not_eq_true']
    exact (admits_of_notAfter uniform valued (arranged.known_of_mem held)
      (arranged.known_of_mem held') notAfter).1
  have missing : sorted.filter (!there ·) =
      resources.filter fun resource => (sortKey path resource).isNull := by
    simp only [there, Bool.not_not]
    by_cases some : ∃ z ∈ resources, (sortKey path z).isNull = true
    · obtain ⟨z, member, null⟩ := some
      have stable := arranged.stable z member
      rwa [funext (level_of_missing (eq_null_of_isNull null))] at stable
    · push Not at some
      rw [List.filter_eq_nil_iff.mpr some, List.filter_eq_nil_iff.mpr]
      exact fun resource held => some resource (arranged.known_of_mem held)
  refine ⟨arranged.perm, ⟨sorted.filter there, ?_, ?_, ?_⟩, ?_⟩
  · rw [← missing]
    exact split
  · intro resource held
    exact (Bool.not_eq_true' _).mp (List.mem_filter.mp held).2
  · refine (arranged.ordered.filter there).imp_of_mem fun held held' notAfter => ?_
    obtain ⟨held, present⟩ := List.mem_filter.mp held
    obtain ⟨held', present'⟩ := List.mem_filter.mp held'
    exact (admits_of_notAfter uniform valued (arranged.known_of_mem held)
      (arranged.known_of_mem held') notAfter).2 ((Bool.not_eq_true' _).mp present)
      ((Bool.not_eq_true' _).mp present')
  · intro z member
    cases present : (sortKey path z).isNull with
    | true =>
        have unordered (r : Json) :
            ¬ (Json.order? caseExact (sortKey path z) (sortKey path r) == some .eq) = true := by
          rw [eq_null_of_isNull present]
          exact Bool.false_ne_true
        rw [List.filter_eq_nil_iff.mpr fun r _ => unordered r,
          List.filter_eq_nil_iff.mpr fun r _ => unordered r]
    | false =>
        have stable := arranged.stable z member
        rwa [List.filter_congr fun r held => level_iff_order uniform valued member present
            (arranged.known_of_mem held),
          List.filter_congr fun r held => level_iff_order uniform valued member present held]
          at stable

end

theorem sortCaseExact_of_attr {attr : String} (named : path.attr = some attr)
    (schema : Option ResourceSchema) :
    sortCaseExact schema path =
      .ok ((schema.map (·.isCaseExact attr path.sub path.uri)).getD true) := by
  cases schema with
  | none => rfl
  | some schema =>
      rw [sortCaseExact, named]
      rfl

/-- A sort by an attribute has an outcome if each resource can be asked for its value.  If the
values are all numbers, all timestamps or all other texts, it is a stable arrangement of the
resources by these, under the case rule of the attribute, with the resources without a value
last. -/
theorem sortResources_stable {sortBy attr : String} (parsed : PathOf.parse sortBy = .ok path)
    (named : path.attr = some attr) (uniform : Uniform (IsSortValue path resources))
    (order : SortOrder) (schema : Option ResourceSchema) :
    ((∃ sorted, sortResources resources sortBy order schema = .ok sorted) ↔
      HaveSortValues path resources) ∧
    ∀ sorted, sortResources resources sortBy order schema = .ok sorted →
      StablySorted ((schema.map (·.isCaseExact attr path.sub path.uri)).getD true) order path
        resources sorted := by
  have cased := sortCaseExact_of_attr named schema
  have outcome : (∃ sorted, sortResources resources sortBy order schema = .ok sorted) ↔
      HaveSortValues path resources := exists_sortResources_iff parsed cased
  refine ⟨outcome, fun sorted sort => ?_⟩
  have valued := outcome.mp ⟨sorted, sort⟩
  exact stablySorted_of_arranged uniform valued
    (sortResources_arranged parsed cased (uniform.preorders _ order).transitiveOn sort)

/-- Names in falling order without regard to letter case, with equal ones and a missing one. -/
theorem sortResources_stable_displayNames :
    let resources := [.str "b", .null, .str "C", .str "B"].map fun name : Json =>
      Json.obj [("displayName", name)]
    Uniform (IsSortValue (.plain "displayName") resources) ∧
      ∃ sorted, sortResources resources "displayName" .descending (some .user) = .ok sorted ∧
        StablySorted false .descending (.plain "displayName") resources sorted := by
  intro resources
  have found : ∀ name ∈ [Json.str "b", .null, .str "C", .str "B"],
      sortValue (.obj [("displayName", name)]) (.plain "displayName" : AttributePath) =
        .ok name := by
    simp only [List.forall_mem_cons]
    exact ⟨rfl, rfl, rfl, rfl, nofun⟩
  have uniform : Uniform (IsSortValue (.plain "displayName") resources) := by
    refine .inr (.inr fun value sorts => ?_)
    obtain ⟨name, listed, rfl⟩ := exists_of_isSortValue found sorts
    simp only [List.mem_cons, List.not_mem_nil, or_false] at listed
    rcases listed with rfl | rfl | rfl | rfl
    · exact .inr rfl
    · exact .inl rfl
    · exact .inr rfl
    · exact .inr rfl
  have parsed : PathOf.parse "displayName" = .ok (.plain "displayName" : AttributePath) := rfl
  obtain ⟨outcome, stable⟩ := sortResources_stable parsed rfl uniform .descending (some .user)
  obtain ⟨sorted, sort⟩ := outcome.mpr (.of_map found)
  have caseless : (Option.map (·.isCaseExact "displayName" none none)
      (some ResourceSchema.user)).getD true = false := by decide +kernel
  exact ⟨uniform, sorted, sort, caseless ▸ stable sorted sort⟩

end Scim
