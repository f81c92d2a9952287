import Mathlib.Data.List.Permutation
import Scim.Proofs.Filter.Bracketing
import Scim.Proofs.Path.Dotting
import Scim.Proofs.Query.StableSorting

/-!
# Sorting by complex values

An object is sorted by its `value`, so that a sort by an attribute with objects compares the same
values as a sort by the dotted path to their `value`.  But each sort looks up whether letter case
matters for its own path.  Two texts that letter case puts in another order show that the sorts
agree on all resources only if the schema says the same of both paths.
-/

namespace Scim

variable {path : AttributePath} {resource : Json} {resources : List Json}
  {schema : Option ResourceSchema} {order : SortOrder} {attr text : String}

/-- Whether the values that a path selects are objects, empty values aside. -/
def HaveObjects (path : AttributePath) (resources : List Json) : Prop :=
  ∀ resource ∈ resources, ∀ values, attributeValues resource path.whole = .ok values →
    ∀ value ∈ values, value.hasValue = true → value.isObj = true

theorem primaryOrFirst_eq_null_or_mem (values : List Json) :
    Json.primaryOrFirst values = .null ∨ Json.primaryOrFirst values ∈ values := by
  rw [Json.primaryOrFirst]
  cases found : values.find? Members.isPrimary with
  | some item => exact .inr (List.mem_of_find?_eq_some found)
  | none =>
      cases values with
      | nil => exact .inl rfl
      | cons first rest => exact .inr List.mem_cons_self

/-- An object is sorted by what it is sorted by on the dotted path to its `value`. -/
theorem sortValue_dot (whole : path.sub = none)
    (objects : ∀ values, attributeValues resource path.whole = .ok values →
      ∀ value ∈ values, value.hasValue = true → value.isObj = true) :
    sortValue resource (path.dot "value") = sortValue resource path := by
  rw [sortValue, sortValue, PathOf.dot, whole]
  change (attributeValues resource path.whole >>= _) = (attributeValues resource path.whole >>= _)
  cases selected : attributeValues resource path.whole with
  | error failure => rfl
  | ok values =>
      dsimp only [bind, Except.bind]
      -- what is no object is empty, and so missing on both paths
      have empty (other : (Json.primaryOrFirst values).isObj = false) :
          (Json.primaryOrFirst values).hasValue = false := by
        rcases primaryOrFirst_eq_null_or_mem values with null | member
        · rw [null]
          rfl
        · refine Bool.eq_false_iff.mpr fun given => ?_
          rw [objects values selected _ member given] at other
          cases other
      cases item : Json.primaryOrFirst values with
      | null => rfl
      | obj members => rfl
      | _ =>
          rw [item] at empty
          exact (congrArg Except.ok (if_neg (by rw [empty rfl]; exact Bool.false_ne_true))).symm

/-- Sorts that compare the same values under the same case rule are the same. -/
theorem sortResources_congr {other : AttributePath} {otherText : String}
    (parsed : PathOf.parse text = .ok path) (parsed' : PathOf.parse otherText = .ok other)
    (cased : sortCaseExact schema other = sortCaseExact schema path)
    (found : ∀ resource ∈ resources, sortValue resource other = sortValue resource path) :
    sortResources resources otherText order schema = sortResources resources text order schema := by
  rw [sortResources, sortResources, sortOn, sortOn, parsed, parsed']
  dsimp only [bind, Except.bind]
  rw [cased]
  cases sortCaseExact schema path with
  | error failure => rfl
  | ok caseExact =>
      dsimp only
      rw [mapM_congr fun resource member => by rw [id, found resource member]]
      rfl

/-! ## Values that letter case puts in another order -/

/-- A resource that has nothing but an attribute with some `value`, under a URN if there is one. -/
def holding (uri : Option String) (attr value : String) : Json :=
  let named : Members := [(attr, .obj [("value", .str value)])]
  match uri with
  | none => .obj named
  | some uri => .obj [(uri, .obj named)]

theorem Members.attr_single (name : String) (value : Json) :
    Members.attr [(name, value)] name = value :=
  congrArg (·.getD .null) (Members.attr?_setAttr_self [] name value)

theorem attributeValues_holding (named : path.attr = some attr) (value : String) :
    attributeValues (holding path.uri attr value) path.whole =
      .ok [.obj [("value", .str value)]] := by
  rw [attributeValues, PathOf.whole, named]
  cases path.uri with
  | none => exact congrArg (Except.ok ·.valuesOf) (Members.attr_single attr _)
  | some uri =>
      dsimp only [holding, Json.attrOf, bind, Except.bind]
      rw [Members.attr_single]
      exact congrArg (Except.ok ·.valuesOf) (Members.attr_single attr _)

theorem sortValue_holding (named : path.attr = some attr) (whole : path.sub = none)
    {value : String} (nonempty : value ≠ "") :
    sortValue (holding path.uri attr value) path = .ok (.str value) := by
  have first (item : Json) : Json.primaryOrFirst [item] = item := by
    rw [Json.primaryOrFirst, List.find?_singleton]
    split <;> rfl
  rw [sortValue, attributeValues_holding named, whole]
  dsimp only [bind, Except.bind]
  rw [first]
  have looked := Members.attr_single "value" (.str value)
  have held : (Members.attr [("value", .str value)] "value").hasValue = true := by
    rw [looked]
    exact bne_iff_ne.mpr nonempty
  exact congrArg Except.ok ((if_pos held).trans looked)

theorem haveObjects_holding (named : path.attr = some attr) (values : List String) :
    HaveObjects path (values.map (holding path.uri attr)) := by
  intro resource member found selected value held given
  obtain ⟨text, _, rfl⟩ := List.mem_map.mp member
  rw [attributeValues_holding named] at selected
  cases selected
  cases List.mem_singleton.mp held
  rfl

/-- Texts that letter case puts in another order are in no order that is one under two case
rules. -/
theorem caseExact_eq_of_notAfter {exact other : Bool} {s t : String}
    (pair : [s, t] = ["a", "B"] ∨ [s, t] = ["B", "a"])
    (ordered : compareKeys exact order (.str t) (.str s) ≠ .lt)
    (ordered' : compareKeys other order (.str t) (.str s) ≠ .lt) : exact = other := by
  revert ordered ordered'
  rcases pair with same | same <;> cases same <;> cases order <;> cases exact <;> cases other <;>
    decide +kernel

section

variable {hold : String → Json}
  (found : ∀ s ∈ ["a", "B"], sortValue (hold s) path = .ok (.str s))

include found

theorem uniform_of_texts : Uniform (IsSortValue path (["a", "B"].map hold)) := by
  refine .inr (.inr fun value sorts => .inr ?_)
  obtain ⟨s, listed, rfl⟩ := exists_of_isSortValue found sorts
  simp only [List.mem_cons, List.not_mem_nil, or_false] at listed
  rcases listed with rfl | rfl <;> rfl

/-- Sorts by two paths that put two texts in the same order go by the same case rule. -/
theorem caseExact_eq_of_sortsAlike {other : AttributePath} {otherText : String}
    {exact otherExact : Bool}
    (parsed : PathOf.parse text = .ok path) (parsed' : PathOf.parse otherText = .ok other)
    (cased : sortCaseExact schema path = .ok exact)
    (cased' : sortCaseExact schema other = .ok otherExact)
    (found' : ∀ s ∈ ["a", "B"], sortValue (hold s) other = .ok (.str s))
    (alike : sortResources (["a", "B"].map hold) otherText order schema =
      sortResources (["a", "B"].map hold) text order schema) : exact = otherExact := by
  have compared {path : AttributePath} {caseExact : Bool} {s t : String}
      (found_s : sortValue (hold s) path = .ok (.str s))
      (found_t : sortValue (hold t) path = .ok (.str t))
      (notAfter : Sorting.NotAfter (sortsBefore caseExact order path) (hold s) (hold t)) :
      compareKeys caseExact order (.str t) (.str s) ≠ .lt := by
    rwa [Sorting.NotAfter, sortsBefore, sortKey_of_ok found_s, sortKey_of_ok found_t,
      beq_eq_false_iff_ne] at notAfter
  obtain ⟨sorted, sort⟩ : ∃ sorted,
      sortResources (["a", "B"].map hold) text order schema = .ok sorted :=
    (exists_sortResources_iff parsed cased).mpr (.of_map found)
  have arranged := sortResources_arranged parsed cased
    ((uniform_of_texts found).preorders exact order).transitiveOn sort
  have arranged' := sortResources_arranged parsed' cased'
    ((uniform_of_texts found').preorders otherExact order).transitiveOn (alike.trans sort)
  have a : "a" ∈ ["a", "B"] := List.mem_cons_self
  have b : "B" ∈ ["a", "B"] := List.mem_cons_of_mem _ List.mem_cons_self
  have pair : sorted = [hold "a", hold "B"] ∨ sorted = [hold "B", hold "a"] :=
    List.perm_pair.mp arranged.perm
  rcases pair with rfl | rfl
  · exact caseExact_eq_of_notAfter (.inl rfl)
      (compared (found _ a) (found _ b) (List.pairwise_pair.mp arranged.ordered))
      (compared (found' _ a) (found' _ b) (List.pairwise_pair.mp arranged'.ordered))
  · exact caseExact_eq_of_notAfter (.inr rfl)
      (compared (found _ b) (found _ a) (List.pairwise_pair.mp arranged.ordered))
      (compared (found' _ b) (found' _ a) (List.pairwise_pair.mp arranged'.ordered))

end

/-- If the sorts by an attribute and by the dotted path to its `value` put the two texts in the same
order, letter case matters in both or in neither. -/
theorem isCaseExact_eq_of_sortsAlike {known : ResourceSchema}
    (parsed : PathOf.parse text = .ok path) (bare : path.restriction = none)
    (named : path.attr = some attr) (whole : path.sub = none)
    (alike : sortResources (["a", "B"].map (holding path.uri attr)) text order (some known) =
      sortResources (["a", "B"].map (holding path.uri attr)) (Text.trim text ++ ".value") order
        (some known)) :
    known.isCaseExact attr none path.uri = known.isCaseExact attr (some "value") path.uri := by
  have dotted : (path.dot "value").attr = some attr := named
  have cased := sortCaseExact_of_attr named (some known)
  have cased' := sortCaseExact_of_attr dotted (some known)
  rw [whole] at cased
  have found : ∀ s ∈ ["a", "B"], sortValue (holding path.uri attr s) path = .ok (.str s) := by
    intro s listed
    refine sortValue_holding named whole ?_
    rintro rfl
    exact absurd listed (by decide)
  have found' : ∀ s ∈ ["a", "B"],
      sortValue (holding path.uri attr s) (path.dot "value") = .ok (.str s) := by
    intro s listed
    rw [sortValue_dot whole (haveObjects_holding named _ _ (List.mem_map_of_mem listed))]
    exact found s listed
  exact caseExact_eq_of_sortsAlike found parsed (PathOf.parse_value parsed bare named whole) cased
    cased' found' alike.symm

/-- A sort by an attribute and a sort by the dotted path to its `value` are the same on all
resources in which the values of the attribute are objects, exactly if the schema has letter case
matter in both or in neither. -/
theorem sortResources_value_iff (parsed : PathOf.parse text = .ok path)
    (bare : path.restriction = none) (named : path.attr = some attr) (whole : path.sub = none)
    (order : SortOrder) (schema : Option ResourceSchema) :
    (∀ resources, HaveObjects path resources →
      sortResources resources text order schema =
        sortResources resources (Text.trim text ++ ".value") order schema) ↔
    ∀ known ∈ schema,
      known.isCaseExact attr none path.uri = known.isCaseExact attr (some "value") path.uri := by
  constructor
  · rintro alike known ⟨⟩
    exact isCaseExact_eq_of_sortsAlike parsed bare named whole
      (alike _ (haveObjects_holding named ["a", "B"]))
  · intro same resources objects
    have dotted : (path.dot "value").attr = some attr := named
    have sameCase : sortCaseExact schema (path.dot "value") = sortCaseExact schema path := by
      rw [sortCaseExact_of_attr named, sortCaseExact_of_attr dotted, whole]
      cases schema with
      | none => rfl
      | some known => exact congrArg Except.ok (same known rfl).symm
    exact (sortResources_congr parsed (PathOf.parse_value parsed bare named whole) sameCase
      fun resource member => sortValue_dot whole (objects resource member)).symm

/-- Users by their telephone numbers, of which the primary one counts, in descending order. -/
theorem sortResources_value_phoneNumbers :
    let number (value : String) (isPrimary : Bool) : Json :=
      .obj [("value", .str value), ("primary", .bool isPrimary)]
    let users : List Json := [.obj [("phoneNumbers", number "b" false)], .obj [],
      .obj [("phoneNumbers", .arr [number "z" false, number "C" true])],
      .obj [("phoneNumbers", .arr [.null, number "b" false])]]
    HaveObjects (.plain "phoneNumbers") users ∧
      sortResources users "phoneNumbers" .descending (some .user) =
        sortResources users "phoneNumbers.value" .descending (some .user) := by
  intro number users
  have selects {user : Json} (items : List Json)
      (selected : attributeValues user (.plain "phoneNumbers" : AttributePath) = .ok items)
      (every : items.all (·.isObj) = true) (values : List Json)
      (found : attributeValues user (.plain "phoneNumbers" : AttributePath) = .ok values) :
      ∀ value ∈ values, value.hasValue = true → value.isObj = true := by
    cases selected.symm.trans found
    exact fun value held _ => List.all_eq_true.mp every value held
  have objects : HaveObjects (.plain "phoneNumbers") users := by
    simp only [HaveObjects, users, List.forall_mem_cons]
    exact ⟨selects [number "b" false] rfl rfl, selects [] rfl rfl,
      selects [number "z" false, number "C" true] rfl rfl, selects [number "b" false] rfl rfl,
      nofun⟩
  have parsed : PathOf.parse "phoneNumbers" = .ok (.plain "phoneNumbers" : AttributePath) := rfl
  have spelled : Text.trim "phoneNumbers" ++ ".value" = "phoneNumbers.value" := by decide +kernel
  have sameCase : ∀ known ∈ some ResourceSchema.user,
      known.isCaseExact "phoneNumbers" none none =
        known.isCaseExact "phoneNumbers" (some "value") none := by
    rintro known ⟨⟩
    decide +kernel
  have alike := (sortResources_value_iff parsed rfl rfl rfl .descending (some .user)).mpr sameCase
    users objects
  rw [spelled] at alike
  exact ⟨objects, alike⟩

/-- The addresses of a user are compared with regard to letter case, and their `value` without. -/
theorem not_sortResources_value :
    ¬ ∀ (resources : List Json) (text attr : String) (order : SortOrder)
      (schema : Option ResourceSchema) (path : AttributePath),
      PathOf.parse text = .ok path → path.restriction = none → path.attr = some attr →
      path.sub = none → HaveObjects path resources →
      sortResources resources text order schema =
        sortResources resources (Text.trim text ++ ".value") order schema := by
  intro alike
  have emails : (.plain "emails" : AttributePath).attr = some "emails" := rfl
  have parsed : PathOf.parse "emails" = .ok (.plain "emails" : AttributePath) := rfl
  have same := isCaseExact_eq_of_sortsAlike parsed rfl emails rfl
    (alike _ "emails" "emails" .ascending (some .user) _ parsed rfl emails rfl
      (haveObjects_holding emails ["a", "B"]))
  revert same
  decide +kernel

end Scim
