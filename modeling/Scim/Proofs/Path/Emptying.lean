import Scim.Proofs.Patch.Clearing

/-!
# Removing all that a path leads to

The slots of a path are apart from each other and hold values.  Once all of them are removed, the
last first, the path leads nowhere, unless the look for it fails: on an element that lost the
sub-attribute, where the filter crashes without it, or on a URN that is not declared any more.
-/

namespace Scim

open Members Json Patch

variable {schema : ResourceSchema} {path : AttributePath} {attr sub uri key : String}
  {filter : Filter} {value : Json} {items : List Json} {members resource : Members} {home : Home}
  {locations : List Location}

/-! ## Slots in a list -/

/-- Whether a path leads into an element of a list: the filter of the path selects it, and it has
the sub-attribute of the path. -/
def PathOf.leadsInto (path : AttributePath) (schema : ResourceSchema) (item : Json) : Bool :=
  path.restriction.all (·.selects schema path item) && path.sub.all (hasSub · item)

/-- The slot of an element of a list, or of a member of it. -/
def slotAt (home : Home) (key : String) (sub : Option String) (index : Nat) : Location :=
  ⟨home, key, some index, sub⟩

theorem indexesWithSub_eq_findIdxs (sub : String) (start : Nat) (items : List Json) :
    indexesWithSub sub start items = items.findIdxs (hasSub sub) start := by
  induction items generalizing start with
  | nil => rfl
  | cons item rest ih => rw [indexesWithSub, List.findIdxs_cons, ih]

theorem locationsUnder_arr (home : Home) (key : String)
    (splits : path.restriction.isSome = true ∨ path.sub.isSome = true)
    (safe : ¬ SelectionStumbles schema path (.arr items)) :
    locationsUnder home key (.arr items) path (some schema) =
      .ok ((items.findIdxs (path.leadsInto schema)).map (slotAt home key path.sub)) := by
  unfold locationsUnder
  cases restricted : path.restriction with
  | none =>
      cases subEq : path.sub with
      | none => simp [restricted, subEq] at splits
      | some sub =>
          have same : path.leadsInto schema = hasSub sub := by
            funext item
            rw [PathOf.leadsInto, restricted, subEq]
            rfl
          rw [same, ← indexesWithSub_eq_findIdxs]
          rfl
  | some filter =>
      have sound : ∀ element, .obj element ∈ items →
          ¬ filter.Stumbles (.within (some schema) path) element :=
        fun element held stumbles => safe ⟨filter, items, element, restricted, rfl, held, stumbles⟩
      have found := matchingIndexes_having (fun item => path.sub.all (hasSub · item)) 0 sound
      have same : path.leadsInto schema =
          fun item => filter.selects schema path item && path.sub.all (hasSub · item) := by
        funext item
        rw [PathOf.leadsInto, restricted]
        rfl
      obtain ⟨entries, matched, indexes⟩ := map_eq_ok_iff.mp found
      rw [same, ← indexes]
      dsimp only
      rw [matched]
      cases path.sub with
      | none =>
          have all : (entries.filter fun entry => (none : Option String).all
              (hasSub · (.obj entry.2))) = entries := List.filter_eq_self.mpr fun _ _ => rfl
          rw [all, List.map_map]
          rfl
      | some sub =>
          rw [List.map_map]
          rfl

/-- The slots of a path are those of elements, or the attribute itself, or a member of the object
that it is, or there are none. -/
inductive SlotsUnder (schema : ResourceSchema) (home : Home) (key : String) (value : Json)
    (path : AttributePath) : List Location → Prop
  | elements {items : List Json}
      (splits : path.restriction.isSome = true ∨ path.sub.isSome = true)
      (valueEq : value = .arr items) (safe : ¬ SelectionStumbles schema path value) :
      SlotsUnder schema home key value path
        ((items.findIdxs (path.leadsInto schema)).map (slotAt home key path.sub))
  | whole (unrestricted : path.restriction = none) (noSub : path.sub = none) :
      SlotsUnder schema home key value path [⟨home, key, none, none⟩]
  | single {sub : String} {element : Members} (unrestricted : path.restriction = none)
      (subEq : path.sub = some sub) (valueEq : value = .obj element)
      (has : hasSub sub value = true) :
      SlotsUnder schema home key value path [⟨home, key, none, some sub⟩]
  | nowhere (notList : value.isArr = false) : SlotsUnder schema home key value path []

theorem exists_of_hasSub (has : hasSub sub value = true) : ∃ element, value = .obj element := by
  cases value with
  | obj element => exact ⟨element, rfl⟩
  | _ => cases has

theorem slotsUnder_of_locationsUnder
    (found : locationsUnder home key value path (some schema) = .ok locations) :
    SlotsUnder schema home key value path locations := by
  have safe := not_selectionStumbles_of_locationsUnder found
  by_cases splits : path.restriction.isSome = true ∨ path.sub.isSome = true
  · cases value with
    | arr items =>
        rw [locationsUnder_arr home key splits safe] at found
        cases found
        exact .elements splits rfl safe
    | _ =>
        unfold locationsUnder at found
        cases restricted : path.restriction with
        | some filter =>
            rw [restricted] at found
            cases subEq : path.sub <;> rw [subEq] at found <;> cases found <;> exact .nowhere rfl
        | none =>
            obtain ⟨sub, subEq⟩ := Option.isSome_iff_exists.mp
              (splits.resolve_left (by rw [restricted]; exact Bool.false_ne_true))
            rw [restricted, subEq] at found
            dsimp only at found
            split at found
            · next has =>
              cases found
              obtain ⟨element, valueEq⟩ := exists_of_hasSub has
              exact .single restricted subEq valueEq has
            · cases found
              exact .nowhere rfl
  · obtain ⟨unrestricted, noSub⟩ := not_or.mp splits
    rw [Option.not_isSome_iff_eq_none] at unrestricted noSub
    unfold locationsUnder at found
    rw [unrestricted, noSub] at found
    cases found
    exact .whole unrestricted noSub

/-! ## Slots that hold values -/

/-- An element, or a sub-attribute of it. -/
def valueIn (sub : Option String) (item : Json) : Json :=
  match sub with
  | none => item
  | some sub =>
    match item with
    | .obj element => Members.attr element sub
    | _ => .null

theorem Location.get_eq_valueIn (location : Location) (resource : Members) :
    location.get resource = valueIn location.sub (location.holder resource) := rfl

/-- What a path leads to in an element is not null. -/
theorem isNull_valueIn {item : Json}
    (splits : path.restriction.isSome = true ∨ path.sub.isSome = true)
    (leads : path.leadsInto schema item = true) : (valueIn path.sub item).isNull = false := by
  obtain ⟨selected, has⟩ := Bool.and_eq_true_iff.mp leads
  cases subEq : path.sub with
  | none =>
      rw [subEq] at splits
      obtain ⟨filter, restricted⟩ := Option.isSome_iff_exists.mp (splits.resolve_right nofun)
      rw [restricted] at selected
      obtain ⟨element, rfl⟩ := isObj_iff.mp (Bool.and_eq_true_iff.mp selected).1
      rfl
  | some sub =>
      rw [subEq] at has
      cases item with
      | obj element => exact (Bool.not_eq_true' _).mp has
      | _ => cases has

theorem holder_slotAt {sub : Option String} {index : Nat}
    (held : Members.attr (home.members resource) key = .arr items) :
    (slotAt home key sub index).holder resource = items[index]?.getD .null := by
  rw [Location.holder, slotAt]
  dsimp only
  rw [held]

/-- The slots of a path hold values. -/
theorem SlotsUnder.isNull_get
    (slots : SlotsUnder schema home (place (home.members resource) attr)
      (Members.attr (home.members resource) attr) path locations)
    (present : (Members.attr (home.members resource) attr).isNull = false) {location : Location}
    (held : location ∈ locations) : (location.get resource).isNull = false := by
  have stored := attr_place (home.members resource) attr
  cases slots with
  | @elements items splits valueEq =>
      obtain ⟨index, among, rfl⟩ := List.mem_map.mp held
      obtain ⟨bound, leads⟩ := List.mem_findIdxs_iff_exists_getElem_pos.mp among
      rw [Location.get_eq_valueIn, holder_slotAt (stored.trans valueEq),
        List.getElem?_eq_getElem bound]
      exact isNull_valueIn splits leads
  | whole =>
      cases List.mem_singleton.mp held
      rw [← stored] at present
      exact present
  | @single sub element _ _ valueEq has =>
      cases List.mem_singleton.mp held
      rw [Location.get, Location.holder]
      dsimp only
      rw [stored, valueEq]
      rw [valueEq] at has
      exact (Bool.not_eq_true' _).mp has
  | nowhere => cases held

theorem SlotsUnder.nodup (slots : SlotsUnder schema home key value path locations) :
    locations.Nodup := by
  cases slots with
  | elements =>
      refine List.nodup_findIdxs.map fun first last same => ?_
      cases same
      rfl
  | whole | single => exact List.nodup_singleton _
  | nowhere => exact List.nodup_nil

/-! ## Slots that are apart -/

/-- Whether nothing that is put into one of two slots shows in the other. -/
def Location.Apart (resource : Members) (first last : Location) : Prop :=
  ∀ value, last.get (first.set resource value) = last.get resource ∧
    first.get (last.set resource value) = first.get resource

theorem exists_set_slotAt (home : Home) (key : String) (sub : Option String) (index : Nat)
    (resource : Members) (value : Json) :
    ∃ f, (slotAt home key sub index).set resource value =
      home.update resource (onItems key (·.modify index f)) := by
  cases sub with
  | none => exact ⟨_, rfl⟩
  | some sub => exact ⟨_, rfl⟩

theorem get_set_slotAt {sub : Option String} {first last : Nat} (there : home.IsThere resource)
    (held : Members.attr (home.members resource) key = .arr items) (differ : first ≠ last)
    (value : Json) :
    (slotAt home key sub last).get ((slotAt home key sub first).set resource value) =
      (slotAt home key sub last).get resource := by
  obtain ⟨f, changed⟩ := exists_set_slotAt home key sub first resource value
  have heldAfter : Members.attr (home.members (home.update resource
      (onItems key (·.modify first f)))) key = .arr (items.modify first f) := by
    rw [there.members_update, onItems, held]
    exact attr_setAttr_self ..
  rw [changed, Location.get_eq_valueIn, Location.get_eq_valueIn, holder_slotAt heldAfter,
    holder_slotAt held, List.getElem?_modify_ne f items differ]

/-- The slots of a path are apart from each other. -/
theorem SlotsUnder.apart (there : home.IsThere resource)
    (slots : SlotsUnder schema home (place (home.members resource) attr)
      (Members.attr (home.members resource) attr) path locations) :
    locations.Pairwise (Location.Apart resource) := by
  have stored := attr_place (home.members resource) attr
  cases slots with
  | elements splits valueEq =>
      have held := stored.trans valueEq
      rw [List.pairwise_map]
      refine List.nodup_findIdxs.imp fun differ value => ?_
      exact ⟨get_set_slotAt there held differ value, get_set_slotAt there held differ.symm value⟩
  | whole | single => exact List.pairwise_singleton ..
  | nowhere => exact .nil

/-! ## Removing slots -/

/-- A list without an element, or without a sub-attribute of it. -/
def takeOut (sub : Option String) (index : Nat) (items : List Json) : List Json :=
  match sub with
  | none => items.eraseIdx index
  | some sub => items.modify index (deleteSubIn sub)

theorem delete_slotAt (home : Home) (key : String) (sub : Option String) (index : Nat)
    (resource : Members) :
    (slotAt home key sub index).delete resource =
      home.update resource (onItems key (takeOut sub index)) := by
  cases sub <;> rfl

/-- Removing slots of elements from the last on is one change of the list. -/
theorem foldr_delete_slotAt (home : Home) (key : String) (sub : Option String)
    (indexes : List Nat) (resource : Members) :
    (indexes.map (slotAt home key sub)).foldr
        (fun location resource => location.delete resource) resource =
      home.update resource (onItems key fun items => indexes.foldr (takeOut sub) items) := by
  induction indexes with
  | nil => exact (Home.update_self fun members => onItems_self fun _ => rfl).symm
  | cons index rest ih =>
      rw [List.map_cons, List.foldr_cons, ih, delete_slotAt, Home.update_update]
      congr 1
      funext members
      exact onItems_onItems _ _

/-- What is left of a list when what a path leads to in its elements is removed. -/
def leftOver (path : AttributePath) (schema : ResourceSchema) (items : List Json) : List Json :=
  match path.sub with
  | none => items.filter (!path.leadsInto schema ·)
  | some sub => changeSelected (path.leadsInto schema) (deleteSubIn sub) items

theorem foldr_modify_succ (f : Json → Json) (indexes : List Nat) (item : Json) (rest : List Json) :
    (indexes.map (· + 1)).foldr (fun index items => items.modify index f) (item :: rest) =
      item :: indexes.foldr (fun index items => items.modify index f) rest := by
  induction indexes with
  | nil => rfl
  | cons index others ih =>
      rw [List.map_cons, List.foldr_cons, ih]
      rfl

theorem foldr_modify_findIdxs (selects : Json → Bool) (f : Json → Json) (items : List Json) :
    (items.findIdxs selects).foldr (fun index items => items.modify index f) items =
      changeSelected selects f items := by
  induction items with
  | nil => rfl
  | cons item rest ih =>
      rw [List.findIdxs_cons, List.findIdxs_start, changeSelected, List.map_cons]
      cases selects item with
      | true =>
          change ((((rest.findIdxs selects).map (· + 1)).foldr _ (item :: rest)).modify 0 f) = _
          rw [foldr_modify_succ, ih]
          rfl
      | false =>
          rw [if_neg Bool.false_ne_true, foldr_modify_succ, ih]
          rfl

theorem foldr_takeOut_findIdxs (path : AttributePath) (schema : ResourceSchema)
    (items : List Json) :
    (items.findIdxs (path.leadsInto schema)).foldr (takeOut path.sub) items =
      leftOver path schema items := by
  unfold leftOver
  cases path.sub with
  | none => exact removeAt_findIdxs items
  | some sub => exact foldr_modify_findIdxs _ _ items

/-! ## What is left -/

/-- Whether taking the sub-attribute of a path out of an element that the path leads into leaves an
element on which the filter crashes. -/
def DeletionStumbles (schema : ResourceSchema) (path : AttributePath) (current : Json) : Prop :=
  ∃ filter sub items element, path.restriction = some filter ∧ path.sub = some sub ∧
    current = .arr items ∧ .obj element ∈ items ∧
    path.leadsInto schema (.obj element) = true ∧
    filter.Stumbles (.within (some schema) path) (delAttr element sub)

theorem not_deletionStumbles (unrestricted : path.restriction = none) :
    ¬ DeletionStumbles schema path value := by
  rintro ⟨filter, _, _, _, restricted, _⟩
  rw [unrestricted] at restricted
  cases restricted

/-- A path leads into no element that is left. -/
theorem leadsInto_leftOver (unambiguous : ∀ item ∈ items, item.unambiguous = true) {item : Json}
    (held : item ∈ leftOver path schema items) : path.leadsInto schema item = false := by
  unfold leftOver at held
  cases subEq : path.sub with
  | none =>
      rw [subEq] at held
      exact (Bool.not_eq_true' _).mp (List.mem_filter.mp held).2
  | some sub =>
      rw [subEq] at held
      obtain ⟨before, inItems, rfl⟩ := List.mem_map.mp held
      split
      · rw [PathOf.leadsInto, subEq, Option.all_some,
          hasSub_deleteSubIn (unambiguous before inItems), Bool.and_false]
      · next passedOver => exact Bool.not_eq_true _ ▸ passedOver

theorem isCleared_of_leadsInto (splits : path.restriction.isSome = true ∨ path.sub.isSome = true)
    (nowhere : ∀ item ∈ items, path.leadsInto schema item = false) :
    IsCleared schema path (.arr items) := by
  cases restricted : path.restriction with
  | some filter =>
      refine .selected restricted fun element held satisfied => ?_
      have left := nowhere (.obj element) held
      rw [PathOf.leadsInto, restricted, Option.all_some,
        selects_eq_true_iff.mpr ⟨element, rfl, satisfied⟩, Bool.true_and] at left
      cases subEq : path.sub with
      | none =>
          rw [subEq] at left
          cases left
      | some sub =>
          rw [subEq] at left
          exact ⟨sub, rfl, left⟩
  | none =>
      obtain ⟨sub, subEq⟩ := Option.isSome_iff_exists.mp
        (splits.resolve_left (by rw [restricted]; exact Bool.false_ne_true))
      refine .elements restricted subEq fun item held => ?_
      have left := nowhere item held
      rwa [PathOf.leadsInto, restricted, subEq] at left

theorem selectionStumbles_leftOver_iff (safe : ¬ SelectionStumbles schema path (.arr items)) :
    SelectionStumbles schema path (.arr (leftOver path schema items)) ↔
      DeletionStumbles schema path (.arr items) := by
  constructor
  · rintro ⟨filter, _, element, restricted, ⟨⟩, held, stumbles⟩
    have before (inItems : .obj element ∈ items) : False :=
      safe ⟨filter, items, element, restricted, rfl, inItems, stumbles⟩
    unfold leftOver at held
    cases subEq : path.sub with
    | none =>
        rw [subEq] at held
        exact (before (List.mem_filter.mp held).1).elim
    | some sub =>
        rw [subEq] at held
        obtain ⟨item, inItems, equal⟩ := List.mem_map.mp held
        split at equal
        · next leads =>
          cases item with
          | obj whole =>
              cases equal
              exact ⟨filter, sub, items, whole, restricted, subEq, rfl, inItems, leads, stumbles⟩
          | _ => cases equal
        · exact (before (equal ▸ inItems)).elim
  · rintro ⟨filter, sub, _, element, restricted, subEq, ⟨⟩, inItems, leads, stumbles⟩
    refine ⟨filter, _, delAttr element sub, restricted, rfl, ?_, stumbles⟩
    unfold leftOver
    rw [subEq]
    refine List.mem_map.mpr ⟨.obj element, inItems, ?_⟩
    rw [leads]
    rfl

/-- Removing all slots of a path is one change of their home, which leaves nothing for the path. -/
theorem SlotsUnder.exists_update
    (slots : SlotsUnder schema home (place (home.members resource) attr)
      (Members.attr (home.members resource) attr) path locations)
    (unambiguous : (Json.obj (home.members resource)).unambiguous = true) :
    ∃ f, locations.foldr (fun location resource => location.delete resource) resource =
        home.update resource f ∧
      (locations = [] ∨
        IsCleared schema path (Members.attr (f (home.members resource)) attr) ∧
          (SelectionStumbles schema path (Members.attr (f (home.members resource)) attr) ↔
            DeletionStumbles schema path (Members.attr (home.members resource) attr))) := by
  have unambiguousValue := unambiguous_attr unambiguous attr
  have distinct := (unambiguous_obj_iff.mp unambiguous).1
  cases slots with
  | @elements items splits valueEq safe =>
      refine ⟨_, foldr_delete_slotAt .., .inr ?_⟩
      rw [onItems_place valueEq, attr_setAttr_self, foldr_takeOut_findIdxs, valueEq]
      rw [valueEq] at safe unambiguousValue
      refine ⟨?_, selectionStumbles_leftOver_iff safe⟩
      exact isCleared_of_leadsInto splits fun item held =>
        leadsInto_leftOver (unambiguous_arr_iff.mp unambiguousValue) held
  | whole unrestricted =>
      refine ⟨fun members => delAttr members (place (home.members resource) attr), rfl, .inr ?_⟩
      dsimp only
      rw [delAttr_place, (distinct.lacks_delAttr attr).attr_eq]
      refine ⟨.absent, iff_of_false ?_ (not_deletionStumbles unrestricted)⟩
      exact not_selectionStumbles unrestricted
  | @single sub element unrestricted subEq valueEq has =>
      let key := place (home.members resource) attr
      refine ⟨fun members => setAttr members key (deleteSubIn sub (Members.attr members key)),
        ?_, .inr ?_⟩
      · rfl
      rw [valueEq] at unambiguousValue
      dsimp only
      rw [setAttr_place (isSome_key?_of_attr valueEq rfl), attr_setAttr_self, attr_place, valueEq]
      refine ⟨.single unrestricted subEq rfl (hasSub_deleteSubIn unambiguousValue),
        iff_of_false ?_ (not_deletionStumbles unrestricted)⟩
      exact not_selectionStumbles unrestricted
  | nowhere => exact ⟨id, (Home.update_self fun _ => rfl).symm, .inl rfl⟩

/-! ## Resources -/

/-- What keeps the look for a path from saying that nothing is there, after all its slots were
removed: the URN of the path, a spelling of the name under which the URNs are declared, is not known
any more; or the filter crashes on an element that lost the sub-attribute. -/
inductive Unseen (schema : ResourceSchema) (path : AttributePath) (resource after : Members) :
    Prop
  | unknown {uri : String} (uriEq : path.uri = some uri)
      (spelled : sameName uri "schemas" = true)
      (refused : checkUri after uri (some schema) ≠ .ok ()) : Unseen schema path resource after
  | stumbling {attr : String} {home : Home} (attrEq : path.attr = some attr)
      (found : homeFor resource path (some schema) = .ok (some home))
      (stumbles : DeletionStumbles schema path (Members.attr (home.members resource) attr)) :
      Unseen schema path resource after

/-- Where a path finds nothing it leads nowhere, with no slot to remove. -/
theorem not_unseen_of_resolve (resolved : resolve resource path (some schema) = .ok []) :
    ¬ Unseen schema path resource resource := by
  obtain ⟨home?, found, _⟩ := bind_eq_ok_iff.mp resolved
  rintro (⟨uriEq, _, refused⟩ | ⟨attrEq, foundToo, stumbles⟩)
  · exact refused (checkUri_of_homeFor uriEq found)
  · cases found.symm.trans foundToo
    obtain ⟨filter, sub, items, element, restricted, subEq, valueEq, held, leads, _⟩ := stumbles
    rw [resolve_of_homeFor found attrEq, valueEq, if_neg (by exact Bool.false_ne_true)] at resolved
    have safe := not_selectionStumbles_of_locationsUnder resolved
    rw [locationsUnder_arr _ _ (.inl (by rw [restricted]; rfl)) safe, Except.ok.injEq,
      List.map_eq_nil_iff, List.findIdxs_eq_nil_iff] at resolved
    rw [resolved _ held] at leads
    cases leads

/-- In a home whose attribute holds nothing for a path any more, the path leads nowhere unless the
look for it fails. -/
theorem resolve_update_iff {f : Members → Members}
    (found : homeFor resource path (some schema) = .ok (some home)) (attrEq : path.attr = some attr)
    (cleared : IsCleared schema path (Members.attr (f (home.members resource)) attr))
    (stumbles : SelectionStumbles schema path (Members.attr (f (home.members resource)) attr) ↔
      DeletionStumbles schema path (Members.attr (home.members resource) attr)) :
    resolve (home.update resource f) path (some schema) = .ok [] ↔
      ¬ Unseen schema path resource (home.update resource f) := by
  rw [← (isThere_of_homeFor found).members_update f] at cleared stumbles
  have seen (known : ∀ uri, path.uri = some uri →
      checkUri (home.update resource f) uri (some schema) = .ok ()) :=
    (cleared.resolve_iff (homeFor_update found f known) attrEq).trans stumbles.not
  constructor
  · intro resolved unseen
    obtain ⟨_, foundAfter, _⟩ := bind_eq_ok_iff.mp resolved
    cases unseen with
    | unknown uriEq _ refused => exact refused (checkUri_of_homeFor uriEq foundAfter)
    | stumbling isAttr foundToo stumbling =>
        cases attrEq.symm.trans isAttr
        cases found.symm.trans foundToo
        exact (seen fun uri uriEq => checkUri_of_homeFor uriEq foundAfter).mp resolved stumbling
  · intro unseen
    refine (seen fun uri uriEq => ?_).mpr fun stumbling =>
      unseen (.stumbling attrEq found stumbling)
    by_contra refused
    cases spelled : sameName uri "schemas" with
    | true => exact unseen (.unknown uriEq spelled refused)
    | false => exact refused (checkUri_update uriEq spelled found f)

/-- The slots of a path are apart and hold values, and when all of them are removed, the last first,
the path is found to lead nowhere, unless the look for it fails. -/
theorem resolve_foldr_delete_iff (unambiguous : (Json.obj resource).unambiguous = true)
    (attrEq : path.attr = some attr)
    (resolved : resolve resource path (some schema) = .ok locations) :
    let after := locations.foldr (fun location resource => location.delete resource) resource
    locations.Nodup ∧ locations.Pairwise (Location.Apart resource) ∧
      (∀ location ∈ locations, (location.get resource).isNull = false) ∧
      (resolve after path (some schema) = .ok [] ↔ ¬ Unseen schema path resource after) := by
  intro after
  by_cases empty : locations = []
  · subst empty
    exact ⟨List.nodup_nil, .nil, List.forall_mem_nil _,
      iff_of_true resolved (not_unseen_of_resolve resolved)⟩
  obtain ⟨home?, found, rest⟩ := bind_eq_ok_iff.mp resolved
  cases home? with
  | none =>
      cases rest
      exact absurd rfl empty
  | some home =>
    have slots := resolved
    rw [resolve_of_homeFor found attrEq] at slots
    cases null : (Members.attr (home.members resource) attr).isNull with
    | true =>
        rw [null, if_pos rfl] at slots
        cases slots
        exact absurd rfl empty
    | false =>
        rw [null, if_neg Bool.false_ne_true] at slots
        have slots := slotsUnder_of_locationsUnder slots
        refine ⟨slots.nodup, slots.apart (isThere_of_homeFor found),
          fun location held => slots.isNull_get null held, ?_⟩
        obtain ⟨f, removed, left⟩ := slots.exists_update (unambiguous_members unambiguous home)
        obtain ⟨cleared, stumbles⟩ := left.resolve_left empty
        change resolve (locations.foldr _ resource) path (some schema) = .ok [] ↔
          ¬ Unseen schema path resource (locations.foldr _ resource)
        rw [removed]
        exact resolve_update_iff found attrEq cleared stumbles

/-- A sub-attribute of the elements of one type. -/
theorem resolve_foldr_delete_iff_work :
    let resource : Members := [("emails", .arr [.obj [("type", .str "work"), ("value", .str "a")],
      .obj [("type", .str "home"), ("value", .str "b")]])]
    ∃ path locations,
      PathOf.parse "emails[type eq \"work\"].value" = .ok path ∧
      (Json.obj resource).unambiguous = true ∧ path.attr = some "emails" ∧
      resolve resource path (some .user) = .ok locations ∧
      let after := locations.foldr (fun location resource => location.delete resource) resource
      locations.Nodup ∧ locations.Pairwise (Location.Apart resource) ∧
        (∀ location ∈ locations, (location.get resource).isNull = false) ∧
        (resolve after path (some .user) = .ok [] ↔ ¬ Unseen .user path resource after) := by
  intro resource
  have unambiguous : (Json.obj resource).unambiguous = true := by decide +kernel
  have parts : ((PathOf.parse "emails[type eq \"work\"].value").toOption.map
      fun path : AttributePath => (path.attr, (resolve resource path (some .user)).isOk)) =
        some (some "emails", true) := by decide +kernel
  obtain ⟨path, parsed, parts⟩ := Option.map_eq_some_iff.mp parts
  obtain ⟨attrEq, isOk⟩ := Prod.mk.inj parts
  obtain ⟨locations, resolved⟩ := exists_eq_ok_of_isOk isOk
  exact ⟨path, locations, eq_ok_of_toOption parsed, unambiguous, attrEq, resolved,
    resolve_foldr_delete_iff unambiguous attrEq resolved⟩

/-- An element whose own `schemas` is no list, and which satisfied the filter by the value that it
lost, crashes the look for the path. -/
theorem not_resolve_foldr_delete :
    ¬ ∀ (schema : ResourceSchema) (resource : Members) (path : AttributePath) (attr : String)
        (locations : List Location), (Json.obj resource).unambiguous = true →
      path.attr = some attr → resolve resource path (some schema) = .ok locations →
      resolve (locations.foldr (fun location resource => location.delete resource) resource) path
        (some schema) = .ok [] := by
  intro always
  let resource : Members :=
    [("emails", .arr [.obj [("schemas", .bool true), ("value", .str "a")]])]
  have lost : ((PathOf.parse "emails[value pr or urn:x:y:z eq 1].value").toOption.bind
      fun path : AttributePath => (resolve resource path (some .user)).toOption.map
        fun locations => (path.attr, (resolve (locations.foldr
          (fun location resource => location.delete resource) resource) path (some .user)).isOk)) =
        some (some "emails", false) := by decide +kernel
  obtain ⟨path, _, rest⟩ := Option.bind_eq_some_iff.mp lost
  obtain ⟨locations, resolved, parts⟩ := Option.map_eq_some_iff.mp rest
  obtain ⟨attrEq, failed⟩ := Prod.mk.inj parts
  have found := always .user resource path "emails" locations (by decide +kernel) attrEq
    (eq_ok_of_toOption resolved)
  rw [found] at failed
  cases failed

end Scim
