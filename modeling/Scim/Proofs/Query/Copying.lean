import Mathlib.Data.List.Forall2
import Mathlib.Data.Set.Insert
import Scim.Proofs.Outcome
import Scim.Proofs.Query.Parts

/-!
# What projections copy

A path leads along a trail of names into a resource: to an attribute, a sub-attribute, or what is
in the object of an extension.  Projections copy what is at the ends of trails, one trail after the
other, into what they have so far.  What they show in the end depends on the set of trails only:
everything behind the end of a trail as a whole, and else what is on the way to one.
-/

namespace Scim

open Members

namespace Projection

/-! ## Trails -/

/-- The trails that go on behind a member. -/
def behind (members : Members) (key : String) (trails : Set (List String)) : Set (List String) :=
  { rest | ∃ name, key? members name = some key ∧ name :: rest ∈ trails }

/-- Whether a trail can go on in a value by a name. Lists are entered by any name. -/
def leads : Json → String → Bool
  | .obj members, name => (key? members name).isSome
  | .arr _, _ => true
  | _, _ => false

/-- Puts a value, if there is one, under a name. -/
def put (object : Members) (key : String) : Option Json → Members
  | none => object
  | some value => set object key value

/-- Copies what is at the end of a trail in a value to what is shown of the value. -/
def copyAt : List String → Json → Option Json → Option Json
  | [], value, _ => some value
  | name :: rest, .obj members, shown =>
    match key? members name with
    | none => shown
    | some key =>
      let value := (get? members key).getD .null
      match shown with
      | none => some (.obj (put [] key (copyAt rest value none)))
      | some (.obj object) => some (.obj (put object key (copyAt rest value (get? object key))))
      | some other => some other
  | name :: _, .arr elements, shown => some (.arr (copySubs name elements shown))
  | _ :: _, _, shown => shown

/-- Copies what is at the end of a trail in an object to what is shown of the object. -/
def copyMember (members : Members) (name : String) (rest : List String) (object : Members) :
    Members :=
  match key? members name with
  | none => object
  | some key => put object key (copyAt rest ((get? members key).getD .null) (get? object key))

/-- The trail that a path leads along, if its attribute or extension is there. -/
def trail? (resource : Members) (path : AttributePath) :
    Except Failure (Option (String × List String)) := do
  match ← source? resource path with
  | none => return none
  | some (_, extension) =>
    match path.attr, extension with
    | none, some key => return some (key, [])
    | none, none => return none
    | some attr, none => return some (attr, path.sub.toList)
    | some attr, some key => return some (key, attr :: path.sub.toList)

variable {trails : Set (List String)} {value : Json} {shown other : Option Json}
  {members object source target resource after : Members} {name key attr : String}
  {rest trail : List String} {elements items : List Json} {path : AttributePath}

@[simp] theorem put_get? (object : Members) (key : String) :
    put object key (get? object key) = object := by
  cases held : get? object key with
  | none => rfl
  | some value => exact set_of_get? held

theorem get?_of_key? (found : key? members name = some key) :
    ∃ value, get? members key = some value :=
  Option.isSome_iff_exists.mp ((get?_isSome_iff members key).mpr (key?_eq_some found).1)

theorem copyMember_of_get? (found : key? members name = some key)
    (held : get? members key = some value) (rest : List String) (object : Members) :
    copyMember members name rest object = put object key (copyAt rest value (get? object key)) := by
  simp only [copyMember, found, held, Option.getD_some]

theorem copyMember_of_none (absent : key? members name = none) (rest : List String)
    (object : Members) : copyMember members name rest object = object := by
  rw [copyMember, absent]

theorem copyAt_obj (members : Members) (name : String) (rest : List String) (object : Members) :
    copyAt (name :: rest) (.obj members) (some (.obj object)) =
      some (.obj (copyMember members name rest object)) := by
  rw [copyAt, copyMember]
  cases key? members name <;> rfl

theorem copyAt_obj_none (found : key? members name = some key) (rest : List String) :
    copyAt (name :: rest) (.obj members) none = some (.obj (copyMember members name rest [])) := by
  rw [copyAt, copyMember, found]
  rfl

theorem copySub_eq_copyMember (sub : String) (element projected : Members) :
    copySub sub element projected = copyMember element sub [] projected := by
  rw [copySub, copyMember]
  cases key? element sub <;> rfl

/-- Copying to the object under a key, or to an empty one, what is behind a name that is there. -/
theorem updateObject_copyMember {inner : String} (found : key? source name = some inner)
    (rest : List String) (target : Members) (key : String) :
    updateObject target key (copyMember source name rest) =
      put target key (copyAt (name :: rest) (.obj source) (get? target key)) := by
  rw [updateObject]
  split
  · next object held => rw [held, copyAt_obj, put]
  · next value notObject held =>
    rw [held, copyAt, found]
    cases value with
    | obj object => exact (notObject object rfl).elim
    | _ => rfl
  · next held => rw [held, copyAt_obj_none found, put]

/-- An attribute is copied along its trail. -/
theorem copyAttr_eq_copyMember (source : Members) (attr : String) (sub : Option String)
    (target : Members) : copyAttr source attr sub target =
      copyMember source attr sub.toList target := by
  rw [copyAttr, copyMember]
  cases found : key? source attr with
  | none => rfl
  | some key =>
      obtain ⟨value, held⟩ := get?_of_key? found
      dsimp only
      rw [held, Option.getD_some]
      cases sub with
      | none => rfl
      | some sub =>
          cases value with
          | arr => rfl
          | obj element =>
              dsimp only [Option.toList]
              cases foundSub : key? element sub with
              | none =>
                  rw [copyAt, foundSub]
                  exact (put_get? target key).symm
              | some inner =>
                  rw [← updateObject_copyMember foundSub,
                    ← funext (copySub_eq_copyMember sub element)]
                  rfl
          | _ => exact (put_get? target key).symm

/-- What a path names is copied along its trail. -/
theorem copyPath_eq (resource target : Members) (path : AttributePath) :
    copyPath resource target path = (trail? resource path).map fun trail =>
      trail.elim target fun (name, rest) => copyMember resource name rest target := by
  rw [copyPath, trail?]
  cases looked : source? resource path with
  | error failure => rfl
  | ok found =>
      rcases found with _ | ⟨source, extension⟩
      · rfl
      · rcases source?_eq_ok looked with ⟨rfl, rfl⟩ | ⟨key, rfl, held⟩
        · cases path.attr with
          | none => rfl
          | some attr => exact congrArg Except.ok (copyAttr_eq_copyMember ..)
        · have inResource : key ∈ names resource := by
            rw [← get?_isSome_iff, held]
            rfl
          have found := key?_of_mem inResource
          cases path.attr with
          | none => exact congrArg Except.ok (copyMember_of_get? found held [] target).symm
          | some attr =>
              refine Eq.trans ?_ (congrArg Except.ok
                (copyMember_of_get? found held (attr :: path.sub.toList) target)).symm
              dsimp only [bind, Except.bind, pure, Except.pure]
              cases foundAttr : key? source attr with
              | none =>
                  rw [copyAt, foundAttr, put_get?]
                  rfl
              | some inner =>
                  rw [← updateObject_copyMember foundAttr,
                    ← funext (copyAttr_eq_copyMember source attr path.sub)]
                  rfl

/-! ## What trails show -/

/-- Whether an element of a list is shown as its members at the ends of trails. -/
inductive ShowsElement (trails : Set (List String)) : Json → Json → Prop where
  | object {members object : Members} (single : (names object).Nodup)
      (asked : ∀ key, (behind members key trails).Nonempty → get? object key = get? members key)
      (unasked : ∀ key, ¬ (behind members key trails).Nonempty → get? object key = none) :
      ShowsElement trails (.obj members) (.obj object)
  | other {element : Json} (noObject : element.isObj = false) :
      ShowsElement trails element (.obj [])

/-- Whether a value, if anything, is what trails show of a value: all of it behind the end of a
trail, and else what is on the way to one. -/
inductive Shows : Set (List String) → Json → Option Json → Prop where
  | whole {trails : Set (List String)} {value : Json} (asked : [] ∈ trails) :
      Shows trails value (some value)
  | nothing {trails : Set (List String)} {value : Json} (unasked : [] ∉ trails)
      (astray : ∀ name rest, name :: rest ∈ trails → leads value name = false) :
      Shows trails value none
  | elements {trails : Set (List String)} {elements items : List Json} (unasked : [] ∉ trails)
      (entered : ∃ name rest, name :: rest ∈ trails)
      (each : List.Forall₂ (ShowsElement trails) elements items) :
      Shows trails (.arr elements) (some (.arr items))
  | members {trails : Set (List String)} {members object : Members} (unasked : [] ∉ trails)
      (entered : ∃ name rest, name :: rest ∈ trails ∧ leads (.obj members) name = true)
      (single : (names object).Nodup)
      (each : ∀ key value, get? members key = some value →
        Shows (behind members key trails) value (get? object key))
      (others : ∀ key, get? members key = none → get? object key = none) :
      Shows trails (.obj members) (some (.obj object))

/-- Whether an object, which may be empty, is what trails show of an object. -/
structure ShowsMembers (trails : Set (List String)) (members object : Members) : Prop where
  single : (names object).Nodup
  each : ∀ key value, get? members key = some value →
    Shows (behind members key trails) value (get? object key)
  others : ∀ key, get? members key = none → get? object key = none

/-! ### Trails behind a member -/

theorem behind_insert (found : key? members name = some key) (rest : List String)
    (trails : Set (List String)) :
    behind members key (insert (name :: rest) trails) =
      insert rest (behind members key trails) := by
  ext trail
  constructor
  · rintro ⟨other, foundOther, same | held⟩
    · cases same
      exact .inl rfl
    · exact .inr ⟨other, foundOther, held⟩
  · rintro (rfl | ⟨other, foundOther, held⟩)
    · exact ⟨name, found, .inl rfl⟩
    · exact ⟨other, foundOther, .inr held⟩

theorem behind_insert_of_ne (differ : key? members name ≠ some key) (rest : List String)
    (trails : Set (List String)) :
    behind members key (insert (name :: rest) trails) = behind members key trails := by
  ext trail
  constructor
  · rintro ⟨other, foundOther, same | held⟩
    · cases same
      exact absurd foundOther differ
    · exact ⟨other, foundOther, held⟩
  · rintro ⟨other, foundOther, held⟩
    exact ⟨other, foundOther, .inr held⟩

theorem get?_put_of_ne {other : String} (differ : other ≠ key) (object : Members)
    (shown : Option Json) : get? (put object key shown) other = get? object other := by
  cases shown with
  | none => rfl
  | some value => rw [put, get?_set, if_neg differ]

theorem get?_put_self (kept : shown = none → get? object key = none) :
    get? (put object key shown) key = shown := by
  cases shown with
  | none => exact kept rfl
  | some value => rw [put, get?_set, if_pos rfl]

theorem nodup_put (single : (names object).Nodup) (key : String) (shown : Option Json) :
    (names (put object key shown)).Nodup := by
  cases shown with
  | none => exact single
  | some value =>
      by_cases present : key ∈ names object
      · rw [put, names_set_of_mem present]
        exact single
      · rw [put, names_set_of_not_mem present, ← List.concat_eq_append]
        exact single.concat present

theorem nodup_copyMember (single : (names object).Nodup) (members : Members) (name : String)
    (rest : List String) : (names (copyMember members name rest object)).Nodup := by
  rw [copyMember]
  split
  · exact single
  · exact nodup_put single ..

theorem copyAt_eq_none (copied : copyAt trail value shown = none) : shown = none := by
  cases trail with
  | nil => cases copied
  | cons name rest =>
      cases value with
      | arr => cases copied
      | obj members =>
          rw [copyAt] at copied
          split at copied
          · exact copied
          · split at copied <;> cases copied
      | _ => exact copied

/-! ### What is shown as a whole -/

theorem copySubs_self (sub : String) (elements : List Json) :
    copySubs sub elements (some (.arr elements)) = elements := by
  have same (element : Json) : copySubIn sub element element = element := by
    cases element with
    | obj members =>
        rw [copySubIn, copySub]
        split
        · next key found =>
          obtain ⟨value, held⟩ := get?_of_key? found
          rw [held, Option.getD_some, set_of_get? held]
        · rfl
    | _ => rfl
  rw [copySubs, if_pos rfl, List.zipWith_self]
  exact (List.map_congr_left fun element _ => same element).trans (List.map_id elements)

/-- Nothing changes what is shown as a whole. -/
theorem copyAt_self (trail : List String) (value : Json) :
    copyAt trail value (some value) = some value := by
  induction trail generalizing value with
  | nil => rfl
  | cons name rest ih =>
      cases value with
      | arr elements => rw [copyAt, copySubs_self]
      | obj members =>
          rw [copyAt_obj]
          cases found : key? members name with
          | none => rw [copyMember_of_none found]
          | some key =>
              obtain ⟨value, held⟩ := get?_of_key? found
              rw [copyMember_of_get? found held, held, ih, put, set_of_get? held]
      | _ => rfl

/-! ### One more trail -/

theorem Shows.of_empty (value : Json) : Shows ∅ value none := .nothing nofun nofun

theorem ShowsElement.copySubIn {element item : Json} (shows : ShowsElement trails element item)
    (name : String) (rest : List String) :
    ShowsElement (insert (name :: rest) trails) element (copySubIn name element item) := by
  cases shows with
  | other noObject =>
      cases element with
      | obj => cases noObject
      | _ => exact .other rfl
  | @object members object single asked unasked =>
      rw [Projection.copySubIn, copySub_eq_copyMember]
      cases found : key? members name with
      | none =>
          have same (key : String) :
              behind members key (insert (name :: rest) trails) = behind members key trails :=
            behind_insert_of_ne (by rw [found]; nofun) rest trails
          rw [copyMember_of_none found]
          refine .object single (fun key => ?_) (fun key => ?_)
          · rw [same]
            exact asked key
          · rw [same]
            exact unasked key
      | some inner =>
          obtain ⟨value, held⟩ := get?_of_key? found
          rw [copyMember_of_get? found held, copyAt, put]
          refine .object (nodup_put single inner (some value)) (fun key => ?_) (fun key => ?_)
          · intro reached
            rw [get?_set]
            split
            · next same => rw [same, held]
            · next differ =>
              rw [behind_insert_of_ne fun is => differ (Option.some.inj (found.symm.trans is)).symm]
                at reached
              exact asked key reached
          · intro unreached
            have differ : key ≠ inner := by
              rintro rfl
              rw [behind_insert found] at unreached
              exact unreached (Set.insert_nonempty ..)
            rw [behind_insert_of_ne fun is => differ (Option.some.inj (found.symm.trans is)).symm]
              at unreached
            rw [get?_set, if_neg differ]
            exact unasked key unreached

/-- The elements of a list show one more name each. -/
theorem forall₂_copySubs (shows : List.Forall₂ (ShowsElement trails) elements items) (name : String)
    (rest : List String) :
    List.Forall₂ (ShowsElement (insert (name :: rest) trails)) elements
      (copySubs name elements (some (.arr items))) := by
  rw [copySubs, if_pos shows.length_eq.symm]
  induction shows with
  | nil => exact .nil
  | cons head _ ih => exact .cons (head.copySubIn name rest) ih

theorem forall₂_showsElement_nil (astray : ∀ name rest, name :: rest ∉ trails)
    (elements : List Json) :
    List.Forall₂ (ShowsElement trails) elements (elements.map fun _ => .obj []) := by
  rw [List.forall₂_map_right_iff]
  refine List.forall₂_same.mpr fun element _ => ?_
  cases element with
  | obj members =>
      refine .object List.nodup_nil (fun key => ?_) (fun _ _ => rfl)
      rintro ⟨rest, name, _, held⟩
      exact absurd held (astray name rest)
  | _ => exact .other rfl

theorem copySubs_none (sub : String) (elements : List Json) :
    copySubs sub elements none =
      copySubs sub elements (some (.arr (elements.map fun _ => .obj []))) := by
  rw [copySubs, copySubs, if_pos (List.length_map _)]
  nofun

theorem not_nil_mem_insert (unasked : [] ∉ trails) (name : String) (rest : List String) :
    [] ∉ insert (name :: rest) trails := by
  rintro (same | held)
  · cases same
  · exact unasked held

/-- An object shows one more trail if the value that the trail leads to does. -/
theorem ShowsMembers.copyMember_of (shows : ShowsMembers trails members object)
    (copied : ∀ {trails : Set (List String)} {value : Json} {shown : Option Json},
      Shows trails value shown → Shows (insert rest trails) value (copyAt rest value shown))
    (name : String) :
    ShowsMembers (insert (name :: rest) trails) members (copyMember members name rest object) := by
  cases found : key? members name with
  | none =>
      rw [copyMember_of_none found]
      refine ⟨shows.single, fun key value held => ?_, shows.others⟩
      rw [behind_insert_of_ne (by rw [found]; nofun)]
      exact shows.each key value held
  | some inner =>
      obtain ⟨value, held⟩ := get?_of_key? found
      have single := nodup_copyMember shows.single members name rest
      rw [copyMember_of_get? found held] at single ⊢
      refine ⟨single, ?_, ?_⟩
      · intro key other heldOther
        by_cases same : key = inner
        · subst same
          cases held.symm.trans heldOther
          rw [behind_insert found, get?_put_self copyAt_eq_none]
          exact copied (shows.each key value held)
        · rw [behind_insert_of_ne fun is => same (Option.some.inj (found.symm.trans is)).symm,
            get?_put_of_ne same]
          exact shows.each key other heldOther
      · intro key absent
        have differ : key ≠ inner := by
          rintro rfl
          rw [held] at absent
          cases absent
        rw [get?_put_of_ne differ]
        exact shows.others key absent

theorem ShowsMembers.nil (astray : ∀ name rest, name :: rest ∈ trails → key? members name = none) :
    ShowsMembers trails members [] := by
  refine ⟨List.nodup_nil, fun key value _ => ?_, fun _ _ => rfl⟩
  have none : behind members key trails = ∅ := by
    refine Set.eq_empty_of_forall_notMem ?_
    rintro rest ⟨name, found, held⟩
    rw [astray name rest held] at found
    cases found
  rw [none]
  exact .of_empty value

/-- Copying what is at the end of a trail makes a value show this trail beside the others. -/
theorem Shows.copyAt (shows : Shows trails value shown) (trail : List String) :
    Shows (insert trail trails) value (copyAt trail value shown) := by
  induction trail generalizing trails value shown with
  | nil => exact .whole (.inl rfl)
  | cons name rest ih =>
      -- an object that some trail has entered shows one more, an empty one included
      have entered {members object : Members} (unasked : [] ∉ trails)
          (led : ∃ other trail, other :: trail ∈ insert (name :: rest) trails ∧
            leads (.obj members) other = true) (shows : ShowsMembers trails members object) :
          Shows (insert (name :: rest) trails) (.obj members)
            (some (.obj (copyMember members name rest object))) := by
        have further := shows.copyMember_of ih name
        exact .members (not_nil_mem_insert unasked name rest) led further.single further.each
          further.others
      cases shows with
      | whole asked =>
          rw [copyAt_self]
          exact .whole (.inr asked)
      | nothing unasked astray =>
          have still (astrayNow : leads value name = false) :
              Shows (insert (name :: rest) trails) value none := by
            refine .nothing (not_nil_mem_insert unasked name rest) ?_
            rintro other trail (same | held)
            · cases same
              exact astrayNow
            · exact astray other trail held
          cases value with
          | arr elements =>
              have none (other : String) (trail : List String) : other :: trail ∉ trails :=
                fun held => absurd (astray other trail held) nofun
              rw [Projection.copyAt, copySubs_none]
              exact .elements (not_nil_mem_insert unasked name rest) ⟨name, rest, .inl rfl⟩
                (forall₂_copySubs (forall₂_showsElement_nil none elements) name rest)
          | obj members =>
              cases found : key? members name with
              | none =>
                  rw [Projection.copyAt, found]
                  exact still (by rw [leads, found]; rfl)
              | some key =>
                  rw [copyAt_obj_none found]
                  refine entered unasked ⟨name, rest, .inl rfl, by rw [leads, found]; rfl⟩ ?_
                  refine .nil fun other trail held => ?_
                  refine Option.not_isSome_iff_eq_none.mp fun some => ?_
                  exact Bool.false_ne_true ((astray other trail held).symm.trans some)
          | _ => exact still rfl
      | @elements _ elements items unasked _ each =>
          rw [Projection.copyAt]
          exact .elements (not_nil_mem_insert unasked name rest) ⟨name, rest, .inl rfl⟩
            (forall₂_copySubs each name rest)
      | @members _ members object unasked led single each others =>
          obtain ⟨other, trail, held, leadsOn⟩ := led
          rw [copyAt_obj]
          exact entered unasked ⟨other, trail, .inr held, leadsOn⟩ ⟨single, each, others⟩

/-- Copying what is at the end of a trail makes an object show this trail beside the others. -/
theorem ShowsMembers.copyMember (shows : ShowsMembers trails members object) (name : String)
    (rest : List String) :
    ShowsMembers (insert (name :: rest) trails) members (copyMember members name rest object) :=
  shows.copyMember_of (fun shows => shows.copyAt rest) name

/-! ### What is shown is a part -/

theorem subperm_of_get? (single : (names object).Nodup)
    (others : ∀ key, get? members key = none → get? object key = none) :
    (names object).Subperm (names members) := by
  refine single.subperm fun key held => ?_
  rw [← get?_isSome_iff] at held ⊢
  by_contra absent
  rw [others key (Option.not_isSome_iff_eq_none.mp absent)] at held
  cases held

theorem ShowsElement.itemAt {element item : Json} (shows : ShowsElement trails element item) :
    Json.ItemAt (some item) (some element) := by
  cases shows with
  | other => exact .emptied element
  | @object members object single asked unasked =>
      refine .there (.obj (subperm_of_get? single fun key absent => ?_) fun key => ?_)
      · by_cases reached : (behind members key trails).Nonempty
        · rw [asked key reached, absent]
        · exact unasked key reached
      · by_cases reached : (behind members key trails).Nonempty
        · rw [asked key reached]
          exact .refl _
        · rw [unasked key reached]
          exact .missing _

/-- What trails show of a value is a part of it. -/
theorem Shows.partAt (shows : Shows trails value shown) : Json.PartAt shown (some value) := by
  induction shows with
  | whole => exact .refl _
  | nothing => exact .missing _
  | elements _ _ each =>
      refine .there (.arr fun i => ?_)
      induction each generalizing i with
      | nil => exact .refl _
      | cons head _ ih =>
          cases i with
          | zero => exact head.itemAt
          | succ i => exact ih i
  | @members _ members object _ _ single _ others ih =>
      refine .there (.obj (subperm_of_get? single others) fun key => ?_)
      cases held : get? members key with
      | none =>
          rw [others key held]
          exact .missing _
      | some value => exact ih key value held

theorem ShowsMembers.partOf (shows : ShowsMembers trails members object) :
    (Json.obj object).PartOf (.obj members) := by
  refine .obj (subperm_of_get? shows.single shows.others) fun key => ?_
  cases held : get? members key with
  | none =>
      rw [shows.others key held]
      exact .missing _
  | some value => exact (shows.each key value held).partAt

/-! ### What is shown, up to order -/

theorem ShowsElement.alike {element item other : Json} (shows : ShowsElement trails element item)
    (showsOther : ShowsElement trails element other) : item.Alike other := by
  cases shows with
  | other noObject =>
      cases showsOther with
      | object => cases noObject
      | other => exact .refl _
  | @object members _ _ asked unasked =>
      cases showsOther with
      | other noObject => cases noObject
      | object _ askedOther unaskedOther =>
          refine .obj fun key => ?_
          by_cases reached : (behind members key trails).Nonempty
          · rw [asked key reached, askedOther key reached]
            exact .refl _
          · rw [unasked key reached, unaskedOther key reached]
            exact .refl _

theorem alikeAt_of_forall₂ {others : List Json}
    (shows : List.Forall₂ (ShowsElement trails) elements items)
    (showsOther : List.Forall₂ (ShowsElement trails) elements others) (i : Nat) :
    Json.AlikeAt items[i]? others[i]? := by
  induction shows generalizing others i with
  | nil =>
      cases showsOther
      exact .missing
  | cons head _ ih =>
      cases showsOther with
      | cons headOther later =>
          cases i with
          | zero => exact .there (head.alike headOther)
          | succ i => exact ih later i

/-- Trails show values that differ in the order of members only. -/
theorem Shows.alikeAt (shows : Shows trails value shown) (showsOther : Shows trails value other) :
    Json.AlikeAt shown other := by
  induction shows generalizing other with
  | whole asked =>
      cases showsOther with
      | whole => exact .refl _
      | nothing unasked | elements unasked | members unasked => exact absurd asked unasked
  | nothing unasked astray =>
      cases showsOther with
      | whole asked => exact absurd asked unasked
      | nothing => exact .missing
      | elements _ entered =>
          obtain ⟨name, rest, held⟩ := entered
          exact absurd (astray name rest held) nofun
      | members _ entered =>
          obtain ⟨name, rest, held, leadsOn⟩ := entered
          rw [astray name rest held] at leadsOn
          cases leadsOn
  | elements unasked entered each =>
      cases showsOther with
      | whole asked => exact absurd asked unasked
      | nothing _ astray =>
          obtain ⟨name, rest, held⟩ := entered
          exact absurd (astray name rest held) nofun
      | elements _ _ eachOther =>
          exact .there (.arr (alikeAt_of_forall₂ each eachOther))
  | @members _ members _ unasked entered _ each others ih =>
      cases showsOther with
      | whole asked => exact absurd asked unasked
      | nothing _ astray =>
          obtain ⟨name, rest, held, leadsOn⟩ := entered
          rw [astray name rest held] at leadsOn
          cases leadsOn
      | members _ _ _ eachOther othersOther =>
          refine .there (.obj fun key => ?_)
          cases held : get? members key with
          | none =>
              rw [others key held, othersOther key held]
              exact .missing
          | some value => exact ih key value held (eachOther key value held)

theorem ShowsMembers.alike (shows : ShowsMembers trails members object) {other : Members}
    (showsOther : ShowsMembers trails members other) : (Json.obj object).Alike (.obj other) := by
  refine .obj fun key => ?_
  cases held : get? members key with
  | none =>
      rw [shows.others key held, showsOther.others key held]
      exact .missing
  | some value => exact (shows.each key value held).alikeAt (showsOther.each key value held)

/-! ## What a request shows -/

/-- The trail along which an entry of a request leads. -/
def reach (resource : Members) (text : String) :
    Except Failure (Option (String × List String)) := do
  trail? resource (← PathOf.parse text)

/-- Copies what is at the end of a trail, if there is one. -/
def follow (resource target : Members) (trail : Option (String × List String)) : Members :=
  trail.elim target fun (name, rest) => copyMember resource name rest target

/-- The trails to what is required. -/
def requiredTrails (schema : Option ResourceSchema) : List (Option (String × List String)) :=
  (requiredNames schema).map fun name => some (name, [])

/-- The trails to what is required and to what a request asks for. -/
def asked (resource : Members) (schema : Option ResourceSchema) (attributes : List String) :
    Set (List String) :=
  { trail | ∃ name rest, trail = name :: rest ∧ ((name ∈ requiredNames schema ∧ rest = []) ∨
    ∃ text ∈ attributes, reach resource text = .ok (some (name, rest))) }

theorem required_eq (resource : Members) (schema : Option ResourceSchema) :
    required resource schema = (requiredTrails schema).foldl (follow resource) [] := by
  rw [required, requiredTrails, List.foldl_map]
  rfl

/-- A request copies along the trails of its entries, if all of them can be told. -/
theorem only_eq (resource : Members) (schema : Option ResourceSchema) (attributes : List String) :
    only resource schema attributes = (attributes.mapM (reach resource)).map fun found =>
      (requiredTrails schema ++ found).foldl (follow resource) [] := by
  have run (start : Members) :
      attributes.foldlM
          (fun result text => do copyPath resource result (← PathOf.parse text)) start =
        (attributes.mapM (reach resource)).map fun found =>
          found.foldl (follow resource) start := by
    induction attributes generalizing start with
    | nil => rfl
    | cons text rest ih =>
        have step : (do copyPath resource start (← PathOf.parse text)) =
            (reach resource text).map (follow resource start) := by
          rw [reach]
          cases PathOf.parse text with
          | error failure => rfl
          | ok path => exact copyPath_eq resource start path
        rw [List.foldlM_cons, List.mapM_cons, step]
        cases reach resource text with
        | error failure => rfl
        | ok found =>
            refine (ih (follow resource start found)).trans ?_
            cases rest.mapM (reach resource) <;> rfl
  rw [only, run, required_eq]
  simp only [List.foldl_append]

/-- Copying along trails in turn makes an object show them all. -/
theorem ShowsMembers.foldl (shows : ShowsMembers trails members object)
    (found : List (Option (String × List String))) :
    ShowsMembers
      (trails ∪ { trail | ∃ name rest, trail = name :: rest ∧ some (name, rest) ∈ found })
      members (found.foldl (follow members) object) := by
  induction found generalizing trails object with
  | nil => simpa using shows
  | cons first later ih =>
      rw [List.foldl_cons]
      cases first with
      | none => simpa [follow] using ih shows
      | some trail =>
          obtain ⟨name, rest⟩ := trail
          have same : insert (name :: rest) trails ∪
                { trail | ∃ name rest, trail = name :: rest ∧ some (name, rest) ∈ later } =
              trails ∪ { trail | ∃ other behind, trail = other :: behind ∧
                some (other, behind) ∈ some (name, rest) :: later } := by
            ext trail
            constructor
            · rintro ((is | held) | ⟨other, behind, is, held⟩)
              · exact .inr ⟨name, rest, is, .head _⟩
              · exact .inl held
              · exact .inr ⟨other, behind, is, .tail _ held⟩
            · rintro (held | ⟨other, behind, is, held⟩)
              · exact .inl (.inr held)
              · cases List.mem_cons.mp held with
                | inl first =>
                    cases first
                    exact .inl (.inl is)
                | inr held => exact .inr ⟨other, behind, is, held⟩
          rw [← same]
          exact ih (shows.copyMember name rest)

/-- What is copied on a request is what is asked for. -/
theorem showsMembers_only {schema : Option ResourceSchema} {attributes : List String}
    (copied : only resource schema attributes = .ok target) :
    ShowsMembers (asked resource schema attributes) resource target := by
  rw [only_eq] at copied
  obtain ⟨found, reached, rfl⟩ := map_eq_ok_iff.mp copied
  -- copying starts from nothing, which is what no trails show
  have start : ShowsMembers ∅ resource [] := .nil nofun
  have shown := start.foldl (requiredTrails schema ++ found)
  have isRequired (name : String) (rest : List String) :
      some (name, rest) ∈ requiredTrails schema ↔ name ∈ requiredNames schema ∧ rest = [] := by
    simp only [requiredTrails, List.mem_map, Option.some.injEq, Prod.mk.injEq]
    constructor
    · rintro ⟨_, held, rfl, rfl⟩
      exact ⟨held, rfl⟩
    · rintro ⟨held, rfl⟩
      exact ⟨name, held, rfl, rfl⟩
  simp only [List.mem_append, isRequired, mem_iff_of_mapM reached, Set.empty_union] at shown
  exact shown

end Projection

end Scim
