import Mathlib.Data.List.Forall2
import Scim.Proofs.Patch.Plurals

/-!
# Additions to attributes with several values

An addition is meant to lose no value of an attribute with several values.  At the path of the
attribute it appends to a list, and so it does without a path if it gives nothing but lists to an
attribute of the core schema.  Then nothing is lost but what an equal item stands for, with truth
values counting as numbers, and a single value in the place of the list.  Otherwise what is given
takes the place of what was there.
-/

namespace Scim

open Members

/-! ## Equality that keeps truth values and numbers apart -/

namespace Json

mutual

/-- Whether two values hold the same data, truth values being no numbers. -/
def alike : Json → Json → Bool
  | .null, .null => true
  | .bool a, .bool b => a == b
  | .bool _, _ | _, .bool _ => false
  | .str s, .str t => s == t
  | .arr xs, .arr ys => alikeItems xs ys
  | .obj ms, .obj ns => ms.length == ns.length && alikeMembers ms ns
  | a, b =>
    match a.num?, b.num? with
    | some m, some n => sameNum m n
    | _, _ => false

/-- Whether two arrays hold alike items in the same order. -/
def alikeItems : List Json → List Json → Bool
  | [], [] => true
  | x :: xs, y :: ys => alike x y && alikeItems xs ys
  | _, _ => false

/-- Whether each member of the first list has an alike value in the second. -/
def alikeMembers : List (String × Json) → List (String × Json) → Bool
  | [], _ => true
  | (name, value) :: rest, others =>
    (match others.lookup name with
    | some other => alike value other
    | none => false) && alikeMembers rest others

end

/-- Whether two values are the same, or hold the same data. -/
def Equals (value other : Json) : Prop := value = other ∨ value.alike other = true

instance : Std.Refl Equals := ⟨fun _ => .inl rfl⟩

/-- The values of an attribute: the items of a list, a single value, or none if it is null. -/
def values : Json → List Json
  | .null => []
  | .arr items => items
  | value => [value]

end Json

/-- Whether the values that were there are still there in their order, and those that were supplied
are there too. -/
structure Accumulates (before supplied after : List Json) : Prop where
  kept : List.SublistForall₂ Json.Equals before after
  taken : ∀ value ∈ supplied, ∃ item ∈ after, value.Equals item

variable {schema : ResourceSchema} {uri : Option String} {name : String}
  {value current : Json} {resource after : Members}

/-! ## Appending to a list -/

namespace Patch

theorem prefix_addMissing (items values : List Json) : items <+: addMissing items values := by
  induction values generalizing items with
  | nil => exact List.prefix_refl items
  | cons value rest ih =>
      refine List.IsPrefix.trans ?_ (ih _)
      dsimp only
      split
      · exact List.prefix_refl items
      · exact List.prefix_append items _

theorem sublistForall₂_singleton {items : List Json} :
    List.SublistForall₂ Json.Equals [value] items ↔ ∃ item ∈ items, value.Equals item := by
  rw [List.sublistForall₂_iff]
  constructor
  · rintro ⟨_, related, sublist⟩
    cases related with
    | cons equals rest =>
        cases rest
        exact ⟨_, List.singleton_sublist.mp sublist, equals⟩
  · rintro ⟨item, held, equals⟩
    exact ⟨[item], .cons equals .nil, List.singleton_sublist.mpr held⟩

/-- Appending keeps a list, but a single value only if it is among what is appended; it takes what
is supplied but for what an equal item stands for. -/
theorem accumulates_appending_iff {supplied items : List Json} :
    Accumulates current.values supplied (addMissing (itemsOf current) items) ↔
      (current.isPlural = true ∨ ∃ item ∈ addMissing [] items, current.Equals item) ∧
        ∀ value ∈ supplied, ∃ item ∈ addMissing (itemsOf current) items, value.Equals item := by
  have kept : List.SublistForall₂ Json.Equals current.values (addMissing (itemsOf current) items) ↔
      current.isPlural = true ∨ ∃ item ∈ addMissing [] items, current.Equals item := by
    cases current with
    | null => exact iff_of_true .nil (.inl rfl)
    | arr stored =>
        exact iff_of_true (prefix_addMissing stored _).sublist.sublistForall₂ (.inl rfl)
    | _ => exact sublistForall₂_singleton.trans (or_iff_right nofun).symm
  rw [← kept]
  exact ⟨fun ⟨keeps, takes⟩ => ⟨keeps, takes⟩, fun ⟨keeps, takes⟩ => ⟨keeps, takes⟩⟩

/-- The values of gifts that are lists, together. -/
def listed? : List Gift → Option (List Json)
  | [] => some []
  | .take _ (.arr items) :: rest => (listed? rest).map (items ++ ·)
  | _ => none

theorem addMissing_append (stored first last : List Json) :
    addMissing stored (first ++ last) = addMissing (addMissing stored first) last :=
  List.foldl_append

theorem eq_of_listed_cons {gift : Gift} {rest : List Gift} {items : List Json}
    (listed : listed? (gift :: rest) = some items) :
    ∃ key first others, gift = .take key (.arr first) ∧ listed? rest = some others ∧
      items = first ++ others := by
  cases gift with
  | take key value =>
      cases value with
      | arr first =>
          obtain ⟨others, found, rfl⟩ := Option.map_eq_some_iff.mp listed
          exact ⟨key, first, others, rfl, found, rfl⟩
      | _ => cases listed
  | _ => cases listed

/-- A list that is given to an attribute that is treated as one is appended. -/
theorem on_take_arr {key : String} {items : List Json}
    (treated : isMultiValued (some schema) key none current (.arr items) = true) :
    Gift.on schema .add current (.take key (.arr items)) =
      .arr (addMissing (itemsOf current) items) := by
  rw [Gift.on, taken, treated]
  rfl

/-- Lists that are given where a list is are appended one after the other. -/
theorem foldl_on_of_listed {given : List Gift} {stored items : List Json}
    (listed : listed? given = some items) :
    given.foldl (Gift.on schema .add) (.arr stored) = .arr (addMissing stored items) := by
  induction given generalizing stored items with
  | nil =>
      cases listed
      rfl
  | cons gift rest ih =>
      obtain ⟨key, first, others, rfl, found, rfl⟩ := eq_of_listed_cons listed
      rw [List.foldl_cons, on_take_arr rfl, itemsOf, ih found, addMissing_append]

/-- Lists that are given to an attribute with several values are appended, whatever it has. -/
theorem foldl_on_of_multi {given : List Gift} {items : List Json}
    (multi : ∀ key value, .take key value ∈ given → schema.isMultiValued? key none = some true)
    (nonempty : given ≠ []) (listed : listed? given = some items) (current : Json) :
    given.foldl (Gift.on schema .add) current = .arr (addMissing (itemsOf current) items) := by
  cases given with
  | nil => exact absurd rfl nonempty
  | cons gift rest =>
      obtain ⟨key, first, others, rfl, found, rfl⟩ := eq_of_listed_cons listed
      have treated : isMultiValued (some schema) key none current (.arr first) = true := by
        rw [isMultiValued, Option.bind_some, multi key _ List.mem_cons_self, Bool.or_true]
      rw [List.foldl_cons, on_take_arr treated, foldl_on_of_listed found, addMissing_append]

/-- Only a spelling of the name of an attribute gives it something to take. -/
theorem sameName_of_mem_gifts {member : String × Json} {key : String}
    (held : .take key value ∈ gifts schema resource name member) : sameName key name = true := by
  unfold gifts at held
  dsimp only at held
  split at held
  · cases held
  · split at held
    · split at held
      · obtain ⟨_, _, other⟩ := List.mem_map.mp held
        cases other
      · split at held
        · simp at held
        · cases held
    · split at held
      · cases held
      · split at held
        · next led =>
          cases List.mem_singleton.mp held
          exact (Bool.and_eq_true_iff.mp led).1
        · cases held

end Patch

/-! ## The values of an attribute -/

/-- The name of the attribute of a resource that has, or holds, the attribute under a URN. -/
def ResourceSchema.holder (schema : ResourceSchema) (uri : Option String) (name : String) :
    String :=
  if schema.isCore uri then name else uri.getD ""

/-- The value of an attribute under a URN in what its holder has. -/
def ResourceSchema.within (schema : ResourceSchema) (uri : Option String) (name : String)
    (held : Json) : Json :=
  if schema.isCore uri then held else attr (held.members?.getD []) name

/-- The value of an attribute under a URN, null if there is none. -/
def Members.valueOf (resource : Members) (schema : ResourceSchema) (uri : Option String)
    (name : String) : Json :=
  schema.within uri name (attr resource (schema.holder uri name))

theorem ResourceSchema.holder_of_core (core : schema.isCore uri = true) :
    schema.holder uri name = name := by
  rw [holder, if_pos core]

theorem Members.valueOf_of_core (core : schema.isCore uri = true) (resource : Members) :
    resource.valueOf schema uri name = attr resource name := by
  rw [valueOf, ResourceSchema.within, if_pos core, ResourceSchema.holder_of_core core]

theorem Members.valueOf_of_extension (notCore : schema.isCore (some urn) = false)
    (resource : Members) :
    resource.valueOf schema (some urn) name = attr ((attr resource urn).members?.getD []) name := by
  have other : ¬ schema.isCore (some urn) = true := by simp [notCore]
  rw [valueOf, ResourceSchema.within, if_neg other, ResourceSchema.holder, if_neg other]
  rfl

theorem Members.valueOf_congr {first second : Members}
    (agree : Agree id (schema.holder uri name) first second) :
    first.valueOf schema uri name = second.valueOf schema uri name := by
  rw [valueOf, valueOf, agree.attr_eq (sameName_refl _)]

namespace PatchOperation

variable {operation : PatchOperation}

/-- Whether an operation has a path that names an attribute, with neither filter nor
sub-attribute. -/
def Names (operation : PatchOperation) (uri : Option String) (name : String) : Prop :=
  ∃ text, operation.path = some text ∧
    PathOf.parse text = .ok ⟨uri, some name, none, none⟩

/-- At the path of an attribute with several values an addition appends to a list. -/
theorem valueOf_names (names : operation.Names uri name) (adds : operation.op = .add)
    (multi : schema.isMultiValued? name uri = some true)
    (notSchemas : sameName "schemas" (schema.holder uri name) = false)
    (ran : (operation.apply (some schema)).run resource = (.ok (), after)) :
    after.valueOf schema uri name =
      .arr (Patch.addMissing (Patch.itemsOf (resource.valueOf schema uri name))
        (Patch.asItems operation.value)) := by
  obtain ⟨text, textEq, parsed⟩ := names
  have decides {current : Json} {edit : AttrEdit}
      (decided : operation.decision (some schema) ⟨uri, some name, none, none⟩ name current =
        .ok edit) : edit = Patch.appending operation.value current := by
    have treated : Patch.isMultiValued (some schema) name uri current operation.value = true := by
      rw [Patch.isMultiValued, Option.bind_some, multi, Bool.or_true]
    rw [decision, adds] at decided
    change (if Patch.isMultiValued (some schema) name uri current operation.value = true then
      _ else _) = _ at decided
    rw [if_pos treated] at decided
    exact (Except.ok.inj decided).symm
  cases core : schema.isCore uri with
  | true =>
      obtain ⟨edit, decided, rfl⟩ := core_of_run textEq parsed core rfl ran
      rw [Members.valueOf_of_core core, Members.valueOf_of_core core, decides decided,
        Patch.appending, AttrEdit.on, attr_setAttr_self]
  | false =>
      cases uri with
      | none => cases core
      | some urn =>
          have isUrn : sameName "schemas" urn = false := by
            simpa [ResourceSchema.holder, core] using notSchemas
          have sets : operation.op ≠ .remove := by simp [adds]
          obtain ⟨edit, decided, agrees⟩ :=
            extension_of_run textEq parsed rfl core isUrn rfl sets ran
          have held := (agrees urn isUrn).attr_eq (sameName_refl urn)
          rw [attr_setAttr_self, decides decided] at held
          rw [Members.valueOf_of_extension core, Members.valueOf_of_extension core, held]
          change Members.attr (setAttr _ name _) name = _
          rw [attr_setAttr_self]

/-- What the members of the value of an operation give to an attribute of a resource. -/
def given (schema : ResourceSchema) (name : String) (operation : PatchOperation)
    (resource : Members) : List Patch.Gift :=
  (operation.value.members?.getD []).flatMap (Patch.gifts schema resource name)

/-- Without a path an attribute is left as it is after everything that it is given. -/
theorem valueOf_root (noPath : operation.path = none) (adds : operation.op = .add)
    (notSchemas : sameName "schemas" (schema.holder uri name) = false)
    (ran : (operation.apply (some schema)).run resource = (.ok (), after)) :
    after.valueOf schema uri name =
      schema.within uri name ((operation.given schema (schema.holder uri name) resource).foldl
        (Patch.Gift.on schema .add) (Members.attr resource (schema.holder uri name))) := by
  unfold apply at ran
  rw [noPath] at ran
  obtain ⟨values, start, listed, ran⟩ := Action.run_bind_eq_ok_iff.mp ran
  obtain ⟨found, rfl⟩ := Prod.mk.inj listed
  rw [Members.valueOf_congr (Patch.agree_mergeMembers notSchemas ran), adds, Members.valueOf,
    Patch.attr_foldl_absorb, given, Patch.eq_of_rootMembers found]
  rfl

/-- The values that an operation appends to an attribute with several values: those of its own value
at a path, and without a path those of the lists that are given, if nothing else is. -/
def appended? (schema : ResourceSchema) (uri : Option String) (name : String)
    (operation : PatchOperation) (resource : Members) : Option (List Json) :=
  match operation.path with
  | some _ => some (Patch.asItems operation.value)
  | none =>
    let given := operation.given schema name resource
    if schema.isCore uri && !given.isEmpty then Patch.listed? given else none

/-- Where an operation only appends, the values are appended to those that are there. -/
theorem valueOf_appended {items : List Json} (adds : operation.op = .add)
    (addressed : operation.path = none ∨ operation.Names uri name)
    (multi : schema.isMultiValued? name uri = some true)
    (notSchemas : sameName "schemas" (schema.holder uri name) = false)
    (appended : operation.appended? schema uri name resource = some items)
    (ran : (operation.apply (some schema)).run resource = (.ok (), after)) :
    after.valueOf schema uri name =
      .arr (Patch.addMissing (Patch.itemsOf (resource.valueOf schema uri name)) items) := by
  unfold appended? at appended
  rcases addressed with noPath | names
  · rw [noPath] at appended
    dsimp only at appended
    split at appended
    · next lists =>
      obtain ⟨core, nonempty⟩ := Bool.and_eq_true_iff.mp lists
      rw [valueOf_root noPath adds notSchemas ran, Members.valueOf_of_core core,
        ResourceSchema.within, if_pos core, ResourceSchema.holder_of_core core]
      refine Patch.foldl_on_of_multi (fun key value held => ?_) (by simpa using nonempty) appended _
      obtain ⟨member, _, gift⟩ := List.mem_flatMap.mp held
      have same := Patch.sameName_of_mem_gifts gift
      rw [ResourceSchema.isMultiValued?_congr same rfl,
        ← ResourceSchema.isMultiValued?_congr (sameName_refl name) core, multi]
    · cases appended
  · rw [valueOf_names names adds multi notSchemas ran]
    obtain ⟨text, textEq, _⟩ := names
    rw [textEq] at appended
    cases appended
    rfl

end PatchOperation

/-! ## What is supplied -/

/-- The values that a member of a value without a path supplies to an attribute: in an object under
a URN, those of the members with its name; else its own value, if it has the name. -/
def Patch.suppliedBy (schema : ResourceSchema) (uri : Option String) (name : String)
    (member : String × Json) : List Json :=
  let (key, value) := member
  if Text.lower key = "schemas" then []
  else if key.toList.contains ':' && value.isObj then
    if (if schema.isCore uri then sameName schema.urn key else sameName key (uri.getD "")) then
      (spellings (value.members?.getD []) name).flatMap (·.2.values)
    else []
  else if schema.isCore uri && sameName key name then value.values
  else []

namespace PatchOperation

variable {operation : PatchOperation}

/-- The values that an operation supplies to the attribute of its path, or without a path to a given
one. -/
def supplied (schema : ResourceSchema) (uri : Option String) (name : String)
    (operation : PatchOperation) : List Json :=
  match operation.path with
  | some _ => operation.value.values
  | none => (operation.value.members?.getD []).flatMap (Patch.suppliedBy schema uri name)

/-- Whether an addition loses no value of an attribute with several values. -/
inductive Gathers (schema : ResourceSchema) (uri : Option String) (name : String)
    (operation : PatchOperation) (resource : Members) : Prop where
  /-- Where it appends: a single value in the place of the list is appended too, and no value is
  passed over for an item that equals it only if truth values are numbers. -/
  | appending {items : List Json}
      (appended : operation.appended? schema uri name resource = some items)
      (kept : (resource.valueOf schema uri name).isPlural = true ∨
        ∃ item ∈ Patch.addMissing [] items, (resource.valueOf schema uri name).Equals item)
      (taken : ∀ value ∈ operation.supplied schema uri name,
        ∃ item ∈ Patch.addMissing (Patch.itemsOf (resource.valueOf schema uri name)) items,
          value.Equals item)
  /-- Otherwise: what is given to the attribute, one after the other, has all values. -/
  | giving (single : operation.appended? schema uri name resource = none)
      (gathered : Accumulates (resource.valueOf schema uri name).values
        (operation.supplied schema uri name)
        (schema.within uri name ((operation.given schema (schema.holder uri name) resource).foldl
          (Patch.Gift.on schema .add)
          (Members.attr resource (schema.holder uri name)))).values)

/-- An addition without a path, or at a path that names an attribute with several values, loses no
value of it exactly where it gathers them. The list of declared URNs is not such an attribute, nor
what is kept under its name. -/
theorem accumulates_iff (adds : operation.op = .add)
    (addressed : operation.path = none ∨ operation.Names uri name)
    (multi : schema.isMultiValued? name uri = some true)
    (notSchemas : sameName "schemas" (schema.holder uri name) = false)
    (ran : (operation.apply (some schema)).run resource = (.ok (), after)) :
    Accumulates (resource.valueOf schema uri name).values (operation.supplied schema uri name)
        (after.valueOf schema uri name).values ↔
      operation.Gathers schema uri name resource := by
  cases appended : operation.appended? schema uri name resource with
  | some items =>
      rw [valueOf_appended adds addressed multi notSchemas appended ran]
      refine Patch.accumulates_appending_iff.trans ⟨?_, ?_⟩
      · rintro ⟨kept, taken⟩
        exact .appending appended kept taken
      · rintro (⟨given, kept, taken⟩ | ⟨single, _⟩)
        · rw [appended] at given
          cases given
          exact ⟨kept, taken⟩
        · rw [appended] at single
          cases single
  | none =>
      have noPath : operation.path = none := by
        unfold appended? at appended
        split at appended
        · cases appended
        · next noPath => exact noPath
      rw [valueOf_root noPath adds notSchemas ran]
      constructor
      · exact .giving appended
      · rintro (⟨given, _⟩ | ⟨_, gathered⟩)
        · rw [appended] at given
          cases given
        · exact gathered

/-- One more address for a list, and one that is there. -/
theorem accumulates_iff_emails :
    let first : Json := .obj [("value", .str "a")]
    let second : Json := .obj [("value", .str "b")]
    let resource : Members := [("userName", .str "a"), ("emails", .arr [first])]
    let operation : PatchOperation := ⟨.add, some "emails", .arr [second, first]⟩
    operation.op = .add ∧ operation.Names none "emails" ∧
      ResourceSchema.user.isMultiValued? "emails" none = some true ∧
      sameName "schemas" (ResourceSchema.user.holder none "emails") = false ∧
      ∃ after, (operation.apply (some .user)).run resource = (.ok (), after) ∧
        (Accumulates (resource.valueOf .user none "emails").values
            (operation.supplied .user none "emails") (after.valueOf .user none "emails").values ↔
          operation.Gathers .user none "emails" resource) := by
  intro first second resource operation
  have names : operation.Names none "emails" := ⟨_, rfl, rfl⟩
  have multi : ResourceSchema.user.isMultiValued? "emails" none = some true := by decide +kernel
  have notSchemas : sameName "schemas" (ResourceSchema.user.holder none "emails") = false := by
    decide +kernel
  have succeeds : ((operation.apply (some .user)).run resource).1.isOk = true := by decide +kernel
  obtain ⟨_, after, ran⟩ := Action.exists_run_of_isOk succeeds
  exact ⟨rfl, names, multi, notSchemas, after, ran,
    accumulates_iff rfl (.inr names) multi notSchemas ran⟩

/-- Not every addition at the path of an attribute keeps a single value that is there. -/
theorem not_accumulates :
    ¬ ∀ (schema : ResourceSchema) (uri : Option String) (name : String)
        (operation : PatchOperation) (resource after : Members), operation.op = .add →
      operation.Names uri name → schema.isMultiValued? name uri = some true →
      (operation.apply (some schema)).run resource = (.ok (), after) →
      Accumulates (resource.valueOf schema uri name).values (operation.supplied schema uri name)
        (after.valueOf schema uri name).values := by
  intro keeps
  let resource : Members := [("userName", .str "a"), ("emails", .obj [("value", .str "a")])]
  let operation : PatchOperation := ⟨.add, some "emails", .obj [("value", .str "b")]⟩
  have names : operation.Names none "emails" := ⟨_, rfl, rfl⟩
  have multi : ResourceSchema.user.isMultiValued? "emails" none = some true := by decide +kernel
  have succeeds : ((operation.apply (some .user)).run resource).1.isOk = true := by decide +kernel
  obtain ⟨_, after, ran⟩ := Action.exists_run_of_isOk succeeds
  have kept := (keeps .user none "emails" operation resource after rfl names multi ran).kept
  rw [valueOf_names names rfl multi (by decide +kernel) ran] at kept
  -- the list has one item, which is not the single value that was there
  obtain ⟨item, held, equals⟩ := Patch.sublistForall₂_singleton.mp kept
  cases List.mem_singleton.mp held
  rcases equals with same | alike
  · have : Json.obj [("value", .str "a")] = .obj [("value", .str "b")] := same
    simp at this
  · exact absurd alike (by decide +kernel)

end PatchOperation

end Scim
