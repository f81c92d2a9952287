import Scim.Proofs.Patch.Absorbing
import Scim.Proofs.Patch.ReadOnly
import Scim.Proofs.Patch.Requests

/-!
# Attributes that stay lists

An attribute for which the schema states several values is absent, null or a list.  What an
operation puts in its place is a list again, with few exceptions: a sub-attribute of an absent
list creates an object, and so does the name of the attribute if it is used as a URN; a value
without a path puts single values in place as they are, and so does an object for the whole core
schema.
-/

namespace Scim

open Members

/-- Whether a value is a list, or null. -/
def Json.isPlural (value : Json) : Bool := value.isNull || value.isArr

/-- Whether what is kept under each spelling of a name is a list, or null. -/
def Members.Plural (resource : Members) (name : String) : Prop :=
  ∀ key value, sameName key name = true → get? resource key = some value → value.isPlural = true

/-- Whether an edit leaves a list where there was one. -/
def AttrEdit.isPlural : AttrEdit → Bool
  | keep | drop => true
  | put value => value.isPlural

namespace Members

variable {first second members : Members} {name attr key : String} {value : Json}

theorem Agree.plural_iff (agree : Agree Json.isPlural name first second) :
    first.Plural name ↔ second.Plural name := by
  have carried {a b : Members} (agree : Agree Json.isPlural name a b) (plural : b.Plural name) :
      a.Plural name := by
    intro key value same held
    have looks := agree.values key same
    rw [held] at looks
    cases other : get? b key with
    | none =>
        rw [other] at looks
        cases looks
    | some changed =>
        rw [other] at looks
        exact (Option.some.inj looks).trans (plural key changed same other)
  exact ⟨carried agree.symm, carried agree⟩

theorem plural_of_forall_mem
    (each : ∀ member ∈ members, sameName member.1 name = true → member.2.isPlural = true) :
    members.Plural name :=
  fun key value same held => each (key, value) (mem_of_get? held) same

/-- Of an attribute that is set, only what is put in place matters. -/
theorem Plural.setAttr_iff (plural : members.Plural name) (same : sameName attr name = true) :
    (setAttr members attr value).Plural name ↔ value.isPlural = true := by
  constructor
  · intro kept
    refine kept (place members attr) value ?_ ?_
    · rw [sameName_congr (sameName_place members attr), same]
    · rw [setAttr_eq_set, get?_set, if_pos rfl]
  · intro isPlural key stored spelled held
    rw [setAttr_eq_set, get?_set] at held
    split at held
    · cases held
      exact isPlural
    · exact plural key stored spelled held

theorem Plural.delAttr (plural : members.Plural name) (attr : String) :
    (delAttr members attr).Plural name := by
  intro key value same held
  rw [delAttr_eq_erase, get?_erase] at held
  split at held
  · cases held
  · exact plural key value same held

theorem Plural.isPlural_attr (plural : members.Plural name) (same : sameName attr name = true) :
    (Members.attr members attr).isPlural = true := by
  rw [Members.attr, ← get?_place]
  cases held : get? members (place members attr) with
  | none => rfl
  | some value =>
      refine plural _ value ?_ held
      rw [sameName_congr (sameName_place members attr), same]

/-- Of an attribute that is edited, only the edit matters. -/
theorem Plural.on_iff (plural : members.Plural name) (same : sameName attr name = true)
    (edit : AttrEdit) : (edit.on attr members).Plural name ↔ edit.isPlural = true := by
  cases edit with
  | keep => exact iff_of_true plural rfl
  | put value => exact plural.setAttr_iff same
  | drop => exact iff_of_true (plural.delAttr attr) rfl

theorem Plural.congr (same : spellings first name = spellings second name) :
    first.Plural name ↔ second.Plural name :=
  Agree.plural_iff (.of_spellings same)

end Members

namespace Patch

variable {schema : ResourceSchema} {path : AttributePath} {name attr key : String}
  {op : PatchOp} {value current : Json} {values first second : Members}

/-! ## Values without a path -/

/-- What a member of a value without a path gives to the attributes of a resource: its value, or
the members of its value if it stands for the whole core schema. -/
def given (schema : ResourceSchema) (member : String × Json) : Members :=
  let (key, value) := member
  if Text.lower key = "schemas" then []
  else if key.toList.contains ':' && value.isObj then
    if sameName schema.urn key then (value.members?).getD [] else [(key, value)]
  else if schema.isFixed key none none then [] else [(key, value)]

/-- A list is of no stated type but itself. -/
theorem eq_of_coerce_arr {schema : Option ResourceSchema} {uri : Option String} {items : List Json}
    {result : Json} (checked : coerce schema attr none uri (.arr items) = .ok result) :
    result = .arr items := by
  unfold coerce at checked
  extract_lets shown at checked
  clear_value shown
  split at checked
  · exact (Except.ok.inj checked).symm
  · split at checked
    · cases checked
    · cases checked
    · split at checked
      · cases checked
      · exact (Except.ok.inj checked).symm
    · exact (Except.ok.inj checked).symm

theorem isPlural_typed (schema : ResourceSchema) (attr : String) (uri : Option String)
    (value : Json) : (typed schema attr uri value).isPlural = value.isPlural := by
  unfold typed
  cases checked : coerce (some schema) attr none uri value with
  | error failure => rfl
  | ok result =>
      change result.isPlural = value.isPlural
      cases value with
      | null =>
          cases checked
          rfl
      | arr items => rw [eq_of_coerce_arr checked]
      | _ =>
          obtain rfl | ⟨b, rfl⟩ := coerce_eq_ok checked <;> rfl

theorem isPlural_taken : (taken schema op key value current).isPlural = value.isPlural := by
  unfold taken
  split
  · next appends =>
    have isArr : value.isArr = true := by
      rw [Bool.and_eq_true, Bool.and_eq_true] at appends
      exact appends.1.2
    rw [Json.isPlural, Json.isPlural, isArr, Bool.or_true]
    rfl
  · exact isPlural_typed schema key none value

/-- In what looks like lists, a resource absorbs what is given to it. -/
theorem agree_given (agree : Agree Json.isPlural name first second) (member : String × Json) :
    Agree Json.isPlural name (absorb schema op first member)
      (merge second (given schema member)) := by
  unfold absorb given
  dsimp only
  split
  · exact agree
  · split
    · next whole =>
      split
      · exact agree.merge _
      · refine agree.setAttr member.1 ?_
        rw [Bool.and_eq_true] at whole
        cases held : member.2 with
        | obj members => rfl
        | _ =>
            rw [held] at whole
            cases whole.2
    · split
      · exact agree
      · exact agree.setAttr member.1 isPlural_taken

theorem agree_given_all (agree : Agree Json.isPlural name first second) (values : Members) :
    Agree Json.isPlural name (values.foldl (absorb schema op) first)
      (merge second (values.flatMap (given schema))) := by
  induction values generalizing first second with
  | nil => exact agree
  | cons member rest ih =>
      rw [List.flatMap_cons, merge_append]
      exact ih (agree_given agree member)

/-! ## Decisions -/

theorem isPlural_settingAt {sub : String} {indexes : List Nat} {edit : AttrEdit}
    (decided : settingAt (some schema) path attr sub value indexes current = .ok edit) :
    edit.isPlural = true := by
  obtain ⟨typed, _, rest⟩ := bind_eq_ok_iff.mp decided
  cases rest
  rfl

/-- Setting a sub-attribute where nothing is creates an object. -/
theorem isPlural_settingSub {sub : String} {merge : Bool} {edit : AttrEdit}
    (plural : current.isPlural = true)
    (decided : settingSub (some schema) path attr sub merge value current = .ok edit) :
    edit.isPlural = !current.isNull := by
  obtain ⟨typed, _, rest⟩ := bind_eq_ok_iff.mp decided
  cases current with
  | null =>
      cases rest
      rfl
  | arr items =>
      cases rest
      rfl
  | _ => cases plural

theorem isPlural_unlessEmpty (items : List Json) :
    (AttrEdit.unlessEmpty (.arr items)).isPlural = true := by
  cases items <;> rfl

theorem isPlural_removal {edit : AttrEdit} (plural : current.isPlural = true)
    (decided : removal (some schema) path value current = .ok edit) : edit.isPlural = true := by
  unfold removal at decided
  cases current with
  | null =>
      cases decided
      rfl
  | arr items =>
      rw [if_neg (by simp [Json.isNull])] at decided
      split at decided
      · obtain ⟨indexes, _, rest⟩ := bind_eq_ok_iff.mp decided
        split at rest
        · cases rest
          rfl
        · cases rest
          cases indexes.isEmpty with
          | true => rfl
          | false => exact isPlural_unlessEmpty _
      · cases decided
        rfl
      · cases decided
        unfold dropping
        dsimp only
        split
        · rfl
        · exact isPlural_unlessEmpty _
  | _ => cases plural

/-- An operation at a path puts something else than a list in the place of one exactly if it sets a
sub-attribute where nothing is. -/
theorem isPlural_decision_iff {operation : PatchOperation} {edit : AttrEdit}
    (multi : schema.isMultiValued? attr path.uri = some true) (plural : current.isPlural = true)
    (decided : operation.decision (some schema) path attr current = .ok edit) :
    edit.isPlural = true ↔
      ¬ (operation.op ≠ .remove ∧ path.restriction = none ∧ path.sub.isSome = true ∧
        current.isNull = true) := by
  obtain ⟨op, _, value⟩ := operation
  have treated : isMultiValued (some schema) attr path.uri current value = true := by
    rw [isMultiValued, Option.bind_some, multi, Bool.or_true]
  cases op with
  | add =>
      change addition (some schema) path attr value current = .ok edit at decided
      unfold addition at decided
      split at decided
      · next restricted _ =>
        refine iff_of_true ?_ fun ⟨_, unrestricted, _⟩ => by simp [restricted] at unrestricted
        obtain ⟨indexes, _, rest⟩ := bind_eq_ok_iff.mp decided
        split at rest
        · cases rest
        · exact isPlural_settingAt rest
      · next restricted _ =>
        refine iff_of_true ?_ fun ⟨_, unrestricted, _⟩ => by simp [restricted] at unrestricted
        obtain ⟨indexes, _, rest⟩ := bind_eq_ok_iff.mp decided
        split at rest <;> cases rest <;> rfl
      · next unrestricted subEq =>
        rw [isPlural_settingSub plural decided]
        simp [unrestricted, subEq]
      · next _ subEq =>
        rw [if_pos treated] at decided
        cases decided
        exact iff_of_true rfl fun ⟨_, _, isSome, _⟩ => by simp [subEq] at isSome
  | replace =>
      change replacement (some schema) path attr value current = .ok edit at decided
      unfold replacement at decided
      split at decided
      · next restricted =>
        refine iff_of_true ?_ fun ⟨_, unrestricted, _⟩ => by simp [restricted] at unrestricted
        obtain ⟨indexes, _, rest⟩ := bind_eq_ok_iff.mp decided
        split at rest
        · cases rest
        · exact isPlural_settingAt rest
        · cases rest
          rfl
      · next unrestricted subEq =>
        rw [isPlural_settingSub plural decided]
        simp [unrestricted, subEq]
      · next _ subEq =>
        rw [if_pos treated] at decided
        cases decided
        exact iff_of_true rfl fun ⟨_, _, isSome, _⟩ => by simp [subEq] at isSome
  | remove =>
      exact iff_of_true (isPlural_removal plural decided) fun ⟨sets, _⟩ => sets rfl

end Patch

/-! ## Operations -/

theorem ResourceSchema.isMultiValued?_congr {schema : ResourceSchema} {attr name : String}
    {uri : Option String} (same : sameName attr name = true) (core : schema.isCore uri = true) :
    schema.isMultiValued? attr uri = schema.isMultiValued? name none := by
  have found (part : SchemaDef) : part.find? attr = part.find? name := by
    simp only [SchemaDef.find?, sameName_congr_right same]
  cases uri with
  | none => simp only [isMultiValued?, attribute?, SchemaDef.lookup?, found]
  | some urn =>
      have own : sameName urn schema.urn = true := (sameName_comm urn schema.urn).trans core
      simp only [isMultiValued?, attribute?, SchemaDef.lookup?, found, schemaFor?, own, if_true]

namespace PatchOperation

variable {schema : ResourceSchema} {operation : PatchOperation} {path : AttributePath}
  {text name uri : String} {resource after : Members}

/-- Whether an operation puts something else than a list in the place of an attribute of a resource
in which it is absent, null or a list. -/
inductive Reshapes (schema : ResourceSchema) (name : String) (operation : PatchOperation)
    (resource : Members) : Prop where
  /-- An addition or replacement of a sub-attribute where nothing is. -/
  | creating {text : String} {path : AttributePath} {attr : String}
      (textEq : operation.path = some text) (parsed : PathOf.parse text = .ok path)
      (core : schema.isCore path.uri = true) (attrEq : path.attr = some attr)
      (same : sameName attr name = true) (sets : operation.op ≠ .remove)
      (unrestricted : path.restriction = none) (sub : path.sub.isSome = true)
      (nothing : (Members.attr resource attr).isNull = true)
  /-- An addition or replacement under the name of the attribute as the URN of an extension. -/
  | extending {text : String} {path : AttributePath} {uri : String}
      (textEq : operation.path = some text) (parsed : PathOf.parse text = .ok path)
      (uriEq : path.uri = some uri) (notCore : sameName schema.urn uri = false)
      (same : sameName uri name = true) (sets : operation.op ≠ .remove)
  /-- An object for the whole core schema, at its URN. -/
  | merging {text : String} {path : AttributePath} {uri : String}
      (textEq : operation.path = some text) (parsed : PathOf.parse text = .ok path)
      (uriEq : path.uri = some uri) (core : sameName schema.urn uri = true)
      (whole : path.attr = none) (sets : operation.op ≠ .remove)
      (single : ¬ (merge resource (operation.value.members?.getD [])).Plural name)
  /-- Values without a path. -/
  | giving (noPath : operation.path = none)
      (single : ¬ (merge resource ((operation.value.members?.getD []).flatMap
        (Patch.given schema))).Plural name)

/-- Without a path, what is given to the resource decides. -/
theorem plural_mergeRoot_iff (notSchemas : sameName "schemas" name = false)
    (noPath : operation.path = none)
    (ran : (operation.apply (some schema)).run resource = (.ok (), after)) :
    after.Plural name ↔ (merge resource ((operation.value.members?.getD []).flatMap
      (Patch.given schema))).Plural name := by
  unfold apply at ran
  rw [noPath] at ran
  obtain ⟨values, start, listed, ran⟩ := Action.run_bind_eq_ok_iff.mp ran
  obtain ⟨found, rfl⟩ := Prod.mk.inj listed
  rw [Patch.eq_of_rootMembers found]
  exact (((Patch.agree_mergeMembers notSchemas ran).of_id Json.isPlural).trans
    (Patch.agree_given_all (.refl _ _ _) values)).plural_iff

/-- At a path in the core schema, the edit of the attribute decides. -/
theorem plural_core_iff {attr : String} (multi : schema.isMultiValued? name none = some true)
    (plural : resource.Plural name) (textEq : operation.path = some text)
    (parsed : PathOf.parse text = .ok path) (core : schema.isCore path.uri = true)
    (attrEq : path.attr = some attr)
    (ran : (operation.apply (some schema)).run resource = (.ok (), after)) :
    after.Plural name ↔ ¬ (sameName attr name = true ∧ operation.op ≠ .remove ∧
      path.restriction = none ∧ path.sub.isSome = true ∧
        (Members.attr resource attr).isNull = true) := by
  obtain ⟨edit, decided, rfl⟩ := core_of_run textEq parsed core attrEq ran
  cases same : sameName attr name with
  | true =>
      rw [← ResourceSchema.isMultiValued?_congr same core] at multi
      rw [plural.on_iff same, Patch.isPlural_decision_iff multi (plural.isPlural_attr same) decided,
        eq_self, true_and]
  | false => exact iff_of_true ((Plural.congr (edit.spellings_on same)).mpr plural) nofun

theorem not_plural_setAttr {members values : Members} (same : sameName uri name = true) :
    ¬ (setAttr members uri (.obj values)).Plural name := by
  intro plural
  have isPlural := plural.isPlural_attr same
  rw [attr_setAttr_self] at isPlural
  cases isPlural

/-- Under the name of an attribute, used as a URN, an object is put. -/
theorem not_plural_extension (notSchemas : sameName "schemas" name = false)
    (textEq : operation.path = some text) (parsed : PathOf.parse text = .ok path)
    (uriEq : path.uri = some uri) (notCore : sameName schema.urn uri = false)
    (same : sameName uri name = true) (sets : operation.op ≠ .remove)
    (ran : (operation.apply (some schema)).run resource = (.ok (), after)) :
    ¬ after.Plural name := by
  have isUrn : sameName "schemas" uri = false := by
    rw [sameName_congr_right same]
    exact notSchemas
  cases attrEq : path.attr with
  | some attr =>
      obtain ⟨edit, _, agrees⟩ :=
        extension_of_run textEq parsed uriEq notCore isUrn attrEq sets ran
      rw [((agrees name notSchemas).of_id Json.isPlural).plural_iff]
      exact not_plural_setAttr same
  | none =>
      obtain ⟨home, middle, values, _, _, merged⟩ :=
        whole_of_run textEq parsed uriEq attrEq sets ran
      have agrees := Patch.agree_mergeExtension isUrn notSchemas merged
      rw [notCore, if_neg Bool.false_ne_true] at agrees
      rw [(agrees.of_id Json.isPlural).plural_iff]
      exact not_plural_setAttr same

/-- A list is no extension that could be removed. -/
theorem plural_removeExtension (plural : resource.Plural name) (textEq : operation.path = some text)
    (parsed : PathOf.parse text = .ok path) (uriEq : path.uri = some uri)
    (notCore : sameName schema.urn uri = false) (same : sameName uri name = true)
    (removes : operation.op = .remove)
    (ran : (operation.apply (some schema)).run resource = (.ok (), after)) :
    after = resource := by
  have atPath := run_at_path textEq parsed ran
  rw [removes] at atPath
  obtain ⟨home?, start, examined, rest⟩ := Action.run_bind_eq_ok_iff.mp atPath
  obtain ⟨found, rfl⟩ := Prod.mk.inj examined
  have is := eq_of_homeFor uriEq found
  have isPlural := plural.isPlural_attr same
  have noObject : (Members.attr resource uri).isObj = false := by
    cases held : Members.attr resource uri with
    | obj members =>
        rw [held] at isPlural
        cases isPlural
    | _ => rfl
  have core : isCoreHome (some schema) resource (some uri) = false := notCore
  rw [core, if_neg Bool.false_ne_true, noObject, if_neg Bool.false_ne_true] at is
  subst is
  cases rest
  rfl

/-- Beside the extension of its path an operation changes no attribute. -/
theorem spellings_extension (notSchemas : sameName "schemas" name = false)
    (textEq : operation.path = some text) (parsed : PathOf.parse text = .ok path)
    (uriEq : path.uri = some uri) (notCore : sameName schema.urn uri = false)
    (differ : sameName uri name = false)
    (ran : (operation.apply (some schema)).run resource = (.ok (), after)) :
    spellings after name = spellings resource name := by
  have atPath := run_at_path textEq parsed ran
  have noUrn : ∀ urn ∈ Patch.pathUrns path, sameName urn name = false := by
    intro urn held
    have isUri : urn = uri := by
      unfold Patch.pathUrns at held
      split at held <;> simpa [uriEq] using held
    rw [isUri, differ]
  have elsewhere : Patch.LeadsElsewhere schema path name := by
    intro attr _ home homeOf
    cases home with
    | core =>
        have core : schema.isCore path.uri = true := homeOf
        rw [uriEq] at core
        exact absurd core (by simp [ResourceSchema.isCore, notCore])
    | extension key => exact homeOf.key_differs (Patch.uri_differs noUrn)
  have nothing (op : PatchOp) : Patch.pathMerged schema op path operation.value = [] := by
    unfold Patch.pathMerged
    split
    · rfl
    · rfl
    · rw [uriEq, Option.getD_some, ResourceSchema.merged, notCore, if_neg Bool.false_ne_true]
  cases opEq : operation.op with
  | add =>
      rw [opEq] at atPath
      have written := Patch.writes_add notSchemas noUrn elsewhere operation.value
      rw [nothing] at written
      exact (written _ _ _ atPath).1
  | replace =>
      rw [opEq] at atPath
      have written := Patch.writes_replace notSchemas noUrn elsewhere operation.value
      rw [nothing] at written
      exact (written _ _ _ atPath).1
  | remove =>
      rw [opEq] at atPath
      exact (Patch.keeps_remove notSchemas noUrn elsewhere operation.value _ _ _ atPath).1

/-- The whole core schema can be removed only as an attribute of its name. -/
theorem plural_removeCore (plural : resource.Plural name)
    (notSchemas : sameName "schemas" name = false) (textEq : operation.path = some text)
    (parsed : PathOf.parse text = .ok path) (whole : path.attr = none)
    (removes : operation.op = .remove)
    (ran : (operation.apply (some schema)).run resource = (.ok (), after)) :
    after.Plural name := by
  have atPath := run_at_path textEq parsed ran
  rw [removes] at atPath
  obtain ⟨home?, start, examined, rest⟩ := Action.run_bind_eq_ok_iff.mp atPath
  obtain ⟨found, rfl⟩ := Prod.mk.inj examined
  cases home? with
  | none =>
      cases rest
      exact plural
  | some home =>
      dsimp only at rest
      rw [whole] at rest
      obtain ⟨_, fewer, removed, withdrawn⟩ := Action.run_bind_eq_ok_iff.mp rest
      cases removed
      have kept : spellings after name = spellings (delAttr resource (path.uri.getD "")) name := by
        rw [Action.run_update] at withdrawn
        split at withdrawn
        · next changed stepEq =>
          cases withdrawn
          obtain ⟨urns, _, rest⟩ := bind_eq_ok_iff.mp stepEq
          split at rest
          · cases rest
            exact Patch.spellings_setSchemas notSchemas _
          · cases rest
        · cases withdrawn
      exact (Plural.congr kept).mpr (plural.delAttr _)

/-- What reshapes an attribute at a given path. -/
theorem reshapes_at_path_iff (textEq : operation.path = some text)
    (parsed : PathOf.parse text = .ok path) :
    operation.Reshapes schema name resource ↔ operation.op ≠ .remove ∧
      ((schema.isCore path.uri = true ∧ ∃ attr, path.attr = some attr ∧ sameName attr name = true ∧
          path.restriction = none ∧ path.sub.isSome = true ∧
            (Members.attr resource attr).isNull = true) ∨
        (∃ uri, path.uri = some uri ∧ sameName schema.urn uri = false ∧
          sameName uri name = true) ∨
        path.attr = none ∧ (∃ uri, path.uri = some uri ∧ sameName schema.urn uri = true) ∧
          ¬ (merge resource (operation.value.members?.getD [])).Plural name) := by
  have own {other : String} {read : AttributePath} (otherEq : operation.path = some other)
      (readEq : PathOf.parse other = .ok read) : read = path := by
    rw [textEq] at otherEq
    cases otherEq
    rw [parsed] at readEq
    exact (Except.ok.inj readEq).symm
  constructor
  · rintro (⟨otherEq, readEq, core, attrEq, same, sets, unrestricted, sub, nothing⟩ |
      ⟨otherEq, readEq, uriEq, notCore, same, sets⟩ |
      ⟨otherEq, readEq, uriEq, core, whole, sets, single⟩ | ⟨noPath, _⟩)
    · obtain rfl := own otherEq readEq
      exact ⟨sets, .inl ⟨core, _, attrEq, same, unrestricted, sub, nothing⟩⟩
    · obtain rfl := own otherEq readEq
      exact ⟨sets, .inr (.inl ⟨_, uriEq, notCore, same⟩)⟩
    · obtain rfl := own otherEq readEq
      exact ⟨sets, .inr (.inr ⟨whole, ⟨_, uriEq, core⟩, single⟩)⟩
    · rw [textEq] at noPath
      cases noPath
  · rintro ⟨sets, ⟨core, attr, attrEq, same, unrestricted, sub, nothing⟩ |
      ⟨uri, uriEq, notCore, same⟩ | ⟨whole, ⟨uri, uriEq, core⟩, single⟩⟩
    · exact .creating textEq parsed core attrEq same sets unrestricted sub nothing
    · exact .extending textEq parsed uriEq notCore same sets
    · exact .merging textEq parsed uriEq core whole sets single

/-- At the URN of the core schema, what is merged decides. -/
theorem plural_mergeCore_iff (textEq : operation.path = some text)
    (parsed : PathOf.parse text = .ok path) (uriEq : path.uri = some uri)
    (core : sameName schema.urn uri = true) (whole : path.attr = none)
    (sets : operation.op ≠ .remove)
    (ran : (operation.apply (some schema)).run resource = (.ok (), after)) :
    after.Plural name ↔ (merge resource (operation.value.members?.getD [])).Plural name := by
  obtain ⟨home, middle, values, ensured, valueEq, merged⟩ :=
    whole_of_run textEq parsed uriEq whole sets ran
  obtain ⟨_, rfl⟩ := Patch.ensureHome_core uriEq core ensured
  rw [Patch.mergeExtension_core core merged, valueEq]
  rfl

section

variable (plural : resource.Plural name) (textEq : operation.path = some text)
  (parsed : PathOf.parse text = .ok path)
  (ran : (operation.apply (some schema)).run resource = (.ok (), after))
include plural textEq parsed ran

theorem plural_core_path_iff {attr : String}
    (multi : schema.isMultiValued? name none = some true) (core : schema.isCore path.uri = true)
    (attrEq : path.attr = some attr) :
    after.Plural name ↔ ¬ operation.Reshapes schema name resource := by
  rw [plural_core_iff multi plural textEq parsed core attrEq ran,
    reshapes_at_path_iff textEq parsed]
  refine not_congr ⟨?_, ?_⟩
  · rintro ⟨same, sets, rest⟩
    exact ⟨sets, .inl ⟨core, attr, attrEq, same, rest⟩⟩
  · rintro ⟨sets, ⟨_, other, otherEq, same, rest⟩ | ⟨uri, uriEq, notCore, _⟩ | ⟨whole, _⟩⟩
    · rw [attrEq] at otherEq
      cases otherEq
      exact ⟨same, sets, rest⟩
    · rw [uriEq] at core
      exact absurd core (by simp [ResourceSchema.isCore, notCore])
    · rw [attrEq] at whole
      cases whole

theorem plural_core_whole_iff (notSchemas : sameName "schemas" name = false)
    (core : schema.isCore path.uri = true) (whole : path.attr = none) :
    after.Plural name ↔ ¬ operation.Reshapes schema name resource := by
  obtain ⟨uri, uriEq, _⟩ := PathOf.uri_of_parse parsed whole
  have coreUrn : sameName schema.urn uri = true := by
    rw [uriEq] at core
    exact core
  rw [reshapes_at_path_iff textEq parsed]
  by_cases removes : operation.op = .remove
  · exact iff_of_true (plural_removeCore plural notSchemas textEq parsed whole removes ran)
      fun ⟨sets, _⟩ => sets removes
  · rw [plural_mergeCore_iff textEq parsed uriEq coreUrn whole removes ran]
    constructor
    · rintro kept ⟨_, ⟨_, attr, attrEq, _⟩ | ⟨other, otherEq, notCore, _⟩ | ⟨_, _, single⟩⟩
      · rw [whole] at attrEq
        cases attrEq
      · rw [uriEq] at otherEq
        cases otherEq
        rw [coreUrn] at notCore
        cases notCore
      · exact single kept
    · intro shaped
      by_contra single
      exact shaped ⟨removes, .inr (.inr ⟨whole, ⟨uri, uriEq, coreUrn⟩, single⟩)⟩

theorem plural_extension_path_iff (notSchemas : sameName "schemas" name = false)
    (notCore : schema.isCore path.uri = false) :
    after.Plural name ↔ ¬ operation.Reshapes schema name resource := by
  rw [reshapes_at_path_iff textEq parsed]
  cases uriEq : path.uri with
  | none =>
      rw [uriEq] at notCore
      cases notCore
  | some uri =>
      rw [uriEq] at notCore
      have other : sameName schema.urn uri = false := notCore
      cases same : sameName uri name with
      | true =>
          by_cases removes : operation.op = .remove
          · rw [plural_removeExtension plural textEq parsed uriEq other same removes ran]
            exact iff_of_true plural fun ⟨sets, _⟩ => sets removes
          · exact iff_of_false
              (not_plural_extension notSchemas textEq parsed uriEq other same removes ran)
              (not_not.mpr ⟨removes, .inr (.inl ⟨uri, rfl, other, same⟩)⟩)
      | false =>
          have kept := spellings_extension notSchemas textEq parsed uriEq other same ran
          refine iff_of_true ((Plural.congr kept).mpr plural) ?_
          rintro ⟨_, ⟨core, _⟩ | ⟨_, ⟨⟩, _, own⟩ | ⟨_, ⟨_, ⟨⟩, core⟩, _⟩⟩
          · rw [notCore] at core
            cases core
          · rw [same] at own
            cases own
          · rw [other] at core
            cases core

end

/-- An operation leaves a list, or nothing, where there was one, unless it reshapes it. -/
theorem plural_apply_iff (multi : schema.isMultiValued? name none = some true)
    (notSchemas : sameName "schemas" name = false) (plural : resource.Plural name)
    (ran : (operation.apply (some schema)).run resource = (.ok (), after)) :
    after.Plural name ↔ ¬ operation.Reshapes schema name resource := by
  cases textEq : operation.path with
  | none =>
      rw [plural_mergeRoot_iff notSchemas textEq ran]
      constructor
      · rintro kept (⟨text, _⟩ | ⟨text, _⟩ | ⟨text, _⟩ | ⟨_, single⟩)
        · simp [textEq] at text
        · simp [textEq] at text
        · simp [textEq] at text
        · exact single kept
      · intro shaped
        by_contra single
        exact shaped (.giving textEq single)
  | some text =>
      obtain ⟨path, parsed⟩ := parsed_of_run textEq ran
      cases core : schema.isCore path.uri with
      | true =>
          cases attrEq : path.attr with
          | some attr => exact plural_core_path_iff plural textEq parsed ran multi core attrEq
          | none => exact plural_core_whole_iff plural textEq parsed ran notSchemas core attrEq
      | false => exact plural_extension_path_iff plural textEq parsed ran notSchemas core

end PatchOperation

/-! ## Change requests -/

section

variable {schema : ResourceSchema} {name : String} {resource result : Members}
  {entries : List PatchEntry}

/-- Every initial part of a change request leaves a list, or nothing, for an attribute with several
values exactly if no operation reshapes it in the resource that the operations before it leave. The
list of declared URNs is not such an attribute. -/
theorem plural_applyPatch_iff (multi : schema.isMultiValued? name none = some true)
    (notSchemas : sameName "schemas" name = false) (plural : resource.Plural name)
    (applied : applyPatch resource entries (some schema) = .ok result) :
    (∀ before rest middle, entries = before ++ rest →
        applyPatch resource before (some schema) = .ok middle → middle.Plural name) ↔
      ∀ before entry rest operation middle, entries = before ++ entry :: rest →
        applyPatch resource before (some schema) = .ok middle →
        entry.read before.length = .ok operation → ¬ operation.Reshapes schema name middle := by
  constructor
  · intro kept before entry rest operation middle split reached read
    have whole : entries = (before ++ [entry]) ++ rest := by rw [split, List.append_assoc]; rfl
    rw [whole, applyPatch_eq_ok_iff, run_applyEntries_append_iff] at applied
    obtain ⟨next, ran, _⟩ := applied
    rw [← applyPatch_eq_ok_iff, applyPatch_concat_iff] at ran
    obtain ⟨start, same, reachedToo, readToo, ran⟩ := ran
    rw [reached] at reachedToo
    cases reachedToo
    rw [read] at readToo
    cases readToo
    have listed := kept before (entry :: rest) middle split reached
    have reachedNext : applyPatch resource (before ++ [entry]) (some schema) = .ok next :=
      applyPatch_concat_iff.mpr ⟨middle, operation, reached, read, ran⟩
    exact (PatchOperation.plural_apply_iff multi notSchemas listed ran).mp
      (kept _ rest next whole reachedNext)
  · intro shaped before
    induction before using List.reverseRecOn with
    | nil =>
        rintro rest middle _ reached
        rw [applyPatch_eq_ok_iff] at reached
        cases reached
        exact plural
    | append_singleton before entry ih =>
        intro rest middle split reached
        obtain ⟨start, operation, reachedStart, read, ran⟩ := applyPatch_concat_iff.mp reached
        rw [List.append_assoc, List.singleton_append] at split
        have listed := ih (entry :: rest) start split reachedStart
        exact (PatchOperation.plural_apply_iff multi notSchemas listed ran).mpr
          (shaped before entry rest operation start split reachedStart read)

end

/-- An element for a list that is null, and a value for its sub-attribute. -/
theorem plural_applyPatch_iff_emails :
    let resource : Members := [("userName", .str "a"), ("emails", .null)]
    let entries : List PatchEntry :=
      [.ready ⟨.add, some "emails", .obj [("value", .str "b")]⟩,
        .ready ⟨.replace, some "emails.type", .str "work"⟩]
    ResourceSchema.user.isMultiValued? "emails" none = some true ∧
      sameName "schemas" "emails" = false ∧ resource.Plural "emails" ∧
      ∃ result, applyPatch resource entries (some .user) = .ok result ∧
        ((∀ before rest middle, entries = before ++ rest →
            applyPatch resource before (some .user) = .ok middle → middle.Plural "emails") ↔
          ∀ before entry rest operation middle, entries = before ++ entry :: rest →
            applyPatch resource before (some .user) = .ok middle →
            entry.read before.length = .ok operation →
            ¬ operation.Reshapes .user "emails" middle) := by
  intro resource entries
  have multi : ResourceSchema.user.isMultiValued? "emails" none = some true := by decide +kernel
  have notSchemas : sameName "schemas" "emails" = false := by decide +kernel
  have plural : resource.Plural "emails" := plural_of_forall_mem (by decide +kernel)
  have applies : (applyPatch resource entries (some .user)).isOk = true := by decide +kernel
  obtain ⟨result, applied⟩ := exists_eq_ok_of_isOk applies
  exact ⟨multi, notSchemas, plural, result, applied,
    plural_applyPatch_iff multi notSchemas plural applied⟩

/-- Not every change request leaves lists: an addition without a path puts a single object there. -/
theorem not_plural_kept :
    ¬ ∀ (schema : ResourceSchema) (name : String) (resource result : Members)
        (entries : List PatchEntry), schema.isMultiValued? name none = some true →
      resource.Plural name → applyPatch resource entries (some schema) = .ok result →
      result.Plural name := by
  intro kept
  let resource : Members := [("userName", .str "a")]
  let entries : List PatchEntry :=
    [.ready ⟨.add, none, .obj [("emails", .obj [("value", .str "b")])]⟩]
  have put : ((applyPatch resource entries (some .user)).toOption.bind fun result =>
      (get? result "emails").map Json.isPlural) = some false := by decide +kernel
  obtain ⟨result, found, put⟩ := Option.bind_eq_some_iff.mp put
  obtain ⟨value, held, single⟩ := Option.map_eq_some_iff.mp put
  have plural := kept .user "emails" resource result entries (by decide +kernel)
    (plural_of_forall_mem (by decide +kernel)) (eq_ok_of_toOption found)
  have isPlural := plural "emails" value (sameName_refl _) held
  rw [single] at isPlural
  cases isPlural

end Scim
