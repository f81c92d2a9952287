import Scim.Proofs.Patch.Edits

/-!
# What merging members writes

The members of a value without a path are applied one by one, each with a check of its
own, except that an object under a URN is merged as a whole.  Under the URN of an
extension it is merged into the object of that extension; under the URN of the core
schema it is merged into the resource as it is, with no look at what may be changed.
-/

namespace Scim

open Members

/-! ## Fixed attributes -/

namespace ResourceSchema

variable {schema : ResourceSchema} {attr name : String} {uri : Option String}

/-- Whether a URN is that of the core schema; a path without one means it too. -/
def isCore (schema : ResourceSchema) (uri : Option String) : Bool :=
  uri.all (sameName schema.urn ·)

/-- The values of an object for a URN that are merged into the resource itself. -/
def merged (schema : ResourceSchema) (uri : String) (values : Members) : Members :=
  if sameName schema.urn uri then values else []

theorem isFixed_congr (same : sameName attr name = true) (sub : Option String) :
    schema.isFixed attr sub uri = schema.isFixed name sub uri := by
  have found (part : SchemaDef) : part.find? attr = part.find? name := by
    simp only [SchemaDef.find?, sameName_congr_right same]
  simp only [isFixed, mutability, attribute?, SchemaDef.lookup?, found]

/-- Under the URN of the core schema an attribute is the one without a URN. -/
theorem isFixed_core (core : schema.isCore uri = true) (sub : Option String) :
    schema.isFixed attr sub uri = schema.isFixed attr sub none := by
  cases uri with
  | none => rfl
  | some urn =>
      have same : sameName urn schema.urn = true := by
        rw [sameName_comm]
        exact core
      simp only [isFixed, mutability, attribute?, schemaFor?, same, if_true]

/-- What may be changed is not a spelling of what may not. -/
theorem differ_of_isFixed (fixed : schema.isFixed name none none = true)
    (free : schema.isFixed attr none none = false) : sameName attr name = false := by
  cases same : sameName attr name with
  | false => rfl
  | true =>
      rw [isFixed_congr same, fixed] at free
      cases free

end ResourceSchema

namespace Patch

variable {schema : ResourceSchema} {name attr uri : String} {path : AttributePath}
  {resource : Members}

theorem isFixed_of_checkMutable (attrEq : path.attr = some attr)
    (checked : checkMutable (some schema) path = .ok ()) :
    schema.isFixed attr none path.uri = false := by
  cases fixed : schema.isFixed attr none path.uri with
  | false => rfl
  | true => simp [checkMutable, attrEq, fixed, notModifiable, refuse, bind, Except.bind] at checked

/-! ## Homes of a path -/

/-- The home of a path: the resource for a path of the core schema, and otherwise the
object of an extension, under a spelling of its URN. -/
def HomeOf (schema : ResourceSchema) (uri : Option String) (home : Home) : Prop :=
  match home with
  | .core => schema.isCore uri = true
  | .extension key => schema.isCore uri = false ∧ ∃ urn, uri = some urn ∧ sameName key urn = true

theorem homeOf_homeFor {home : Home}
    (found : homeFor resource path (some schema) = .ok (some home)) :
    HomeOf schema path.uri home := by
  unfold homeFor at found
  cases uriEq : path.uri with
  | none =>
      rw [uriEq] at found
      cases found
      rfl
  | some urn =>
      rw [uriEq] at found
      obtain ⟨_, _, rest⟩ := bind_eq_ok_iff.mp found
      cases core : sameName schema.urn urn with
      | true =>
          simp only [Option.any_some, core, if_true] at rest
          cases rest
          exact core
      | false =>
          simp only [Option.any_some, core, Bool.false_eq_true, if_false, Option.isNone_some] at rest
          split at rest
          · next key _ keyEq _ =>
            cases rest
            exact ⟨core, urn, rfl, (key?_eq_some keyEq).2⟩
          · cases rest

theorem isCore_of_homeFor_none (found : homeFor resource path (some schema) = .ok none) :
    schema.isCore path.uri = false := by
  unfold homeFor at found
  cases uriEq : path.uri with
  | none =>
      rw [uriEq] at found
      cases found
  | some urn =>
      rw [uriEq] at found
      obtain ⟨_, _, rest⟩ := bind_eq_ok_iff.mp found
      cases core : sameName schema.urn urn with
      | true =>
          simp only [Option.any_some, core, if_true] at rest
          cases rest
      | false => exact core

/-- A home of a path with a URN that is no spelling of a name does not hold that name as
the key of an extension. -/
theorem HomeOf.key_differs {uri : Option String} {key : String}
    (homeOf : HomeOf schema uri (.extension key))
    (noUrn : ∀ urn, uri = some urn → sameName urn name = false) : sameName key name = false := by
  obtain ⟨_, urn, rfl, same⟩ := homeOf
  rw [sameName_congr same, noUrn urn rfl]

/-- An attribute that may be changed is not the fixed one in any home of its path. -/
theorem HomeOf.avoids {home : Home} (homeOf : HomeOf schema path.uri home)
    (fixed : schema.isFixed name none none = true) (attrEq : path.attr = some attr)
    (checked : checkMutable (some schema) path = .ok ())
    (noUrn : ∀ urn, path.uri = some urn → sameName urn name = false) : home.Avoids attr name := by
  cases home with
  | extension key => exact homeOf.key_differs noUrn
  | core =>
      have free := isFixed_of_checkMutable attrEq checked
      rw [ResourceSchema.isFixed_core homeOf] at free
      exact ResourceSchema.differ_of_isFixed fixed free

/-! ## Members of extensions -/

theorem keeps_setExtension {key : String} (differ : sameName key name = false)
    (schema : Option ResourceSchema) (uri : String) (values : Members) :
    Keeps name (setExtension schema uri (.extension key) values) := by
  induction values with
  | nil => exact Keeps.pure trivial
  | cons member rest ih =>
      have avoids : (Home.extension key).Avoids member.1 name := differ
      refine Keeps.bind (Keeps.updateHome avoids ?_) fun _ _ => ih
      intro members changed memberDiffer edited
      exact spellings_setChecked memberDiffer edited

/-! ## Declaring URNs -/

section

variable (notSchemas : sameName "schemas" name = false)
include notSchemas

theorem spellings_setSchemas (value : Json) :
    spellings (Members.set resource "schemas" value) name = spellings resource name := by
  rw [spellings_set, notSchemas, if_neg Bool.false_ne_true]

theorem keeps_declareSchema (uri : String) : Keeps name (declareSchema uri) := by
  refine Keeps.bind (P := fun _ => True) (Writes.of_modify fun resource => ?_) fun _ _ =>
    Keeps.update fun resource changed stepEq => ?_
  · rw [merge_nil]
    split
    · exact spellings_setSchemas notSchemas _
    · rfl
  · split at stepEq
    · obtain ⟨held, _, rest⟩ := bind_eq_ok_iff.mp stepEq
      split at rest
      · cases rest
        rfl
      · cases rest
        exact spellings_setSchemas notSchemas _
    · split at stepEq
      · cases stepEq
        rfl
      · cases stepEq
    · split at stepEq
      · cases stepEq
        rfl
      · cases stepEq
    · cases stepEq

theorem keeps_declareAll (urns : List String) : Keeps name (declareAll urns) := by
  induction urns with
  | nil => exact Keeps.pure trivial
  | cons urn rest ih => exact Keeps.bind (keeps_declareSchema notSchemas urn) fun _ _ => ih

/-- Finding or creating the home of a path keeps what is no spelling of its URN. -/
theorem keeps_ensureHome (noUrn : ∀ urn, path.uri = some urn → sameName urn name = false) :
    Keeps name (ensureHome (some schema) path) (HomeOf schema path.uri) := by
  refine Keeps.bind (P := fun home? => (∀ home, home? = some home → HomeOf schema path.uri home) ∧
    (home? = none → schema.isCore path.uri = false)) (Keeps.examine fun resource home? found => ?_) ?_
  · constructor
    · rintro home rfl
      exact homeOf_homeFor found
    · rintro rfl
      exact isCore_of_homeFor_none found
  · rintro home? ⟨homeOf, notCore⟩
    cases home? with
    | some home => exact Keeps.pure (homeOf home rfl)
    | none =>
        cases uriEq : path.uri with
        | none =>
            rw [uriEq] at notCore
            cases notCore rfl
        | some urn =>
            dsimp only
            rw [Option.getD_some]
            rw [uriEq] at notCore
            refine Keeps.bind (P := fun _ => True) (Keeps.get fun _ => trivial) fun before _ =>
              Keeps.bind (P := fun _ => True) (Writes.of_modify fun resource => ?_) fun _ _ =>
                Keeps.bind (keeps_declareSchema notSchemas urn) fun _ _ => Keeps.pure ?_
            · rw [merge_nil, spellings_setAttr_of_differ resource (noUrn urn uriEq)]
            · refine ⟨notCore rfl, urn, rfl, ?_⟩
              cases found : key? before urn with
              | none => exact sameName_refl urn
              | some key => exact (key?_eq_some found).2

/-! ## Merging whole extensions -/

/-- Merging an object under a URN merges it into the resource if the URN is that of the
core schema. -/
theorem writes_mergeExtension (noUrn : sameName uri name = false) (values : Members) :
    Writes name (schema.merged uri values) (mergeExtension (some schema) uri values)
      fun _ => True := by
  refine Keeps.bind (Keeps.ofExcept (P := fun _ => True) fun _ _ => trivial) fun _ _ =>
    Keeps.bind (keeps_ensureHome notSchemas ?_) fun home homeOf => ?_
  · rintro _ ⟨⟩
    exact noUrn
  · cases home with
    | core =>
        have core : sameName schema.urn uri = true := homeOf
        rw [ResourceSchema.merged, core, if_pos rfl]
        exact Writes.of_modify fun resource => rfl
    | extension key =>
        have notCore : sameName schema.urn uri = false := homeOf.1
        rw [ResourceSchema.merged, notCore, if_neg Bool.false_ne_true]
        refine keeps_setExtension (homeOf.key_differs ?_) (some schema) uri values
        rintro _ ⟨⟩
        exact noUrn

theorem writes_mergeWhole (noUrn : sameName uri name = false) (value : Json) :
    Writes name (schema.merged uri (value.members?.getD [])) (mergeWhole (some schema) uri value)
      fun _ => True := by
  refine Keeps.bind (P := fun values => value.members?.getD [] = values)
    (Keeps.ofExcept fun values found => ?_) ?_
  · cases value with
    | obj members =>
        cases found
        rfl
    | _ => cases found
  · rintro values rfl
    exact writes_mergeExtension notSchemas noUrn _

end

/-! ## Values without a path -/

theorem eq_of_rootMembers {op : PatchOp} {value : Json} {values : Members}
    (found : rootMembers op value = .ok values) : value = .obj values := by
  unfold rootMembers at found
  split at found
  · cases found
  · cases found
    rfl
  · cases found

/-- Whether a member of a value without a path stands for a whole extension. -/
def isExtensionMember (key : String) (value : Json) : Bool :=
  Text.lower key ≠ "schemas" && key.toList.contains ':' && value.isObj

/-- What a member of a value without a path merges into the resource itself. -/
def memberMerged (schema : ResourceSchema) (key : String) (value : Json) : Members :=
  if isExtensionMember key value then schema.merged key (value.members?.getD []) else []

section

variable (notSchemas : sameName "schemas" name = false)
  (fixed : schema.isFixed name none none = true)
include notSchemas fixed

theorem writes_mergeMember {key : String} {value : Json}
    (noUrn : isExtensionMember key value = true → sameName key name = false) (op : PatchOp) :
    Writes name (memberMerged schema key value) (mergeMember (some schema) op key value)
      fun _ => True := by
  unfold mergeMember memberMerged
  by_cases isSchemas : Text.lower key = "schemas"
  · have noExtension : isExtensionMember key value = false := by simp [isExtensionMember, isSchemas]
    rw [if_pos isSchemas, noExtension, if_neg Bool.false_ne_true]
    exact Keeps.bind (Keeps.ofExcept (P := fun _ => True) fun _ _ => trivial) fun urns _ =>
      keeps_declareAll notSchemas urns
  · rw [if_neg isSchemas]
    have extension : isExtensionMember key value = (key.toList.contains ':' && value.isObj) := by
      simp [isExtensionMember, isSchemas]
    rw [← extension]
    cases isExtension : isExtensionMember key value with
    | true =>
        rw [if_pos rfl, if_pos rfl]
        exact writes_mergeExtension notSchemas (noUrn isExtension) _
    | false =>
        rw [if_neg Bool.false_ne_true, if_neg Bool.false_ne_true]
        cases keyFixed : schema.isFixed key none none with
        | true =>
            rw [Option.any_some, keyFixed, if_pos rfl]
            refine Keeps.bind (P := fun _ => True) (Keeps.get fun _ => trivial) fun resource _ => ?_
            split
            · exact Keeps.pure trivial
            · exact Keeps.ofExcept fun _ _ => trivial
        | false =>
            have differ := ResourceSchema.differ_of_isFixed fixed keyFixed
            rw [Option.any_some, keyFixed, if_neg Bool.false_ne_true]
            refine Keeps.update fun resource changed stepEq => ?_
            split at stepEq
            · cases stepEq
              exact spellings_append differ value
            · exact spellings_setChecked differ stepEq

/-- What the members of a value without a path merge into the resource itself. -/
theorem writes_mergeMembers {values : Members}
    (noUrn : ∀ member ∈ values, isExtensionMember member.1 member.2 = true →
      sameName member.1 name = false) (op : PatchOp) :
    Writes name (values.flatMap fun member => memberMerged schema member.1 member.2)
      (mergeMembers (some schema) op values) fun _ => True := by
  induction values with
  | nil => exact Keeps.pure trivial
  | cons member rest ih =>
      rw [List.flatMap_cons]
      refine Writes.bind (writes_mergeMember notSchemas fixed (noUrn member List.mem_cons_self) op)
        fun _ _ => ih fun other held => noUrn other (List.mem_cons_of_mem _ held)

end

end Patch

end Scim
