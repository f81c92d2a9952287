import Scim.Proofs.Error.Refusing
import Scim.Proofs.Patch.Requests

/-!
# What changes refuse

A change request that cannot be read, a value of the wrong type, an attribute that may not be
changed and a filter that selects nothing are each refused with an error of its own kind.
-/

namespace Scim

variable {α : Type}

/-! ## Change requests -/

namespace PatchOperation

theorem native_malformed (index : Int) (problem : String) :
    FailsOnly Failure.IsNative (malformed index problem : Except Failure α) := .refuse_of _ _

theorem native_ofJson (data : Json) (index : Int) :
    FailsOnly Failure.IsNative (ofJson data index) := by
  have complete (op : PatchOp) (members : Members) (path : Option String) :
      FailsOnly Failure.IsNative (do
        if op = .remove then
          if path.isNone then malformed index "'remove' operation requires 'path'"
        else if (Members.key? members "value").isNone then
          malformed index ("'" ++ op.word ++ "' operation requires 'value'")
        return (⟨op, path, Members.attr members "value"⟩ : PatchOperation)) := by
    dsimp only
    split <;> exact .checked (native_malformed _ _) (.ok _)
  unfold ofJson
  split
  · split
    · split
      · dsimp only
        split
        · exact complete _ _ _
        · exact complete _ _ _
        · exact complete _ _ _
        · exact .bind (native_malformed _ _) fun path _ => complete _ _ path
      · exact native_malformed _ _
    · exact native_malformed _ _
  · exact native_malformed _ _

theorem native_ofItems (index : Int) (items : List Json) :
    FailsOnly Failure.IsNative (ofItems index items) := by
  induction items generalizing index with
  | nil => exact .ok _
  | cons item rest ih =>
      refine .bind (native_ofJson item index) fun operation _ => ?_
      exact .bind (ih _) fun _ _ => .ok _

theorem native_ofRequest (body : Json) : FailsOnly Failure.IsNative (ofRequest body) := by
  unfold ofRequest
  split
  · extract_lets declared
    split
    · exact .refuse_of _ _
    · split
      · exact native_ofItems _ _
      · exact .refuse_of _ _
  · exact .refuse_of _ _

end PatchOperation

theorem PatchEntry.native_read (index : Int) (entry : PatchEntry) :
    FailsOnly Failure.IsNative (entry.read index) := by
  cases entry with
  | ready operation => exact .ok operation
  | data value => exact PatchOperation.native_ofJson value index

theorem PatchEntry.native_ofRequest (request : Json) :
    FailsOnly Failure.IsNative (PatchEntry.ofRequest request) := by
  unfold PatchEntry.ofRequest
  split
  · exact (PatchOperation.native_ofRequest _).map _
  · exact .ok _
  · exact .ok _
  · exact .ok _

namespace Patch

variable (schema : Option ResourceSchema)

/-! Checks of values and of what may be changed. -/

theorem native_notModifiable (attr : String) :
    FailsOnly Failure.IsNative (notModifiable attr : Except Failure α) := .refuse_of _ _

theorem native_checkMutable (path : AttributePath) :
    FailsOnly Failure.IsNative (checkMutable schema path) := by
  unfold checkMutable
  split
  · refine .checked (native_notModifiable _) ?_
    -- behind the check of the attribute comes that of its sub-attribute, if it has one
    split
    · exact .ok _
    · exact .ok _
    · split
      · exact native_notModifiable _
      · exact .ok _
  · exact .ok _

theorem native_typeError (name wanted : String) :
    FailsOnly Failure.IsNative (typeError name wanted : Except Failure α) := .refuse_of _ _

theorem native_coerce (attr : String) (sub uri : Option String) (value : Json) :
    FailsOnly Failure.IsNative (coerce schema attr sub uri value) := by
  unfold coerce
  extract_lets name
  split
  · exact .ok _
  · split
    · split
      · exact .ok _
      · split
        · exact .ok _
        · split
          · exact .ok _
          · exact native_typeError _ _
      · exact native_typeError _ _
    · split
      · exact .ok _
      · exact native_typeError _ _
    · split
      · split
        · split
          · exact .refuse_of _ _
          · exact .ok _
        · exact native_typeError _ _
      · exact .ok _
    · exact .ok _

theorem native_setChecked (uri : Option String) (members : Members) (attr : String) (value : Json) :
    FailsOnly Failure.IsNative (setChecked schema uri members attr value) :=
  .bind (native_coerce schema _ _ _ _) fun _ _ => .ok _

theorem native_putSingle (uri : Option String) (members : Members) (attr : String) (value : Json) :
    FailsOnly Failure.IsNative (putSingle schema uri members attr value) := by
  unfold putSingle
  split
  · exact .ok _
  · exact native_setChecked schema _ _ _ _

theorem native_setSub (path : AttributePath) (attr sub : String) (merge : Bool) (value : Json)
    (members : Members) :
    FailsOnly Failure.IsNative (setSub schema path attr sub merge value members) := by
  refine .bind (native_coerce schema _ _ _ _) fun value _ => ?_
  split
  · exact .ok _
  · exact .ok _
  · exact .ok _
  · exact .refuse_of _ _

theorem native_restrictedList (members : Members) (attr : String) (path : AttributePath) :
    FailsOnly Failure.IsNative (restrictedList members attr path) := by
  unfold restrictedList
  split
  · exact .ok _
  · exact .ok _
  · exact .refuse_of _ _

theorem native_checkExtension (uri : String) :
    FailsOnly Failure.IsNative (checkExtension schema uri) := by
  unfold checkExtension
  split
  · exact .refuse_of _ _
  · exact .ok _

theorem native_extensionMembers (uri : String) (value : Json) :
    FailsOnly Failure.IsNative (extensionMembers uri value) := by
  unfold extensionMembers
  split
  · exact .ok _
  · exact .refuse_of _ _

theorem native_listedUrns (value : Json) : FailsOnly Failure.IsNative (listedUrns value) := by
  unfold listedUrns
  dsimp only
  split
  · exact .ok _
  · exact .refuse_of _ _

theorem native_rootMembers (op : PatchOp) (value : Json) :
    FailsOnly Failure.IsNative (rootMembers op value) := by
  unfold rootMembers
  split
  · exact .refuse_of _ _
  · exact .ok _
  · exact .refuse_of _ _

theorem native_noMatch (path : AttributePath) :
    FailsOnly Failure.IsNative (noMatch path : Except Failure α) := .refuse_of _ _

/-! The steps of a change. -/

theorem native_declareSchema (uri : String) : (declareSchema uri).FailsOnly Failure.IsNative :=
  fun state => (failsOnly_declareSchema uri state).mono fun _ crash => crash.isFault.isNative

theorem native_ensureHome (path : AttributePath) :
    (ensureHome schema path).FailsOnly Failure.IsNative := by
  refine .bind (.examine fun resource => native_homeFor resource path schema) fun _ home _ _ => ?_
  split
  · exact .pure _
  · refine .bind (.of_ok fun resource => ⟨resource, rfl⟩) fun _ resource _ _ => ?_
    refine .bind (.change _) fun _ _ _ _ => ?_
    exact .bind (native_declareSchema _) fun _ _ _ _ => .pure _

theorem native_updateHome (home : Home) {step : Members → Except Failure Members}
    (fails : ∀ members, FailsOnly Failure.IsNative (step members)) :
    (updateHome home step).FailsOnly Failure.IsNative :=
  .update fun _ => .bind (fails _) fun _ _ => .ok _

theorem native_setExtension (uri : String) (home : Home) (values : Members) :
    (setExtension schema uri home values).FailsOnly Failure.IsNative := by
  induction values with
  | nil => exact .pure ()
  | cons head rest ih =>
      refine .bind (native_updateHome home fun members => ?_) fun _ _ _ _ => ih
      exact native_setChecked schema _ members _ _

theorem native_mergeExtension (uri : String) (values : Members) :
    (mergeExtension schema uri values).FailsOnly Failure.IsNative := by
  refine .bind (.ofExcept (native_checkExtension schema uri)) fun _ _ _ _ => ?_
  refine .bind (native_ensureHome schema _) fun _ home _ _ => ?_
  split
  · exact .change _
  · exact native_setExtension schema uri home values

theorem native_mergeWhole (uri : String) (value : Json) :
    (mergeWhole schema uri value).FailsOnly Failure.IsNative :=
  .bind (.ofExcept (native_extensionMembers uri value)) fun _ values _ _ =>
    native_mergeExtension schema uri values

theorem native_declareAll (uris : List String) :
    (declareAll uris).FailsOnly Failure.IsNative := by
  induction uris with
  | nil => exact .pure ()
  | cons uri rest ih => exact .bind (native_declareSchema uri) fun _ _ _ _ => ih

theorem native_mergeMember (op : PatchOp) (key : String) (value : Json) :
    (mergeMember schema op key value).FailsOnly Failure.IsNative := by
  unfold mergeMember
  split
  · exact .bind (.ofExcept (native_listedUrns value)) fun _ uris _ _ => native_declareAll uris
  · split
    · exact native_mergeExtension schema key _
    · split
      · refine .bind (.of_ok fun resource => ⟨resource, rfl⟩) fun _ resource _ _ => ?_
        split
        · exact .pure ()
        · exact .ofExcept (native_notModifiable _)
      · refine .update fun resource => ?_
        split
        · exact .ok _
        · exact native_setChecked schema _ _ _ _

theorem native_mergeMembers (op : PatchOp) (values : Members) :
    (mergeMembers schema op values).FailsOnly Failure.IsNative := by
  induction values with
  | nil => exact .pure ()
  | cons head rest ih => exact .bind (native_mergeMember schema op _ _) fun _ _ _ _ => ih

theorem native_mergeRoot (op : PatchOp) (value : Json) :
    (mergeRoot schema op value).FailsOnly Failure.IsNative :=
  .bind (.ofExcept (native_rootMembers op value)) fun _ values _ _ =>
    native_mergeMembers schema op values

theorem native_selected (path : AttributePath) (attr : String) (home : Home) (resource : Members) :
    FailsOnly Failure.IsNative (selected schema path attr home resource) := by
  refine .bind (native_restrictedList _ _ _) fun list _ => ?_
  split
  · exact native_resolve _ _ _
  · exact .ok _

theorem native_setSubAt (path : AttributePath) (attr sub : String) (value : Json)
    (locations : List Location) (resource : Members) :
    FailsOnly Failure.IsNative (setSubAt schema path attr sub value locations resource) :=
  .bind (native_coerce schema _ _ _ _) fun _ _ => .ok _

theorem native_add (path : AttributePath) (value : Json) :
    (add schema path value).FailsOnly Failure.IsNative := by
  refine .bind (native_ensureHome schema path) fun _ home _ _ => ?_
  split
  · exact native_mergeWhole schema _ value
  · split
    · refine .update fun resource => .bind (native_selected schema _ _ _ _) fun found _ => ?_
      split
      · exact native_noMatch path
      · exact native_setSubAt schema _ _ _ _ _ _
    · refine .update fun resource => .bind (native_selected schema _ _ _ _) fun found _ => ?_
      split <;> exact .ok _
    · exact native_updateHome home fun members => native_setSub schema _ _ _ _ _ members
    · refine native_updateHome home fun members => ?_
      split
      · exact .ok _
      · exact native_putSingle schema _ members _ _

theorem native_replace (path : AttributePath) (value : Json) :
    (replace schema path value).FailsOnly Failure.IsNative := by
  refine .bind (native_ensureHome schema path) fun _ home _ _ => ?_
  split
  · exact native_mergeWhole schema _ value
  · split
    · refine .update fun resource => .bind (native_selected schema _ _ _ _) fun found _ => ?_
      split
      · exact native_noMatch path
      · exact native_setSubAt schema _ _ _ _ _ _
      · exact .ok _
    · exact native_updateHome home fun members => native_setSub schema _ _ _ _ _ members
    · refine native_updateHome home fun members => ?_
      split
      · exact .ok _
      · exact native_putSingle schema _ members _ _

theorem native_removeSelected (path : AttributePath) (attr : String) (home : Home)
    (resource : Members) :
    FailsOnly Failure.IsNative (removeSelected schema path attr home resource) := by
  refine .bind (native_restrictedList _ _ _) fun _ _ => ?_
  refine .bind (native_resolve _ _ _) fun locations _ => ?_
  split <;> exact .ok _

theorem native_removeExtension (uri : String) :
    (removeExtension uri).FailsOnly Failure.IsNative := by
  refine .bind (.change _) fun _ _ _ _ => .update fun resource => ?_
  refine .bind (Json.failsOnly_listed _).native fun urns _ => ?_
  split
  · exact .ok _
  · exact .native (.failWith _)

theorem native_remove (path : AttributePath) (value : Json) :
    (remove schema path value).FailsOnly Failure.IsNative := by
  refine .bind (.examine fun resource => native_homeFor resource path schema) fun _ home _ _ => ?_
  split
  · exact .pure ()
  · split
    · exact native_removeExtension _
    · refine .update fun resource => ?_
      split
      · exact .ok _
      · split
        · exact native_removeSelected schema _ _ _ _
        · exact .ok _
        · exact .ok _

/-! Changes of what is no object. -/

theorem failsOnly_probeSet (value : Json) (attr : String) :
    FailsOnly Failure.IsFault (probeSet value attr) :=
  .bind (value.failsOnly_attrOf attr) fun _ _ => .failWith _

theorem failsOnly_probeHome (uri : Option String) (value : Json) :
    FailsOnly Failure.IsFault (probeHome schema uri value) := by
  refine .bind (failsOnly_isHome value uri schema) fun found _ => ?_
  split
  · exact failsOnly_probeSet value _
  · exact .ok _

theorem native_probeExtension (uri : String) (members : Members) (value : Json) :
    FailsOnly Failure.IsNative (probeExtension schema uri members value) := by
  refine .bind (native_checkExtension schema uri) fun _ _ => ?_
  refine .bind (failsOnly_probeHome schema _ value).native fun _ _ => ?_
  cases members with
  | nil => exact .ok _
  | cons head rest => exact (failsOnly_probeSet value _).native

theorem native_probeMember (op : PatchOp) (key : String) (item value : Json) :
    FailsOnly Failure.IsNative (probeMember schema op key item value) := by
  have set : FailsOnly Failure.IsNative (probeSet value key) :=
    (failsOnly_probeSet value key).native
  unfold probeMember
  split
  · refine .bind (native_listedUrns item) fun urns _ => ?_
    split
    · exact .native (.failWith _)
    · exact .ok _
  · split
    · exact native_probeExtension schema key _ value
    · split
      · refine .bind (value.failsOnly_attrOf key).native fun current _ => ?_
        split
        · exact native_notModifiable _
        · exact .ok _
      · -- the two places that the current value can come from join here
        have checked (current : Json) : FailsOnly Failure.IsNative (do
            if !(op = .add && item.isArr && isMultiValued schema key none current item) then
              let _ ← coerce schema key none none item
            probeSet value key) := by
          dsimp only
          split
          · exact .bind (native_coerce schema _ _ _ _) fun _ _ => set
          · exact set
        dsimp only
        split
        · exact .bind (value.failsOnly_attrOf key).native fun current _ => checked current
        · exact checked .null

theorem native_probeMembers (op : PatchOp) (value : Json) (members : Members) :
    FailsOnly Failure.IsNative (probeMembers schema op value members) := by
  induction members with
  | nil => exact .ok _
  | cons head rest ih => exact .bind (native_probeMember schema op _ _ value) fun _ _ => ih

theorem native_probeAttr (op : PatchOp) (path : AttributePath) (attr : String)
    (item value : Json) :
    FailsOnly Failure.IsNative (probeAttr schema op path attr item value) := by
  have set : FailsOnly Failure.IsNative (probeSet value attr) :=
    (failsOnly_probeSet value attr).native
  refine .bind (value.failsOnly_attrOf attr).native fun current _ => ?_
  split
  · exact native_noMatch path
  · split
    · exact native_noMatch path
    · exact set
  · exact .bind (native_coerce schema _ _ _ _) fun _ _ => set
  · dsimp only
    split
    · exact .bind (native_coerce schema _ _ _ _) fun _ _ => set
    · exact set

theorem native_probePut (op : PatchOp) (path : AttributePath) (item value : Json) :
    FailsOnly Failure.IsNative (probePut schema op path item value) := by
  refine .bind (failsOnly_probeHome schema _ value).native fun _ _ => ?_
  split
  · exact .bind (native_extensionMembers _ item) fun members _ =>
      native_probeExtension schema _ members value
  · exact native_probeAttr schema op path _ item value

theorem failsOnly_probeRemove (path : AttributePath) (value : Json) :
    FailsOnly Failure.IsFault (probeRemove schema path value) := by
  refine .bind (failsOnly_isHome value _ schema) fun found _ => ?_
  split
  · split
    · exact .bind (value.failsOnly_attrOf _) fun _ _ => .ok _
    · exact .bind (value.failsOnly_attrOf _) fun _ _ => .failWith _
  · exact .ok _

end Patch

namespace PatchOperation

variable (operation : PatchOperation) (schema : Option ResourceSchema)

theorem native_target (text : String) : FailsOnly Failure.IsNative (target schema text) :=
  .bind (PathOf.native_parse text) fun path _ =>
    .bind (Patch.native_checkMutable schema path) fun _ _ => .ok _

theorem native_apply : (operation.apply schema).FailsOnly Failure.IsNative := by
  unfold apply
  split
  · exact Patch.native_mergeRoot schema _ _
  · refine .bind (.ofExcept (native_target schema _)) fun _ path _ _ => ?_
    split
    · exact Patch.native_add schema path _
    · exact Patch.native_replace schema path _
    · exact Patch.native_remove schema path _

theorem native_probe (value : Json) :
    FailsOnly Failure.IsNative (operation.probe schema value) := by
  unfold probe
  split
  · exact .bind (Patch.native_rootMembers _ _) fun members _ =>
      Patch.native_probeMembers schema _ value members
  · refine .bind (native_target schema _) fun path _ => ?_
    split
    · exact (Patch.failsOnly_probeRemove schema path value).native
    · exact Patch.native_probePut schema _ path _ value

end PatchOperation

section

variable (entries : List PatchEntry) (schema : Option ResourceSchema)

theorem native_applyEntries (index : Int) :
    (applyEntries schema index entries).FailsOnly Failure.IsNative := by
  induction entries generalizing index with
  | nil => exact .pure ()
  | cons entry rest ih =>
      refine .bind (.ofExcept (entry.native_read index)) fun _ operation _ _ => ?_
      exact .bind (operation.native_apply schema) fun _ _ _ _ => ih _

theorem failsOnly_effectiveSchema (resource : Json) :
    FailsOnly Failure.IsFault (effectiveSchema resource schema) := by
  unfold effectiveSchema
  split
  · exact .ok _
  · cases resource with
    | obj members => exact Members.failsOnly_schema? members
    | _ => exact .failWith _

theorem native_applyPatch (resource : Members) :
    FailsOnly Failure.IsNative (applyPatch resource entries schema) := by
  refine .bind (failsOnly_effectiveSchema schema _).native fun schema _ => ?_
  have applied := native_applyEntries entries schema 0 resource
  split
  · exact .ok _
  · next failure _ ran => exact .error (applied failure (by rw [ran]))

theorem native_probeEntries (value : Json) (index : Int) :
    FailsOnly Failure.IsNative (probeEntries schema value index entries) := by
  induction entries generalizing index with
  | nil => exact .ok _
  | cons entry rest ih =>
      refine .bind (entry.native_read index) fun operation _ => ?_
      exact .bind (operation.native_probe schema value) fun _ _ => ih _

theorem Json.native_applyPatch (value : Json) :
    FailsOnly Failure.IsNative (value.applyPatch entries schema) := by
  unfold Json.applyPatch
  split
  · exact .bind (Scim.native_applyPatch entries schema _) fun _ _ => .ok _
  · refine .bind (failsOnly_effectiveSchema schema _).native fun schema _ => ?_
    exact .bind (native_probeEntries entries schema value 0) fun _ _ => .ok _

end

end Scim
