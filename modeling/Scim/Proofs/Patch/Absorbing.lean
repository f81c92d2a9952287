import Scim.Proofs.Patch.Homes
import Scim.Proofs.Patch.Merging
import Scim.Proofs.Patch.Naming
import Scim.Proofs.Resource.Agreement

/-!
# What a resource absorbs

The members of a value without a path are checked and applied one by one.  Where all of them
pass, the resource has absorbed them: the checks aside, each member sets one attribute from the
value that it had, or is merged into the resource if it stands for the whole core schema.  What
is declared as a URN besides is of no concern to the other attributes.
-/

namespace Scim

open Members

namespace Patch

variable {schema : ResourceSchema} {path : AttributePath} {name key uri : String} {home : Home}
  {op : PatchOp} {value : Json} {values resource middle after : Members}

/-! ## Values of their stated types -/

/-- The value of its stated type that stands for a value, or the value itself if there is none. -/
def typed (schema : ResourceSchema) (attr : String) (uri : Option String) (value : Json) : Json :=
  (coerce (some schema) attr none uri value).toOption.getD value

/-! ## Absorbing members -/

theorem sameName_schemas_iff : sameName "schemas" key = true ↔ Text.lower key = "schemas" := by
  have lowered : Text.lower "schemas" = "schemas" := by decide +kernel
  rw [sameName_iff, lowered, eq_comm]

/-- The value of an attribute after a member for it was applied, by the value before. -/
def taken (schema : ResourceSchema) (op : PatchOp) (key : String) (value current : Json) : Json :=
  if op = .add && value.isArr && isMultiValued (some schema) key none current value then
    .arr (addMissing (itemsOf current) (asItems value))
  else typed schema key none value

/-- What is kept for an extension after members for it were applied, by what was kept before. -/
def joined (schema : ResourceSchema) (uri : String) (values : Members) (current : Json) : Json :=
  .obj (merge ((current.members?).getD [])
    (values.map fun member => (member.1, typed schema member.1 (some uri) member.2)))

/-- A resource after a member of a value without a path was applied, but for declared URNs. -/
def absorb (schema : ResourceSchema) (op : PatchOp) (resource : Members) (member : String × Json) :
    Members :=
  let (key, value) := member
  if Text.lower key = "schemas" then resource
  else if key.toList.contains ':' && value.isObj then
    let values := (value.members?).getD []
    if sameName schema.urn key then merge resource values
    else setAttr resource key (joined schema key values (Members.attr resource key))
  else if schema.isFixed key none none then resource
  else setAttr resource key (taken schema op key value (Members.attr resource key))

/-! ## The object of an extension -/

/-- An extension that is ensured has the object that was kept under its URN, or an empty one. -/
theorem ensureHome_extension (uriEq : path.uri = some uri)
    (notCore : sameName schema.urn uri = false) (notSchemas : sameName "schemas" uri = false)
    (ran : (ensureHome (some schema) path).run resource = (.ok home, middle)) :
    let kept := ((Members.attr resource uri).members?).getD []
    ∃ key, home = .extension key ∧ key? middle uri = some key ∧
      get? middle key = some (.obj kept) ∧ ∀ name, sameName "schemas" name = false →
        Agree id name middle (setAttr resource uri (.obj kept)) := by
  intro kept
  have core : isCoreHome (some schema) resource (some uri) = false := notCore
  rcases ensureHome_cases ran with ⟨found, rfl⟩ | ⟨_, isUri, found, rfl, declares⟩
  · have is := eq_of_homeFor uriEq found
    rw [core, if_neg Bool.false_ne_true] at is
    split at is
    · next object =>
      cases is
      obtain ⟨keyEq, members, stored⟩ := isObj_of_attr object
      have held : attr? middle uri = some (.obj members) := by rw [← get?_place, stored]
      have same : kept = members := by
        change ((Members.attr middle uri).members?).getD [] = members
        rw [Members.attr, held]
        rfl
      refine ⟨_, rfl, keyEq, by rw [same, stored], fun name _ => ?_⟩
      rw [same, setAttr_of_attr? held]
      exact .refl _ _ _
    · cases is
  · cases uriEq.symm.trans isUri
    have is := eq_of_homeFor uriEq found
    rw [core, if_neg Bool.false_ne_true] at is
    have nothing : kept = [] := by
      change ((Members.attr resource uri).members?).getD [] = []
      cases held : Members.attr resource uri with
      | obj members =>
          rw [held] at is
          cases is
      | _ => rfl
    have agrees (name : String) (other : sameName "schemas" name = false) :
        Agree id name middle (setAttr resource uri (.obj [])) :=
      .of_spellings (keeps_declareSchema other uri _ _ _ declares).1
    have keyEq : key? middle uri = some (place resource uri) := by
      rw [(agrees uri notSchemas).keys uri (sameName_refl uri), key?_setAttr_self]
      rfl
    rw [nothing]
    exact ⟨_, rfl, keyEq, (created_of_declared declares).2, agrees⟩

/-- Changing the object of an extension sets it under its URN. -/
theorem agree_updateHome {kept : Members} (keyEq : key? middle uri = some key)
    (stored : get? middle key = some (.obj kept)) {step : Members → Except Failure Members}
    (ran : (updateHome (.extension key) step).run middle = (.ok (), after)) (name : String) :
    ∃ changed, step kept = .ok changed ∧ key? after uri = some key ∧
      get? after key = some (.obj changed) ∧
        Agree id name after (setAttr middle uri (.obj changed)) := by
  have own : Home.members (.extension key) middle = kept := by rw [Home.members, stored]
  rw [updateHome, Action.run_update, own] at ran
  cases stepEq : step kept with
  | error failure =>
      rw [stepEq] at ran
      cases ran
  | ok changed =>
      rw [stepEq] at ran
      cases ran
      refine ⟨changed, rfl, ?_, ?_, ?_⟩
      · rw [← keyEq, Home.update, key?_eq, key?_eq, names_modify]
      · rw [Home.update, get?_modify, if_pos rfl, stored]
        rfl
      · unfold Home.update
        exact .of_modify keyEq stored _

theorem typed_of_coerce {attr : String} {uri : Option String} {result : Json}
    (checked : coerce (some schema) attr none uri value = .ok result) :
    typed schema attr uri value = result := by
  rw [typed, checked]
  rfl

/-- Setting members of an extension merges them, in their stated types, into its object. -/
theorem agree_setExtension {kept : Members} (keyEq : key? middle uri = some key)
    (stored : get? middle key = some (.obj kept))
    (ran : (setExtension (some schema) uri (.extension key) values).run middle = (.ok (), after))
    (name : String) :
    Agree id name after (setAttr middle uri (joined schema uri values (.obj kept))) := by
  induction values generalizing middle kept with
  | nil =>
      cases ran
      have held : attr? after uri = some (.obj kept) := by
        rw [attr?, keyEq, Option.bind_some, stored]
      have same : joined schema uri [] (.obj kept) = .obj kept := rfl
      rw [same, setAttr_of_attr? held]
      exact .refl _ _ _
  | cons member rest ih =>
      obtain ⟨attr, value⟩ := member
      obtain ⟨_, next, updated, ran⟩ := Action.run_bind_eq_ok_iff.mp ran
      obtain ⟨changed, stepEq, nextKey, nextStored, agrees⟩ :=
        agree_updateHome keyEq stored updated name
      obtain ⟨result, checked, setEq⟩ := bind_eq_ok_iff.mp stepEq
      cases setEq
      have same : joined schema uri rest (.obj (setAttr kept attr result)) =
          joined schema uri ((attr, value) :: rest) (.obj kept) := by
        rw [← typed_of_coerce checked]
        rfl
      refine (ih nextKey nextStored ran).trans ?_
      rw [same]
      refine (agrees.setAttr uri rfl).trans ?_
      rw [setAttr_setAttr]
      exact .refl _ _ _

/-! ## Members that pass -/

/-- The home of the whole core schema is the resource itself. -/
theorem ensureHome_core (uriEq : path.uri = some uri) (core : sameName schema.urn uri = true)
    (ran : (ensureHome (some schema) path).run resource = (.ok home, middle)) :
    home = .core ∧ middle = resource := by
  have isCore : isCoreHome (some schema) resource (some uri) = true := core
  rcases ensureHome_cases ran with ⟨found, rfl⟩ | ⟨_, _, found, _⟩
  · have is := eq_of_homeFor uriEq found
    rw [isCore, if_pos rfl] at is
    cases is
    exact ⟨rfl, rfl⟩
  · have is := eq_of_homeFor uriEq found
    rw [isCore] at is
    cases is

theorem mergeExtension_core (core : sameName schema.urn uri = true)
    (ran : (mergeExtension (some schema) uri values).run resource = (.ok (), after)) :
    after = merge resource values := by
  obtain ⟨_, start, checked, ran⟩ := Action.run_bind_eq_ok_iff.mp ran
  obtain ⟨_, rfl⟩ := Prod.mk.inj checked
  obtain ⟨home, middle, ensured, merged⟩ := Action.run_bind_eq_ok_iff.mp ran
  obtain ⟨rfl, rfl⟩ := ensureHome_core rfl core ensured
  cases merged
  rfl

theorem agree_mergeExtension (isUrn : sameName "schemas" uri = false)
    (notSchemas : sameName "schemas" name = false)
    (ran : (mergeExtension (some schema) uri values).run resource = (.ok (), after)) :
    Agree id name after
      (if sameName schema.urn uri then merge resource values
        else setAttr resource uri (joined schema uri values (Members.attr resource uri))) := by
  cases core : sameName schema.urn uri with
  | true =>
      rw [if_pos rfl, mergeExtension_core core ran]
      exact .refl _ _ _
  | false =>
      rw [if_neg Bool.false_ne_true]
      obtain ⟨_, start, checked, ran⟩ := Action.run_bind_eq_ok_iff.mp ran
      obtain ⟨_, rfl⟩ := Prod.mk.inj checked
      obtain ⟨home, middle, ensured, ran⟩ := Action.run_bind_eq_ok_iff.mp ran
      obtain ⟨key, rfl, keyEq, stored, agrees⟩ := ensureHome_extension rfl core isUrn ensured
      refine (agree_setExtension keyEq stored ran name).trans ?_
      refine ((agrees name notSchemas).setAttr uri rfl).trans ?_
      rw [setAttr_setAttr]
      cases Members.attr resource uri <;> exact .refl _ _ _

/-- What a member makes of the spellings of a name is what the resource absorbs. -/
theorem agree_mergeMember (notSchemas : sameName "schemas" name = false)
    (ran : (mergeMember (some schema) op key value).run resource = (.ok (), after)) :
    Agree id name after (absorb schema op resource (key, value)) := by
  unfold mergeMember at ran
  unfold absorb
  dsimp only
  by_cases isSchemas : Text.lower key = "schemas"
  · rw [if_pos isSchemas] at ran ⊢
    obtain ⟨urns, start, listed, ran⟩ := Action.run_bind_eq_ok_iff.mp ran
    obtain ⟨_, rfl⟩ := Prod.mk.inj listed
    exact .of_spellings (keeps_declareAll notSchemas urns _ _ _ ran).1
  · rw [if_neg isSchemas] at ran ⊢
    cases whole : key.toList.contains ':' && value.isObj with
    | true =>
        rw [whole, if_pos rfl] at ran
        rw [if_pos rfl]
        have isUrn : sameName "schemas" key = false :=
          Bool.eq_false_iff.mpr fun same => isSchemas (sameName_schemas_iff.mp same)
        exact agree_mergeExtension isUrn notSchemas ran
    | false =>
        rw [whole, if_neg Bool.false_ne_true] at ran
        rw [if_neg Bool.false_ne_true]
        rw [Option.any_some] at ran
        cases fixed : schema.isFixed key none none with
        | true =>
            rw [fixed, if_pos rfl] at ran
            rw [if_pos rfl]
            obtain ⟨current, start, got, ran⟩ := Action.run_bind_eq_ok_iff.mp ran
            cases got
            split at ran
            · cases ran
              exact .refl _ _ _
            · cases ran
        | false =>
            rw [fixed, if_neg Bool.false_ne_true, Action.run_update] at ran
            rw [if_neg Bool.false_ne_true]
            unfold taken
            split
            · next appended =>
              rw [appended] at ran
              cases ran
              exact .refl _ _ _
            · next single =>
              rw [if_neg single] at ran
              split at ran
              · next changed stepEq =>
                cases ran
                obtain ⟨result, checked, setEq⟩ := bind_eq_ok_iff.mp stepEq
                cases setEq
                rw [typed_of_coerce checked]
                exact .refl _ _ _
              · cases ran

/-- What is absorbed depends on the spellings of the same names. -/
theorem agree_absorb {first second : Members} (agree : Agree id name first second)
    (member : String × Json) :
    Agree id name (absorb schema op first member) (absorb schema op second member) := by
  unfold absorb
  dsimp only
  split
  · exact agree
  · split
    · split
      · exact agree.merge _
      · exact agree.setAttr_by member.1 _
    · split
      · exact agree
      · exact agree.setAttr_by member.1 _

theorem agree_foldl {first second : Members} (agree : Agree id name first second)
    (values : Members) :
    Agree id name (values.foldl (absorb schema op) first)
      (values.foldl (absorb schema op) second) := by
  induction values generalizing first second with
  | nil => exact agree
  | cons member rest ih => exact ih (agree_absorb agree member)

/-- A resource to which the members of a value were applied has absorbed them, one by one. -/
theorem agree_mergeMembers (notSchemas : sameName "schemas" name = false)
    (ran : (mergeMembers (some schema) op values).run resource = (.ok (), after)) :
    Agree id name after (values.foldl (absorb schema op) resource) := by
  induction values generalizing resource with
  | nil =>
      cases ran
      exact .refl _ _ _
  | cons member rest ih =>
      obtain ⟨_, middle, first, ran⟩ := Action.run_bind_eq_ok_iff.mp ran
      have absorbed := agree_mergeMember notSchemas first
      exact (ih ran).trans (agree_foldl absorbed rest)

/-! ## Gifts to one attribute -/

/-- What a member of a value without a path does to an attribute of a resource. -/
inductive Gift where
  /-- A value that is taken under a key: a list may be appended, another value is put in place. -/
  | take (key : String) (value : Json)
  /-- A value that is put in place as it is. -/
  | put (value : Json)
  /-- Members that are merged, in their stated types, into the object of an extension. -/
  | join (uri : String) (members : Members)

/-- The value of an attribute to which something is given. -/
def Gift.on (schema : ResourceSchema) (op : PatchOp) (current : Json) : Gift → Json
  | take key value => taken schema op key value current
  | put value => value
  | join uri members => joined schema uri members current

/-- What a member gives to an attribute of a resource: something if its key leads to the attribute,
and the members of an object for the whole core schema that do. -/
def gifts (schema : ResourceSchema) (resource : Members) (name : String)
    (member : String × Json) : List Gift :=
  let (key, value) := member
  if Text.lower key = "schemas" then []
  else if key.toList.contains ':' && value.isObj then
    let members := (value.members?).getD []
    if sameName schema.urn key then
      (members.filter (leads resource name ·.1)).map (Gift.put ·.2)
    else if leads resource name key then [.join key members] else []
  else if schema.isFixed key none none then []
  else if leads resource name key then [.take key value] else []

theorem leads_absorb (resource : Members) (member : String × Json) (name : String) :
    leads (absorb schema op resource member) name = leads resource name := by
  unfold absorb
  dsimp only
  split
  · rfl
  · split
    · split
      · exact leads_merge _ _ _
      · exact leads_setAttr _ _ _ _
    · split
      · rfl
      · exact leads_setAttr _ _ _ _

/-- Setting an attribute by a function of its value applies the function under the names that lead
to it. -/
theorem attr_setAttr_by (resource : Members) (key name : String) (f : Json → Json) :
    Members.attr (setAttr resource key (f (Members.attr resource key))) name =
      if leads resource name key then f (Members.attr resource name)
      else Members.attr resource name := by
  rw [attr_setAttr]
  cases led : leads resource name key with
  | true => rw [if_pos rfl, if_pos rfl, attr_of_leads led]
  | false => rfl

/-- What a resource has for an attribute after it absorbed a member is what it was given. -/
theorem attr_absorb (resource : Members) (member : String × Json) (name : String) :
    Members.attr (absorb schema op resource member) name =
      (gifts schema resource name member).foldl (Gift.on schema op)
        (Members.attr resource name) := by
  unfold absorb gifts
  dsimp only
  split
  · rfl
  · split
    · split
      · rw [attr_merge, List.foldl_map]
        rfl
      · rw [attr_setAttr_by]
        cases leads resource name member.1 <;> rfl
    · split
      · rfl
      · rw [attr_setAttr_by]
        cases leads resource name member.1 <;> rfl

/-- The members of a value give to an attribute one after the other. -/
theorem attr_foldl_absorb (values resource : Members) (name : String) :
    Members.attr (values.foldl (absorb schema op) resource) name =
      (values.flatMap (gifts schema resource name)).foldl (Gift.on schema op)
        (Members.attr resource name) := by
  induction values generalizing resource with
  | nil => rfl
  | cons member rest ih =>
      have same : gifts schema (absorb schema op resource member) name =
          gifts schema resource name := by
        unfold gifts
        rw [leads_absorb]
      rw [List.foldl_cons, ih, same, attr_absorb, List.flatMap_cons, List.foldl_append]

/-! ## Operations at a path -/

/-- What is decided in the object of an extension is put under its URN. -/
theorem agree_decided {attr : String} {decide : Json → Except Failure AttrEdit}
    (uriEq : path.uri = some uri) (notCore : sameName schema.urn uri = false)
    (isUrn : sameName "schemas" uri = false)
    (ensured : (ensureHome (some schema) path).run resource = (.ok home, middle))
    (decided : Decided home attr middle (decide (Members.attr (home.members middle) attr))
      (.ok (), after)) :
    let kept := ((Members.attr resource uri).members?).getD []
    ∃ edit, decide (Members.attr kept attr) = .ok edit ∧
      ∀ name, sameName "schemas" name = false →
        Agree id name after (setAttr resource uri (.obj (edit.on attr kept))) := by
  intro kept
  obtain ⟨key, rfl, keyEq, stored, agrees⟩ := ensureHome_extension uriEq notCore isUrn ensured
  have own : Home.members (.extension key) middle = kept := by rw [Home.members, stored]
  rw [own] at decided
  obtain ⟨edit, f, decisionEq, rfl, edited⟩ := decided.exists_update
  rw [own] at edited
  refine ⟨edit, decisionEq, fun name notSchemas => ?_⟩
  rw [← edited, Home.update]
  refine (Agree.of_modify keyEq stored _).trans ?_
  refine ((agrees name notSchemas).setAttr uri rfl).trans ?_
  rw [setAttr_setAttr]
  exact .refl _ _ _

end Patch

namespace PatchOperation

variable {schema : ResourceSchema} {operation : PatchOperation} {path : AttributePath}
  {text attr uri : String} {resource after : Members}

theorem parsed_of_run {schema : Option ResourceSchema} (textEq : operation.path = some text)
    (ran : (operation.apply schema).run resource = (.ok (), after)) :
    ∃ path, PathOf.parse text = .ok path := by
  unfold apply at ran
  rw [textEq] at ran
  obtain ⟨path, start, aimed, _⟩ := Action.run_bind_eq_ok_iff.mp ran
  obtain ⟨aimEq, rfl⟩ := Prod.mk.inj aimed
  obtain ⟨read, readEq, _⟩ := bind_eq_ok_iff.mp aimEq
  exact ⟨read, readEq⟩

theorem target_of_run {schema : Option ResourceSchema} (textEq : operation.path = some text)
    (parsed : PathOf.parse text = .ok path)
    (ran : (operation.apply schema).run resource = (.ok (), after)) :
    target schema text = .ok path := by
  unfold apply at ran
  rw [textEq] at ran
  obtain ⟨aim, start, aimed, _⟩ := Action.run_bind_eq_ok_iff.mp ran
  have aimEq : target schema text = .ok aim := congrArg Prod.fst aimed
  obtain ⟨read, readEq, rest⟩ := bind_eq_ok_iff.mp aimEq
  obtain ⟨_, _, is⟩ := bind_eq_ok_iff.mp rest
  rw [parsed] at readEq
  cases readEq
  cases is
  exact aimEq

/-- An operation with a path that can be read and be changed is applied at this path. -/
theorem run_of_target {schema : Option ResourceSchema} (textEq : operation.path = some text)
    (aimed : target schema text = .ok path) (resource : Members) :
    (operation.apply schema).run resource =
      (match operation.op with
        | .add => Patch.add schema path operation.value
        | .replace => Patch.replace schema path operation.value
        | .remove => Patch.remove schema path operation.value : Change Unit).run resource := by
  have found : (Action.ofExcept (target schema text) : Change AttributePath).run resource =
      (.ok path, resource) := by rw [Action.run_ofExcept, aimed]
  unfold apply
  rw [textEq]
  exact Action.run_bind_ok found _

theorem run_at_path {schema : Option ResourceSchema} (textEq : operation.path = some text)
    (parsed : PathOf.parse text = .ok path)
    (ran : (operation.apply schema).run resource = (.ok (), after)) :
    (match operation.op with
      | .add => Patch.add schema path operation.value
      | .replace => Patch.replace schema path operation.value
      | .remove => Patch.remove schema path operation.value : Change Unit).run resource =
        (.ok (), after) := by
  rw [← run_of_target textEq (target_of_run textEq parsed ran) resource, ran]

/-- An operation on an attribute of the core schema edits it as it decides. -/
theorem core_of_run (textEq : operation.path = some text) (parsed : PathOf.parse text = .ok path)
    (core : schema.isCore path.uri = true) (attrEq : path.attr = some attr)
    (ran : (operation.apply (some schema)).run resource = (.ok (), after)) :
    ∃ edit, operation.decision (some schema) path attr (Members.attr resource attr) = .ok edit ∧
      after = edit.on attr resource := by
  obtain ⟨edit, decided, edited, _⟩ := edits_of_run textEq parsed attrEq ran
  have home : addressed (some schema) resource path.uri = .core := by
    cases uriEq : path.uri with
    | none => rfl
    | some uri =>
        rw [uriEq] at core
        have isCore : isCoreHome (some schema) resource (some uri) = true := core
        rw [addressed, isCore, if_pos rfl]
  rw [home] at decided edited
  exact ⟨edit, decided, edited⟩

/-- An addition or replacement of an attribute of an extension sets the object under its URN. -/
theorem extension_of_run (textEq : operation.path = some text)
    (parsed : PathOf.parse text = .ok path) (uriEq : path.uri = some uri)
    (notCore : sameName schema.urn uri = false) (isUrn : sameName "schemas" uri = false)
    (attrEq : path.attr = some attr) (sets : operation.op ≠ .remove)
    (ran : (operation.apply (some schema)).run resource = (.ok (), after)) :
    let kept := ((Members.attr resource uri).members?).getD []
    ∃ edit, operation.decision (some schema) path attr (Members.attr kept attr) = .ok edit ∧
      ∀ name, sameName "schemas" name = false →
        Agree id name after (setAttr resource uri (.obj (edit.on attr kept))) := by
  have atPath := run_at_path textEq parsed ran
  obtain ⟨op, _, value⟩ := operation
  cases op with
  | remove => exact absurd rfl sets
  | add =>
      obtain ⟨home, middle, ensured, _⟩ := Action.run_bind_eq_ok_iff.mp atPath
      obtain ⟨_, _, _, reached, _⟩ := Patch.ensureHome_eq ensured
      have decided := Patch.decided_add attrEq reached value ensured
      dsimp only at atPath
      rw [atPath] at decided
      exact Patch.agree_decided uriEq notCore isUrn ensured decided
  | replace =>
      obtain ⟨home, middle, ensured, _⟩ := Action.run_bind_eq_ok_iff.mp atPath
      obtain ⟨_, _, _, reached, _⟩ := Patch.ensureHome_eq ensured
      have decided := Patch.decided_replace attrEq reached value ensured
      dsimp only at atPath
      rw [atPath] at decided
      exact Patch.agree_decided uriEq notCore isUrn ensured decided

/-- An addition or replacement of a whole extension merges an object into it, where its home is. -/
theorem whole_of_run (textEq : operation.path = some text) (parsed : PathOf.parse text = .ok path)
    (uriEq : path.uri = some uri) (whole : path.attr = none) (sets : operation.op ≠ .remove)
    (ran : (operation.apply (some schema)).run resource = (.ok (), after)) :
    ∃ home middle values, (Patch.ensureHome (some schema) path).run resource = (.ok home, middle) ∧
      operation.value = .obj values ∧
        (Patch.mergeExtension (some schema) uri values).run middle = (.ok (), after) := by
  have merged {middle : Members}
      (ran : (Patch.mergeWhole (some schema) (path.uri.getD "") operation.value).run middle =
        (.ok (), after)) :
      ∃ values, operation.value = .obj values ∧
        (Patch.mergeExtension (some schema) uri values).run middle = (.ok (), after) := by
    rw [uriEq, Option.getD_some] at ran
    obtain ⟨values, start, listed, ran⟩ := Action.run_bind_eq_ok_iff.mp ran
    obtain ⟨found, rfl⟩ := Prod.mk.inj listed
    cases held : operation.value with
    | obj members =>
        rw [held] at found
        cases found
        exact ⟨_, rfl, ran⟩
    | _ =>
        rw [held] at found
        cases found
  have atPath := run_at_path textEq parsed ran
  cases opEq : operation.op with
  | remove => exact absurd opEq sets
  | add | replace =>
      rw [opEq] at atPath
      obtain ⟨home, middle, ensured, rest⟩ := Action.run_bind_eq_ok_iff.mp atPath
      rw [whole] at rest
      obtain ⟨values, valueEq, ran⟩ := merged rest
      exact ⟨home, middle, values, ensured, valueEq, ran⟩

end PatchOperation

end Scim
