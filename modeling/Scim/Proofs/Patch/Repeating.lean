import Scim.Proofs.Patch.Absorbing
import Scim.Proofs.Patch.Requests
import Scim.Proofs.Patch.Returning
import Scim.Proofs.Patch.Settling

/-!
# Operations that are applied again

An addition or replacement that is applied again comes to the home that it created or changed,
decides there on what it put in place, and so changes nothing.  Two things may stand in the
way: an object that it appended, on which the filter of its path crashes; and, if the URN of the
path is `schemas`, the list of declared URNs, which was begun under this name and hides the home.
-/

namespace Scim

open Members Json

variable {schema : ResourceSchema} {path : AttributePath} {attr uri key text : String}
  {operation : PatchOperation} {value current : Json} {values resource middle after : Members}
  {home : Home} {edit : AttrEdit} {f : Members → Members}

/-! ## Changes of a home -/

/-- Where each name occurs once, a change of a home is what it makes of the members there. -/
theorem Home.update_congr {g : Members → Members} (nodup : (names resource).Nodup)
    (same : f (home.members resource) = g (home.members resource)) :
    home.update resource f = home.update resource g := by
  cases home with
  | core => exact same
  | extension key =>
      refine List.map_congr_left fun member held => ?_
      obtain ⟨name, value⟩ := member
      dsimp only
      split
      · next isKey =>
        subst isKey
        have stored := get?_of_mem nodup held
        rw [Home.members, stored] at same
        cases value with
        | obj members => exact congrArg (fun changed => (name, Json.obj changed)) same
        | _ => rfl
      · rfl

theorem Home.update_eq_self (nodup : (names resource).Nodup)
    (same : f (home.members resource) = home.members resource) :
    home.update resource f = resource :=
  (Home.update_congr nodup same).trans (Home.update_self (f := id) fun _ => rfl)

theorem Home.IsThere.update (there : home.IsThere resource) (f : Members → Members) :
    home.IsThere (home.update resource f) := by
  cases home with
  | core => trivial
  | extension key =>
      obtain ⟨members, held⟩ := there
      exact ⟨f members, by rw [Home.update, get?_modify, if_pos rfl, held]; rfl⟩

theorem AttrEdit.nodup_on (nodup : (names resource).Nodup) (edit : AttrEdit) :
    (names (edit.on attr resource)).Nodup := by
  cases edit with
  | keep => exact nodup
  | put value => exact nodup_setAttr nodup attr value
  | drop => exact nodup.sublist ((delAttr_sublist resource attr).map Prod.fst)

theorem Home.nodup_update (nodup : (names resource).Nodup)
    (kept : (names (home.members resource)).Nodup → (names (f (home.members resource))).Nodup) :
    (names (home.update resource f)).Nodup := by
  cases home with
  | core => exact kept nodup
  | extension key => rwa [Home.update, names_modify]

namespace Patch

theorem nodup_declareSchema (nodup : (names resource).Nodup)
    (ran : (declareSchema uri).run resource = (.ok (), after)) : (names after).Nodup := by
  rcases declareSchema_eq ran with rfl | ⟨value, rfl⟩
  · exact nodup
  · exact nodup_set nodup "schemas" value

theorem nodup_ensureHome {schema : Option ResourceSchema} (nodup : (names resource).Nodup)
    (ensured : (ensureHome schema path).run resource = (.ok home, middle)) :
    (names middle).Nodup := by
  rcases ensureHome_cases ensured with ⟨_, rfl⟩ | ⟨_, _, _, _, declares⟩
  · exact nodup
  · exact nodup_declareSchema (nodup_setAttr nodup _ _) declares

end Patch

/-- A path leads to the home that was ensured and then changed without loss of a name, unless its
URN is `schemas` and the list of declared URNs hides the home. -/
theorem homeFor_of_grown
    (ensured : (Patch.ensureHome (some schema) path).run resource = (.ok home, middle))
    (grown : names (home.members middle) ⊆ names (f (home.members middle))) :
    homeFor (home.update middle f) path (some schema) = .ok (some home) ∨
      path.uri = some "schemas" ∧
        homeFor (home.update middle f) path (some schema) = .ok none ∧
        (setAttr (home.update middle f) "schemas" (.obj [])).takesUri "schemas" = false := by
  rcases homeFor_of_ensured ensured with
    found | ⟨key, urns, rfl, apart, uriEq, notCore, declared, held⟩
  · refine .inl (homeFor_update found f fun uri uriEq => ?_)
    have known := checkUri_of_homeFor uriEq found
    rcases checkUri_eq_ok_iff.mp known with recognized | declared
    · exact checkUri_eq_ok_iff.mpr (.inl recognized)
    · cases home with
      | core =>
          refine checkUri_eq_ok_iff.mpr (.inl (recognizes_of_urn ?_))
          rw [homeFor_of_checkUri uriEq known] at found
          by_contra other
          rw [if_neg other] at found
          split at found <;> cases found
      | extension key =>
          refine checkUri_eq_ok_iff.mpr (.inr (declares_update declared fun members held => ?_))
          rw [Home.members, held] at grown
          exact grown
  · have kept : get? ((Home.extension key).update middle f) "schemas" = some (.arr urns) := by
      rw [Home.update, get?_modify, if_neg apart.symm, held]
    have present : "schemas" ∈ names ((Home.extension key).update middle f) :=
      (get?_isSome_iff _ _).mp (by rw [kept]; rfl)
    have here := key?_of_mem present
    have known : checkUri ((Home.extension key).update middle f) "schemas" (some schema) = .ok () :=
      (checkUri_congr (kept.trans held.symm) _ _).trans (checkUri_eq_ok_iff.mpr (.inr declared))
    refine .inr ⟨uriEq, ?_, ?_⟩
    · rw [homeFor_of_checkUri uriEq known, notCore, if_neg Bool.false_ne_true, Members.attr, attr?,
        here, Option.bind_some, kept]
      rfl
    · rw [Members.takesUri, setAttr_eq_set, place_of_key? here, get?_set, if_pos rfl]
      rfl

/-! ## Whole extensions -/

namespace Patch

/-- The members of an extension with values of their stated types. -/
def checkedMembers (schema : ResourceSchema) (uri : String) (values : Members) :
    Except Failure Members :=
  values.mapM fun member =>
    (coerce (some schema) member.1 none (some uri) member.2).map (Prod.mk member.1)

/-- Setting members of an extension merges them, with values of their stated types, into its
object. -/
theorem run_setExtension_eq_ok_iff (nodup : (names resource).Nodup)
    (there : (Home.extension key).IsThere resource) :
    (setExtension (some schema) uri (.extension key) values).run resource = (.ok (), after) ↔
      ∃ typed, checkedMembers schema uri values = .ok typed ∧
        after = (Home.extension key).update resource (merge · typed) := by
  induction values generalizing resource with
  | nil =>
      have same : (Home.extension key).update resource (merge · []) = resource :=
        Home.update_self fun _ => rfl
      constructor
      · intro ran
        cases ran
        exact ⟨[], rfl, same.symm⟩
      · rintro ⟨typed, ⟨⟩, rfl⟩
        exact congrArg (Prod.mk (Except.ok ())) same.symm
  | cons member rest ih =>
      obtain ⟨name, value⟩ := member
      have checkedEq : checkedMembers schema uri ((name, value) :: rest) = (do
          let first ← (coerce (some schema) name none (some uri) value).map (Prod.mk name)
          let others ← checkedMembers schema uri rest
          return first :: others) := List.mapM_cons
      rw [checkedEq, setExtension, Action.run_bind, updateHome, Action.run_update, setChecked]
      cases coerce (some schema) name none (some uri) value with
      | error failure =>
          refine iff_of_false (fun ran => ?_) ?_
          · cases ran
          · rintro ⟨_, ⟨⟩, _⟩
      | ok result =>
          have next : (Home.extension key).update resource
              (fun _ => setAttr ((Home.extension key).members resource) name result) =
                (Home.extension key).update resource (setAttr · name result) :=
            Home.update_congr nodup rfl
          change (setExtension (some schema) uri (.extension key) rest).run _ = _ ↔ _
          rw [next, ih (Home.nodup_update nodup fun kept => nodup_setAttr kept name result)
            (there.update _)]
          constructor
          · rintro ⟨others, found, rfl⟩
            exact ⟨(name, result) :: others, by rw [found]; rfl, Home.update_update ..⟩
          · rintro ⟨typed, found, rfl⟩
            obtain ⟨first, firstEq, found⟩ := bind_eq_ok_iff.mp found
            obtain ⟨others, othersEq, found⟩ := bind_eq_ok_iff.mp found
            cases firstEq
            cases found
            exact ⟨others, othersEq, (Home.update_update (.extension key) resource
              (setAttr · name result) (merge · others)).symm⟩

section

variable (allowed : checkExtension (some schema) uri = .ok ())
include allowed

/-- Merging into a whole extension whose home is found sets the members there. -/
theorem run_mergeExtension_extension
    (found : homeFor resource (⟨some uri, none, none, none⟩ : AttributePath) (some schema) =
      .ok (some (.extension key))) :
    (mergeExtension (some schema) uri values).run resource =
      (setExtension (some schema) uri (.extension key) values).run resource := by
  have passed : (Action.ofExcept (checkExtension (some schema) uri) : Change Unit).run resource =
      (.ok (), resource) := by rw [Action.run_ofExcept, allowed]
  exact (Action.run_bind_ok passed _).trans (Action.run_bind_ok (run_ensureHome_of_found found) _)

theorem run_mergeExtension_core
    (found : homeFor resource (⟨some uri, none, none, none⟩ : AttributePath) (some schema) =
      .ok (some .core)) :
    (mergeExtension (some schema) uri values).run resource = (.ok (), merge resource values) := by
  have passed : (Action.ofExcept (checkExtension (some schema) uri) : Change Unit).run resource =
      (.ok (), resource) := by rw [Action.run_ofExcept, allowed]
  exact (Action.run_bind_ok passed _).trans (Action.run_bind_ok (run_ensureHome_of_found found) _)

end

/-- Merging an object into a whole extension merges its members, with values of their stated types,
into the home of the extension, wherever this is the home. -/
theorem exists_merge_of_mergeExtension (nodup : (names resource).Nodup)
    (found : homeFor resource (⟨some uri, none, none, none⟩ : AttributePath) (some schema) =
      .ok (some home))
    (ran : (mergeExtension (some schema) uri values).run resource = (.ok (), after)) :
    ∃ typed, after = home.update resource (merge · typed) ∧ ∀ other, (names other).Nodup →
      homeFor other (⟨some uri, none, none, none⟩ : AttributePath) (some schema) = .ok (some home) →
        (mergeExtension (some schema) uri values).run other =
          (.ok (), home.update other (merge · typed)) := by
  obtain ⟨_, start, checked, _⟩ := Action.run_bind_eq_ok_iff.mp ran
  have allowed : checkExtension (some schema) uri = .ok () := congrArg Prod.fst checked
  cases home with
  | core =>
      rw [run_mergeExtension_core allowed found] at ran
      cases ran
      exact ⟨values, rfl, fun other _ foundToo => run_mergeExtension_core allowed foundToo⟩
  | extension key =>
      rw [run_mergeExtension_extension allowed found] at ran
      obtain ⟨typed, typedEq, rfl⟩ :=
        (run_setExtension_eq_ok_iff nodup (isThere_of_homeFor found)).mp ran
      refine ⟨typed, rfl, fun other nodup foundToo => ?_⟩
      rw [run_mergeExtension_extension allowed foundToo]
      exact (run_setExtension_eq_ok_iff nodup (isThere_of_homeFor foundToo)).mpr
        ⟨typed, typedEq, rfl⟩

end Patch

namespace PatchOperation

/-- An addition or replacement of a whole extension starts from the home of the extension. -/
theorem run_whole (textEq : operation.path = some text)
    (aimed : target (some schema) text = .ok path) (whole : path.attr = none)
    (uriEq : path.uri = some uri) (sets : operation.op ≠ .remove)
    (valueEq : operation.value = .obj values)
    (found : homeFor resource path (some schema) = .ok (some home)) :
    (operation.apply (some schema)).run resource =
      (Patch.mergeExtension (some schema) uri values).run resource := by
  have ensured := Patch.run_ensureHome_of_found found
  have listed : (Action.ofExcept (Patch.extensionMembers uri (.obj values))).run resource =
      (.ok values, resource) := rfl
  have merges : (Patch.mergeWhole (some schema) uri (.obj values)).run resource =
      (Patch.mergeExtension (some schema) uri values).run resource := Action.run_bind_ok listed _
  rw [run_of_target textEq aimed, ← merges]
  cases opEq : operation.op with
  | remove => exact absurd opEq sets
  | add =>
      dsimp only
      rw [Patch.add, Action.run_bind_ok ensured, whole, uriEq, valueEq, Option.getD_some]
  | replace =>
      dsimp only
      rw [Patch.replace, Action.run_bind_ok ensured, whole, uriEq, valueEq, Option.getD_some]

/-- A whole extension that an object was merged into stays as it is when this is done again. -/
theorem run_again_whole (textEq : operation.path = some text)
    (parsed : PathOf.parse text = .ok path) (whole : path.attr = none)
    (sets : operation.op ≠ .remove) (nodup : (names resource).Nodup)
    (ran : (operation.apply (some schema)).run resource = (.ok (), after)) :
    (operation.apply (some schema)).run after = (.ok (), after) := by
  obtain ⟨uri, uriEq, isUrn, registered⟩ := PathOf.registered_of_parse parsed whole
  have aimed := target_of_run textEq parsed ran
  obtain ⟨home, middle, values, ensured, valueEq, merged⟩ :=
    whole_of_run textEq parsed uriEq whole sets ran
  have apart : path.uri ≠ some "schemas" := by
    rw [uriEq]
    rintro ⟨⟩
    exact absurd isUrn (by decide)
  -- the home depends on the URN only
  have sameHome (other : Members) : homeFor other path (some schema) =
      homeFor other (⟨some uri, none, none, none⟩ : AttributePath) (some schema) := by
    rw [homeFor, homeFor, uriEq]
  have found : homeFor middle path (some schema) = .ok (some home) := by
    rcases homeFor_of_ensured ensured with found | ⟨_, _, _, _, isSchemas, _⟩
    · exact found
    · exact absurd isSchemas apart
  have nodupMiddle := Patch.nodup_ensureHome nodup ensured
  obtain ⟨typed, rfl, merges⟩ := Patch.exists_merge_of_mergeExtension nodupMiddle
    ((sameHome middle).symm.trans found) merged
  have nodupAfter : (names (home.update middle (merge · typed))).Nodup :=
    Home.nodup_update nodupMiddle fun kept => nodup_merge kept typed
  have foundAfter : homeFor (home.update middle (merge · typed)) path (some schema) =
      .ok (some home) := by
    refine homeFor_update found _ fun other isUri => ?_
    cases uriEq.symm.trans isUri
    exact checkUri_eq_ok_iff.mpr (.inl (recognizes_of_registered registered))
  have twice : (merge · typed) ∘ (merge · typed) = (merge · typed) :=
    funext fun members => merge_merge_self members typed
  rw [run_whole textEq aimed whole uriEq sets valueEq foundAfter,
    merges _ nodupAfter ((sameHome _).symm.trans foundAfter), Home.update_update, twice]

end PatchOperation

/-! ## Attributes -/

namespace Patch

/-- What can stand in the way of an operation that is applied again: an object of the list at its
path that was given to it, on which the filter crashes; and a list of declared URNs that is kept
under the URN of its path. -/
inductive Obstructs (schema : ResourceSchema) (operation : PatchOperation) (path : AttributePath)
    (resource : Members) : Prop
  | given {filter : Filter} {attr : String} {home : Home} {items : List Json} {element : Members}
      (restricted : path.restriction = some filter) (attrEq : path.attr = some attr)
      (found : homeFor resource path (some schema) = .ok (some home))
      (held : Members.attr (home.members resource) attr = .arr items)
      (inside : .obj element ∈ items) (isGiven : .obj element ∈ asItems operation.value)
      (stumbles : filter.Stumbles (.within (some schema) path) element)
  | hidden (uriEq : path.uri = some "schemas")
      (missing : homeFor resource path (some schema) = .ok none)

end Patch

namespace PatchOperation

theorem exists_ensured_of_run (textEq : operation.path = some text)
    (parsed : PathOf.parse text = .ok path) (sets : operation.op ≠ .remove)
    (ran : (operation.apply (some schema)).run resource = (.ok (), after)) :
    ∃ home middle,
      (Patch.ensureHome (some schema) path).run resource = (.ok home, middle) := by
  have atPath := run_at_path textEq parsed ran
  cases opEq : operation.op with
  | remove => exact absurd opEq sets
  | add | replace =>
      rw [opEq] at atPath
      obtain ⟨home, middle, ensured, _⟩ := Action.run_bind_eq_ok_iff.mp atPath
      exact ⟨home, middle, ensured⟩

/-- An addition or replacement carries out in the home that it ensures what it decides there. -/
theorem decided_of_ensured (textEq : operation.path = some text)
    (aimed : target (some schema) text = .ok path) (attrEq : path.attr = some attr)
    (sets : operation.op ≠ .remove)
    (ensured : (Patch.ensureHome (some schema) path).run resource = (.ok home, middle)) :
    Patch.Decided home attr middle
      (operation.decision (some schema) path attr (Members.attr (home.members middle) attr))
      ((operation.apply (some schema)).run resource) := by
  obtain ⟨_, _, _, reached, _⟩ := Patch.ensureHome_eq ensured
  rw [run_of_target textEq aimed]
  obtain ⟨op, _, value⟩ := operation
  cases op with
  | remove => exact absurd rfl sets
  | add => exact Patch.decided_add attrEq reached value ensured
  | replace => exact Patch.decided_replace attrEq reached value ensured

theorem names_subset_of_decision (repeatable : operation.IsRepeatable path)
    (wellFormed : operation.value.WellFormed)
    (decided : operation.decision (some schema) path attr current = .ok edit)
    (members : Members) : names members ⊆ names (edit.on attr members) := by
  rcases decision_settles repeatable wellFormed decided with rfl | ⟨stored, rfl, _⟩
  · exact List.Subset.refl _
  · exact fun name held => (mem_names_set ..).mpr (.inr held)

/-- An operation that comes to a home which is there keeps it as it left it, unless the filter
crashes. -/
theorem run_again_of_found (textEq : operation.path = some text)
    (aimed : target (some schema) text = .ok path) (attrEq : path.attr = some attr)
    (repeatable : operation.IsRepeatable path) (wellFormed : operation.value.WellFormed)
    {members : Members}
    (decided : operation.decision (some schema) path attr (Members.attr members attr) = .ok edit)
    (nodup : (names after).Nodup) (edited : home.members after = edit.on attr members)
    (found : homeFor after path (some schema) = .ok (some home))
    (safe : ¬ Patch.SelectionStumbles schema path (Members.attr (home.members after) attr)) :
    (operation.apply (some schema)).run after = (.ok (), after) := by
  rw [edited] at safe
  obtain ⟨again, decidedAgain, same⟩ := decision_again repeatable wellFormed decided safe
  have carried := decided_of_ensured textEq aimed attrEq repeatable.sets
    (Patch.run_ensureHome_of_found found)
  rw [edited, decidedAgain] at carried
  obtain ⟨f, ranAgain, agrees⟩ := carried.exists_outcome
  rw [ranAgain, Home.update_eq_self nodup (agrees.trans (by rw [edited, same]))]

/-- An operation on an attribute leaves the resource as it is when it is applied again, unless
something stands in its way. -/
theorem run_again_iff (textEq : operation.path = some text) (parsed : PathOf.parse text = .ok path)
    (attrEq : path.attr = some attr) (repeatable : operation.IsRepeatable path)
    (nodup : (names resource).Nodup) (wellFormed : operation.value.WellFormed)
    (ran : (operation.apply (some schema)).run resource = (.ok (), after)) :
    (operation.apply (some schema)).run after = (.ok (), after) ↔
      ¬ Patch.Obstructs schema operation path after := by
  have aimed := target_of_run textEq parsed ran
  have crashes (stumbles : Patch.StumblesAt schema operation.op path after) :
      (operation.apply (some schema)).run after ≠ (.ok (), after) := by
    intro again
    have crashed : (operation.apply (some schema)).CrashesAt after :=
      crashesAt_apply_iff.mpr (.changing textEq aimed stumbles)
    rw [Action.CrashesAt, again] at crashed
    exact crashed
  obtain ⟨home, middle, ensured⟩ := exists_ensured_of_run textEq parsed repeatable.sets ran
  have decided := decided_of_ensured textEq aimed attrEq repeatable.sets ensured
  rw [ran] at decided
  obtain ⟨edit, f, decision, rfl, agrees⟩ := decided.exists_update
  obtain ⟨_, there, _⟩ := Patch.ensureHome_eq ensured
  have edited := (there.members_update f).trans agrees
  have grown := names_subset_of_decision repeatable wellFormed decision (home.members middle)
  rw [← agrees] at grown
  rcases homeFor_of_grown ensured grown with found | ⟨uriEq, missing, closed⟩
  · constructor
    · rintro again (⟨restricted, isAttr, foundToo, held, inside, _, stumbles⟩ | ⟨_, missing⟩)
      · refine crashes (.selecting isAttr foundToo ?_) again
        exact ⟨_, _, _, restricted, held, inside, stumbles⟩
      · cases found.symm.trans missing
    · intro free
      have nodupAfter : (names (home.update middle f)).Nodup := by
        refine Home.nodup_update (Patch.nodup_ensureHome nodup ensured) fun kept => ?_
        rw [agrees]
        exact edit.nodup_on kept
      refine run_again_of_found textEq aimed attrEq repeatable wellFormed decision nodupAfter
        edited found fun stumbles => free ?_
      rw [edited] at stumbles
      obtain ⟨filter, items, element, restricted, held, inside, isGiven, crash⟩ :=
        exists_given_of_stumbles repeatable decision stumbles
      rw [← edited] at held
      exact .given restricted attrEq found held inside isGiven crash
  · exact iff_of_false (crashes (.declaring repeatable.sets uriEq missing closed))
      (not_not_intro (.hidden uriEq missing))

end PatchOperation

/-! ## Requests -/

/-- An addition or replacement without a filter, or an addition to the list that a filter selects
from, changes nothing when it is applied again, exactly if nothing stands in its way. -/
theorem applyPatch_again_iff {entry : PatchEntry} (read : entry.read 0 = .ok operation)
    (textEq : operation.path = some text) (parsed : PathOf.parse text = .ok path)
    (repeatable : operation.IsRepeatable path) (nodup : (names resource).Nodup)
    (wellFormed : operation.value.WellFormed)
    (applied : applyPatch resource [entry] (some schema) = .ok after) :
    applyPatch after [entry] (some schema) = .ok after ↔
      ¬ Patch.Obstructs schema operation path after := by
  have ran := (applyPatch_singleton_iff read).mp applied
  rw [applyPatch_singleton_iff read]
  cases attrEq : path.attr with
  | some attr => exact operation.run_again_iff textEq parsed attrEq repeatable nodup wellFormed ran
  | none =>
      refine iff_of_true
        (operation.run_again_whole textEq parsed attrEq repeatable.sets nodup ran) ?_
      rintro (⟨_, isAttr, _⟩ | ⟨isSchemas, _⟩)
      · cases attrEq.symm.trans isAttr
      · obtain ⟨uri, uriEq, isUrn⟩ := PathOf.uri_of_parse parsed attrEq
        cases uriEq.symm.trans isSchemas
        exact absurd isUrn (by decide)

/-- An element that is there already, and one that is not. -/
theorem applyPatch_again_iff_emails :
    let resource : Members := [("emails", .arr [.obj [("value", .str "a")]])]
    let values : List Json := [.obj [("value", .str "a")], .obj [("value", .str "b")]]
    let operation : PatchOperation := ⟨.add, some "emails", .arr values⟩
    let path : AttributePath := ⟨none, some "emails", none, none⟩
    PathOf.parse "emails" = .ok path ∧ operation.IsRepeatable path ∧ (names resource).Nodup ∧
      operation.value.WellFormed ∧
      ∃ after, applyPatch resource [.ready operation] (some .user) = .ok after ∧
        (applyPatch after [.ready operation] (some .user) = .ok after ↔
          ¬ Patch.Obstructs .user operation path after) := by
  intro resource values operation path
  have parsed : PathOf.parse "emails" = .ok path := PathOf.parse_eq_of_parts (by decide +kernel)
  have repeatable : operation.IsRepeatable path := .inl ⟨nofun, rfl⟩
  have nodup : (names resource).Nodup := by decide
  have single (s : String) : (Json.obj [("value", .str s)]).WellFormed :=
    .obj (List.nodup_singleton _) (List.forall_mem_singleton.mpr (.scalar rfl))
  have wellFormed : operation.value.WellFormed :=
    .arr (List.forall_mem_cons.mpr ⟨single "a", List.forall_mem_singleton.mpr (single "b")⟩)
  have applies : (applyPatch resource [.ready operation] (some .user)).isOk = true := by
    decide +kernel
  obtain ⟨after, applied⟩ := exists_eq_ok_of_isOk applies
  exact ⟨parsed, repeatable, nodup, wellFormed, after, applied,
    applyPatch_again_iff rfl rfl parsed repeatable nodup wellFormed applied⟩

/-- An object that is appended, and whose own `schemas` is no list, crashes the filter when the
addition is applied again. -/
theorem not_applyPatch_again :
    ¬ ∀ (schema : ResourceSchema) (resource after : Members) (entry : PatchEntry)
        (operation : PatchOperation) (text : String) (path : AttributePath),
      entry.read 0 = .ok operation → operation.path = some text →
      PathOf.parse text = .ok path → operation.IsRepeatable path → (names resource).Nodup →
      operation.value.WellFormed → applyPatch resource [entry] (some schema) = .ok after →
      applyPatch after [entry] (some schema) = .ok after := by
  intro always
  let resource : Members := [("userName", .str "a")]
  let text := "emails[urn:x:y:z eq 1]"
  let operation : PatchOperation := ⟨.add, some text, .obj [("schemas", .bool true)]⟩
  have lost : ((applyPatch resource [.ready operation] (some .user)).toOption.bind fun after =>
      (PathOf.parse text).toOption.map fun path : AttributePath =>
        (path.sub, (applyPatch after [.ready operation] (some .user)).isOk)) =
      some (none, false) := by decide +kernel
  obtain ⟨after, applied, rest⟩ := Option.bind_eq_some_iff.mp lost
  obtain ⟨path, parsed, found⟩ := Option.map_eq_some_iff.mp rest
  obtain ⟨noSub, failed⟩ := Prod.mk.inj found
  have wellFormed : operation.value.WellFormed :=
    .obj (by decide) (List.forall_mem_singleton.mpr (.scalar rfl))
  have again := always .user resource after (.ready operation) operation text path rfl rfl
    (eq_ok_of_toOption parsed) (.inr ⟨rfl, noSub⟩) (by decide) wellFormed
    (eq_ok_of_toOption applied)
  rw [again] at failed
  cases failed

end Scim
