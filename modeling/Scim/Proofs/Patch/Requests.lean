import Scim.Proofs.Patch.Crashing
import Scim.Proofs.Path.Qualifying

/-!
# Change requests that crash

An operation without a path declares URNs and merges into extensions member by member, and
stumbles as an operation at a path does.  A text that is no path is refused, unless there is
an over-long integer in its filter.  As a request is otherwise read or refused, it crashes
exactly if one of its operations stumbles over what those before it leave.
-/

namespace Scim

open Members

variable {schema : ResourceSchema} {path : AttributePath} {uri : String} {value : Json}
  {resource after : Members}

namespace Patch

/-! ## Operations without a path -/

theorem texts_of_holdsUri {urns : List Json} (missing : holdsUri uri urns = .ok false) :
    urns.all (·.isStr) = true := by
  induction urns with
  | nil => rfl
  | cons head rest ih =>
      cases head with
      | str u =>
          rw [holdsUri] at missing
          split at missing
          · cases missing
          · simpa [Json.isStr] using ih missing
      | _ => cases missing

/-- What can be declared on a resource stays so when another URN is declared. -/
theorem takesUri_declareSchema (ran : (declareSchema uri).run resource = (.ok (), after))
    (other : String) : after.takesUri other = resource.takesUri other := by
  rcases declareSchema_cases ran with rfl | ⟨urns, listed, missing, rfl⟩
  · rfl
  · have texts := texts_of_holdsUri missing
    have more : (urns ++ [Json.str uri]).all (·.isStr) = true := by
      rw [List.all_append, texts]
      rfl
    rw [Members.takesUri, Members.takesUri, listed, get?_set, if_pos rfl, Option.getD_some,
      takesUri_of_texts texts, takesUri_of_texts more]

theorem failsOnly_holdsUri (uri : String) (urns : List Json) :
    FailsOnly Failure.IsCrash (holdsUri uri urns) := by
  induction urns with
  | nil => exact .ok _
  | cons head rest ih =>
      cases head with
      | str u =>
          rw [holdsUri]
          split
          · exact .ok _
          · exact ih
      | _ => exact .crash (by decide)

/-- Declaring a URN fails in no other way. -/
theorem failsOnly_declareSchema (uri : String) :
    (declareSchema uri).FailsOnly Failure.IsCrash := by
  unfold declareSchema
  refine .bind (.change _) fun _ _ _ _ => .update fun started => ?_
  split
  · next urns _ =>
    refine (failsOnly_holdsUri uri urns).bind fun found _ => ?_
    cases found <;> exact .ok _
  · split
    · exact .ok _
    · exact .crash (by decide)
  · split
    · exact .ok _
    · exact .crash (by decide)
  · exact .crash (by decide)

theorem crashesAt_declareAll_iff {uris : List String} :
    (declareAll uris).CrashesAt resource ↔ ∃ uri ∈ uris, resource.takesUri uri = false := by
  induction uris generalizing resource with
  | nil => exact iff_of_false (not_crashes_ok _) nofun
  | cons uri rest ih =>
      rw [declareAll, Action.crashesAt_bind_iff, crashesAt_declareSchema_iff]
      constructor
      · rintro (closed | ⟨_, after, ran, crashed⟩)
        · exact ⟨uri, List.mem_cons_self, closed⟩
        · obtain ⟨other, held, closed⟩ := ih.mp crashed
          rw [takesUri_declareSchema ran] at closed
          exact ⟨other, List.mem_cons_of_mem _ held, closed⟩
      · rintro ⟨other, held, closed⟩
        rcases ran : (declareSchema uri).run resource with ⟨failure | _, after⟩
        · refine .inl (crashesAt_declareSchema_iff.mp ?_)
          have crash := failsOnly_declareSchema uri resource failure (by rw [ran])
          rw [Action.CrashesAt, ran]
          exact crash
        · cases held with
          | head => exact .inl closed
          | tail _ inRest =>
              rw [← takesUri_declareSchema ran] at closed
              exact .inr ⟨(), after, rfl, ih.mpr ⟨other, inRest, closed⟩⟩

/-- What one member of a value without a path can stumble over in a resource: a URN that cannot be
declared, of those listed under `schemas`, or of a missing extension. -/
inductive MemberStumbles (schema : ResourceSchema) (key : String) (value : Json)
    (resource : Members) : Prop where
  | declaring {urns : List String} {uri : String} (isSchemas : Text.lower key = "schemas")
      (listed : listedUrns value = .ok urns) (held : uri ∈ urns)
      (closed : resource.takesUri uri = false)
  | extending (isUrn : key.toList.contains ':' = true) (isObject : value.isObj = true)
      (recognized : schema.recognizes key = true)
      (missing : homeFor resource (⟨some key, none, none, none⟩ : AttributePath) (some schema) =
        .ok none)
      (closed : (setAttr resource key (.obj [])).takesUri key = false)

/-- A text with a colon is no spelling of the name under which the URNs are declared. -/
theorem lower_ne_schemas {word : String} (colon : ':' ∈ word.toList) :
    Text.lower word ≠ "schemas" := by
  intro same
  have kept := Text.mem_lower (c := ':') (by decide) (by decide) colon
  rw [same] at kept
  exact absurd kept (by decide)

theorem sameName_schemas_of_colon {word : String} (colon : ':' ∈ word.toList) :
    sameName "schemas" word = false := by
  refine Bool.eq_false_iff.mpr fun same => ?_
  have spelled : Text.lower "schemas" = Text.lower word := (sameName_iff _ _).mp same
  exact lower_ne_schemas colon (spelled.symm.trans (by decide +kernel))

theorem not_crashes_listedUrns (value : Json) : ¬ Crashes (listedUrns value) := by
  unfold listedUrns
  dsimp only
  split
  · exact not_crashes_ok _
  · exact not_crashes_refuse _

theorem crashesAt_mergeMember_iff {op : PatchOp} {key : String} :
    (mergeMember (some schema) op key value).CrashesAt resource ↔
      MemberStumbles schema key value resource := by
  unfold mergeMember
  split
  · next isSchemas =>
    rw [Action.crashesAt_ofExcept_bind]
    constructor
    · rintro (crashed | ⟨urns, listed, crashed⟩)
      · exact absurd crashed (not_crashes_listedUrns value)
      · obtain ⟨uri, held, closed⟩ := crashesAt_declareAll_iff.mp crashed
        exact .declaring isSchemas listed held closed
    · rintro (⟨_, listed, held, closed⟩ | ⟨isUrn, _⟩)
      · exact .inr ⟨_, listed, crashesAt_declareAll_iff.mpr ⟨_, held, closed⟩⟩
      · exact absurd isSchemas (lower_ne_schemas (List.contains_iff_mem.mp isUrn))
  · next other =>
    split
    · next isExtension =>
      rw [Bool.and_eq_true] at isExtension
      rw [crashesAt_mergeExtension_iff]
      constructor
      · rintro ⟨recognized, missing, closed⟩
        exact .extending isExtension.1 isExtension.2 recognized missing closed
      · rintro (⟨isSchemas, _⟩ | ⟨_, _, recognized, missing, closed⟩)
        · exact absurd isSchemas other
        · exact ⟨recognized, missing, closed⟩
    · next noExtension =>
      refine iff_of_false ?_ ?_
      · split
        · rw [Action.crashesAt_get_bind]
          split
          · exact Action.not_crashesAt_pure _
          · exact not_crashes_refuse _
        · rw [Action.crashesAt_update_iff]
          split
          · exact not_crashes_pure _
          · exact (crashes_bind_of_safe fun _ => not_crashes_pure _).not.mpr
              (not_crashes_coerce _ _ _ _ _)
      · rintro (⟨isSchemas, _⟩ | ⟨isUrn, isObject, _⟩)
        · exact absurd isSchemas other
        · exact noExtension (by rw [isUrn, isObject]; rfl)

theorem mergeMembers_eq_forM (schema : Option ResourceSchema) (op : PatchOp)
    (values : List (String × Json)) :
    mergeMembers schema op values =
      forM values fun member => mergeMember schema op member.1 member.2 := by
  induction values with
  | nil => rfl
  | cons member rest ih => rw [mergeMembers, List.forM_cons, ih]

/-- Merging members crashes at the first that stumbles in the resource that those before it leave. -/
theorem crashesAt_mergeRoot_iff {op : PatchOp} :
    (mergeRoot (some schema) op value).CrashesAt resource ↔
      ∃ before key item rest middle, op ≠ .remove ∧ value = .obj (before ++ (key, item) :: rest) ∧
        (mergeMembers (some schema) op before).run resource = (.ok (), middle) ∧
          MemberStumbles schema key item middle := by
  have merges (values : List (String × Json)) :
      (mergeMembers (some schema) op values).CrashesAt resource ↔
        ∃ before key item rest middle, values = before ++ (key, item) :: rest ∧
          (mergeMembers (some schema) op before).run resource = (.ok (), middle) ∧
            MemberStumbles schema key item middle := by
    simp only [mergeMembers_eq_forM]
    rw [Action.crashesAt_forM_iff]
    constructor
    · rintro ⟨before, ⟨key, item⟩, rest, middle, whole, reached, crashed⟩
      exact ⟨before, key, item, rest, middle, whole, reached, crashesAt_mergeMember_iff.mp crashed⟩
    · rintro ⟨before, key, item, rest, middle, whole, reached, stumbles⟩
      exact ⟨before, (key, item), rest, middle, whole, reached,
        crashesAt_mergeMember_iff.mpr stumbles⟩
  unfold mergeRoot
  rw [Action.crashesAt_ofExcept_bind]
  constructor
  · rintro (crashed | ⟨values, held, crashed⟩)
    · unfold rootMembers at crashed
      split at crashed <;> exact crashed.elim
    · obtain ⟨before, key, item, rest, middle, rfl, reached, stumbles⟩ := (merges values).mp crashed
      unfold rootMembers at held
      split at held
      · cases held
      · next notRemoved =>
        cases held
        exact ⟨before, key, item, rest, middle, notRemoved, rfl, reached, stumbles⟩
      · cases held
  · rintro ⟨before, key, item, rest, middle, merging, rfl, reached, stumbles⟩
    refine .inr ⟨_, ?_, (merges _).mpr ⟨before, key, item, rest, middle, rfl, reached, stumbles⟩⟩
    cases op with
    | remove => exact absurd rfl merging
    | _ => rfl

end Patch

/-! ## Paths -/

namespace PathOf

/-- A path without an attribute is a URN of the registry, which has a colon. -/
theorem registered_of_parse {text : String} (parsed : PathOf.parse text = .ok path)
    (whole : path.attr = none) :
    ∃ uri, path.uri = some uri ∧ ':' ∈ uri.toList ∧ (Schema.find? uri).isSome = true := by
  obtain ⟨trimmed, read⟩ := parse_eq_ok parsed
  obtain ⟨c, rest, _, first, _, _, _, split, read⟩ := read_eq_ok trimmed.starts read
  obtain ⟨uriEq, attrEq⟩ := behind_keeps read
  rw [whole] at attrEq
  rw [split?_eq] at split
  split at split
  · next registered =>
    rw [Bool.and_eq_true, List.contains_iff_mem] at registered
    cases split
    exact ⟨_, uriEq, registered⟩
  · split at split
    all_goals
      obtain ⟨names, _, rfl⟩ := Option.map_eq_some_iff.mp split
      cases attrEq

theorem uri_of_parse {text : String} (parsed : PathOf.parse text = .ok path)
    (whole : path.attr = none) : ∃ uri, path.uri = some uri ∧ ':' ∈ uri.toList := by
  obtain ⟨uri, uriEq, colon, _⟩ := registered_of_parse parsed whole
  exact ⟨uri, uriEq, colon⟩

/-- A path cannot be read, and is not refused either, if an integer in it is too long. -/
theorem crashes_parse_iff {text : String} :
    Crashes (PathOf.parse text) ↔ PathOf.read (Text.trim text) = .error .integerTooLong := by
  unfold PathOf.parse
  split
  · next empty =>
    rw [empty]
    exact iff_of_false (not_crashes_refuse _) nofun
  · split
    · next read => exact iff_of_false (not_crashes_ok _) (by rw [read]; nofun)
    · next read => exact iff_of_false (not_crashes_refuse _) (by rw [read]; nofun)
    · next read => exact iff_of_false (fun crashed => crashed rfl) (by rw [read]; nofun)
    · next read => exact iff_of_true (crashes_failWith (by decide)) read

end PathOf

/-! ## Change requests -/

namespace Patch

theorem not_crashes_checkMutable : ¬ Crashes (checkMutable (some schema) path) := by
  unfold checkMutable
  split
  · dsimp only
    split
    · split <;> exact not_crashes_refuse _
    · split
      · exact not_crashes_ok _
      · exact not_crashes_ok _
      · split
        · exact not_crashes_refuse _
        · exact not_crashes_ok _
  · exact not_crashes_ok _

end Patch

namespace PatchOperation

variable {operation : PatchOperation}

/-- What an operation can stumble over in a resource: an over-long integer in its path, what it comes
to at its path, or a member of its value, in the resource that the members before it leave. -/
inductive Stumbles (schema : ResourceSchema) (operation : PatchOperation) (resource : Members) :
    Prop where
  | reading {text : String} (textEq : operation.path = some text)
      (tooLong : PathOf.read (Text.trim text) = .error .integerTooLong)
  | changing {text : String} {path : AttributePath} (textEq : operation.path = some text)
      (aimed : target (some schema) text = .ok path)
      (stumbles : Patch.StumblesAt schema operation.op path resource)
  | merging {before : Members} {key : String} {item : Json} {rest middle : Members}
      (noPath : operation.path = none) (sets : operation.op ≠ .remove)
      (valueEq : operation.value = .obj (before ++ (key, item) :: rest))
      (reached : (Patch.mergeMembers (some schema) operation.op before).run resource =
        (.ok (), middle))
      (stumbles : Patch.MemberStumbles schema key item middle)

theorem crashes_target_iff {text : String} :
    Crashes (target (some schema) text) ↔
      PathOf.read (Text.trim text) = .error .integerTooLong := by
  rw [target, crashes_bind_of_safe, PathOf.crashes_parse_iff]
  exact fun path => (crashes_bind_of_safe fun _ => not_crashes_pure _).not.mpr
    Patch.not_crashes_checkMutable

/-- Behind a path that a client may change, a whole schema has a URN that is no spelling of the name
under which the URNs are declared. -/
theorem uri_of_target {text : String} (aimed : target (some schema) text = .ok path)
    (whole : path.attr = none) : ∃ uri, path.uri = some uri ∧ sameName "schemas" uri = false := by
  obtain ⟨_, parsed, checked⟩ := bind_eq_ok_iff.mp aimed
  obtain ⟨_, _, is⟩ := bind_eq_ok_iff.mp checked
  cases is
  obtain ⟨uri, uriEq, colon⟩ := PathOf.uri_of_parse parsed whole
  exact ⟨uri, uriEq, Patch.sameName_schemas_of_colon colon⟩

theorem crashesAt_aimed_iff {text : String} {change : AttributePath → Change Unit}
    (pathEq : operation.path = some text)
    (changes : ∀ path, target (some schema) text = .ok path →
      ((change path).CrashesAt resource ↔ Patch.StumblesAt schema operation.op path resource)) :
    (Action.ofExcept (target (some schema) text) >>= change).CrashesAt resource ↔
      operation.Stumbles schema resource := by
  rw [Action.crashesAt_ofExcept_bind, crashes_target_iff]
  constructor
  · rintro (tooLong | ⟨path, aimed, crashed⟩)
    · exact .reading pathEq tooLong
    · exact .changing pathEq aimed ((changes path aimed).mp crashed)
  · rintro (⟨textEq, tooLong⟩ | ⟨textEq, aimed, stumbles⟩ | ⟨noPath, _⟩)
    · obtain rfl := Option.some.inj (pathEq.symm.trans textEq)
      exact .inl tooLong
    · obtain rfl := Option.some.inj (pathEq.symm.trans textEq)
      exact .inr ⟨_, aimed, (changes _ aimed).mpr stumbles⟩
    · rw [pathEq] at noPath
      cases noPath

/-- An operation crashes on a resource exactly if it stumbles over something there. -/
theorem crashesAt_apply_iff :
    (operation.apply (some schema)).CrashesAt resource ↔ operation.Stumbles schema resource := by
  unfold apply
  obtain pathEq | ⟨text, pathEq⟩ := Option.eq_none_or_eq_some operation.path
  · rw [pathEq]
    dsimp only
    rw [Patch.crashesAt_mergeRoot_iff]
    constructor
    · rintro ⟨before, key, item, rest, middle, sets, valueEq, reached, stumbles⟩
      exact .merging pathEq sets valueEq reached stumbles
    · rintro (⟨textEq, _⟩ | ⟨textEq, _⟩ | ⟨_, sets, valueEq, reached, stumbles⟩)
      · rw [pathEq] at textEq
        cases textEq
      · rw [pathEq] at textEq
        cases textEq
      · exact ⟨_, _, _, _, _, sets, valueEq, reached, stumbles⟩
  · rw [pathEq]
    refine crashesAt_aimed_iff pathEq fun path aimed => ?_
    cases operation.op with
    | add => exact Patch.crashesAt_add_iff (uri_of_target aimed)
    | replace => exact Patch.crashesAt_replace_iff (uri_of_target aimed)
    | remove => exact Patch.crashesAt_remove_iff (uri_of_target aimed)

end PatchOperation

/-! ## Requests -/

theorem PatchOperation.not_crashes_ofJson (data : Json) (index : Int) :
    ¬ Crashes (ofJson data index) := by
  unfold ofJson
  split
  · split
    · split
      · dsimp only
        split
        case h_4 => exact not_crashes_refuse _
        all_goals
          refine (crashes_bind_of_safe fun path => ?_).not.mpr (not_crashes_pure _)
          split <;> split <;> first | exact not_crashes_pure _ | exact not_crashes_refuse _
      · exact not_crashes_refuse _
    · exact not_crashes_refuse _
  · exact not_crashes_refuse _

theorem PatchOperation.not_crashes_ofItems (index : Int) (items : List Json) :
    ¬ Crashes (ofItems index items) := by
  induction items generalizing index with
  | nil => exact not_crashes_ok _
  | cons item rest ih =>
      rw [ofItems, crashes_bind_of_safe]
      · exact not_crashes_ofJson item index
      · exact fun _ => (crashes_bind_of_safe fun _ => not_crashes_pure _).not.mpr (ih _)

/-- A change request is read or refused. -/
theorem PatchOperation.not_crashes_ofRequest (body : Json) : ¬ Crashes (ofRequest body) := by
  unfold ofRequest
  split
  · extract_lets declared
    split
    · exact not_crashes_refuse _
    · split
      · exact not_crashes_ofItems _ _
      · exact not_crashes_refuse _
  · exact not_crashes_refuse _

theorem PatchEntry.applyEntries_ready (schema : Option ResourceSchema) (index : Int)
    (operations : List PatchOperation) :
    applyEntries schema index (operations.map .ready) =
      forM operations fun operation => operation.apply schema := by
  induction operations generalizing index with
  | nil => rfl
  | cons operation rest ih =>
      rw [List.forM_cons, ← ih (index + 1)]
      rfl

theorem applyPatch_ready_eq_ok_iff {operations : List PatchOperation} {result : Members} :
    applyPatch resource (operations.map .ready) (some schema) = .ok result ↔
      (forM operations fun operation => operation.apply (some schema) : Change PUnit).run resource =
        (.ok ⟨⟩, result) := by
  rw [applyPatch_eq_ok_iff, PatchEntry.applyEntries_ready]

theorem crashes_applyPatch_iff {operations : List PatchOperation} :
    Crashes (applyPatch resource (operations.map .ready) (some schema)) ↔
      ∃ before operation after middle, operations = before ++ operation :: after ∧
        applyPatch resource (before.map .ready) (some schema) = .ok middle ∧
          operation.Stumbles schema middle := by
  simp only [applyPatch_ready_eq_ok_iff]
  rw [applyPatch_eq, crashes_map_iff, PatchEntry.applyEntries_ready]
  change Action.CrashesAt _ resource ↔ _
  rw [Action.crashesAt_forM_iff]
  simp only [PatchOperation.crashesAt_apply_iff]

/-- Reading a change request and applying it to a resource has a result or is refused, exactly if no
operation stumbles in the resource that those before it leave. -/
theorem not_crashes_patch_iff (schema : ResourceSchema) (resource : Members) (body : Json) :
    ¬ Crashes (PatchOperation.ofRequest body >>= fun operations =>
        applyPatch resource (operations.map .ready) (some schema)) ↔
      ∀ before operation after middle,
        PatchOperation.ofRequest body = .ok (before ++ operation :: after) →
        applyPatch resource (before.map .ready) (some schema) = .ok middle →
        ¬ operation.Stumbles schema middle := by
  rw [crashes_bind_iff, or_iff_right (PatchOperation.not_crashes_ofRequest body)]
  simp only [crashes_applyPatch_iff]
  constructor
  · rintro safe before operation after middle read applied stumbles
    exact safe ⟨_, read, before, operation, after, middle, rfl, applied, stumbles⟩
  · rintro safe ⟨_, read, before, operation, after, middle, rfl, applied, stumbles⟩
    exact safe before operation after middle read applied stumbles

/-- Not every change request is applied or refused where the resource declares its URNs in a list of
texts: the request may put a number into the list and then need a URN that is not there. -/
theorem not_patch_safe :
    ¬ ∀ (resource : Members) (urns : List String) (body : Json),
      get? resource "schemas" = some (.arr (urns.map .str)) →
      ¬ Crashes (PatchOperation.ofRequest body >>= fun operations =>
        applyPatch resource (operations.map .ready) (some .user)) := by
  intro safe
  refine safe [("schemas", .arr [.str userUrn]), ("userName", .str "a")] [userUrn]
    (.obj [("schemas", .arr [.str patchOpUrn]), ("Operations", .arr
      [.obj [("op", .str "replace"), ("path", .str "schemas"), ("value", .arr [.int 5])],
        .obj [("op", .str "add"), ("value", .obj [(enterpriseUserUrn,
          .obj [("department", .str "x")])])]])]) rfl ?_
  decide +kernel

end Scim
