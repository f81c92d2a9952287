import Scim.Proofs.Filter.Crashing
import Scim.Proofs.Patch.Commuting
import Scim.Proofs.Patch.Homes

/-!
# Operations at a path that crash

An operation at a path looks for the object that holds the attribute, creates it if it is
missing, and decides for an edit of the attribute.  The first two ask the resource for the
URNs that it declares, and add one to them; the last asks a filter about the elements of a
list.  Where what the resource has for its URNs is not made for that, or where the filter
crashes, so does the operation, and nowhere else.
-/

namespace Scim

open Members

variable {schema : ResourceSchema} {path : AttributePath} {attr sub uri : String}
  {value current : Json} {resource after : Members} {home : Home}

/-! ## What is declared -/

namespace Json

/-- Whether a value has items that can be listed, or stands for nothing. -/
def isListed : Json → Bool
  | .bool b => !b
  | .int n => n == 0
  | .double d => d.isZero
  | _ => true

/-- Whether what a value lists are texts. -/
def listsTexts : Json → Bool
  | .arr items => items.all (·.isStr)
  | value => value.isListed

/-- Whether a URN can be declared in a value: a list takes it in, unless something else than a
text comes before the URN, and anything else has it already. -/
def takesUri (uri : String) : Json → Bool
  | .arr urns => (urns.takeWhile fun u => !u.text?.any (sameName · uri)).all (·.isStr)
  | .str s => s.toList.any fun c => sameName (String.singleton c) uri
  | .obj members => (names members).any (sameName · uri)
  | _ => false

theorem crashes_listed_iff : Crashes value.listed ↔ value.isListed = false := by
  unfold listed
  split
  · next void =>
    refine iff_of_false (not_crashes_ok _) ?_
    cases value <;> simp_all [isVoid, isListed]
  · next filled =>
    cases value with
    | null => exact absurd rfl filled
    | arr items => exact iff_of_false (not_crashes_ok _) (by simp [isListed])
    | obj members => exact iff_of_false (not_crashes_ok _) (by simp [isListed])
    | str s => exact iff_of_false (not_crashes_ok _) (by simp [isListed])
    | _ =>
        refine iff_of_true (crashes_failWith (by decide)) ?_
        simpa [isVoid, isListed] using filled

theorem listsTexts_iff (value : Json) :
    value.isListed = false ∨ (∃ items, value.listed = .ok items ∧ items.all (·.isStr) = false) ↔
      value.listsTexts = false := by
  unfold listed
  cases void : value.isVoid with
  | true => cases value <;> simp_all [isVoid, isListed, listsTexts]
  | false =>
      cases value with
      | arr items => simp [isListed, listsTexts]
      | obj members => simp [isListed, listsTexts, isStr]
      | str s => simp [isListed, listsTexts, isStr]
      | null => cases void
      | _ => simp_all [isVoid, isListed, listsTexts]

end Json

/-- Whether a URN can be declared on a resource; if it has no list of declared URNs, it gets one. -/
def Members.takesUri (resource : Members) (uri : String) : Bool :=
  ((get? resource "schemas").getD (.arr [])).takesUri uri

/-- Whether a URN is one of a schema or of the registry. -/
def ResourceSchema.recognizes (schema : ResourceSchema) (uri : String) : Bool :=
  schema.knowsUri uri || (Schema.find? uri).isSome

theorem crashes_checkUri_iff :
    Crashes (checkUri resource uri (some schema)) ↔
      schema.recognizes uri = false ∧ resource.schemasValue.isListed = false := by
  unfold checkUri
  rw [Option.any_some]
  change Crashes (if schema.recognizes uri = true then _ else _) ↔ _
  cases schema.recognizes uri with
  | true => exact iff_of_false (not_crashes_ok _) nofun
  | false =>
      rw [if_neg Bool.false_ne_true, eq_self, true_and, crashes_bind_of_safe, declares,
        crashes_bind_of_safe fun _ => not_crashes_pure _]
      · exact Json.crashes_listed_iff
      · intro declared
        cases declared
        · exact not_crashes_refuse _
        · exact not_crashes_ok _

theorem crashes_homeFor_iff :
    Crashes (homeFor resource path (some schema)) ↔
      ∃ uri, path.uri = some uri ∧ schema.recognizes uri = false ∧
        resource.schemasValue.isListed = false := by
  cases uriEq : path.uri with
  | none =>
      rw [homeFor, uriEq]
      refine iff_of_false (not_crashes_ok _) ?_
      rintro ⟨_, ⟨⟩, _⟩
  | some uri =>
      simp only [Option.some.injEq, exists_eq_left']
      rw [homeFor_of_uri uriEq, crashes_bind_of_safe, crashes_checkUri_iff]
      intro _
      rw [Option.any_some]
      cases sameName schema.urn uri with
      | true => exact not_crashes_ok _
      | false => cases (Members.attr resource uri).isObj <;> exact not_crashes_ok _

namespace Patch

theorem crashes_holdsUri_iff {urns : List Json} :
    Crashes (holdsUri uri urns) ↔ (Json.arr urns).takesUri uri = false := by
  unfold Json.takesUri
  dsimp only
  induction urns with
  | nil => exact iff_of_false (not_crashes_ok _) (by simp)
  | cons head rest ih =>
      cases head with
      | str u =>
          have same : (Json.str u).text?.any (sameName · uri) = sameName u uri := rfl
          rw [holdsUri, List.takeWhile_cons, same]
          cases sameName u uri with
          | true => exact iff_of_false (not_crashes_ok _) (by simp)
          | false =>
              rw [if_neg Bool.false_ne_true, ih]
              simp [Json.isStr]
      | _ =>
          refine iff_of_true (crashes_failWith (by decide)) ?_
          simp [Json.text?, Json.isStr]

theorem takesUri_of_texts {urns : List Json} (texts : urns.all (·.isStr) = true) (uri : String) :
    (Json.arr urns).takesUri uri = true := by
  rw [List.all_eq_true] at texts
  exact List.all_eq_true.mpr fun u held => texts u ((List.takeWhile_sublist _).subset held)

theorem crashesAt_declareSchema_iff :
    (declareSchema uri).CrashesAt resource ↔ resource.takesUri uri = false := by
  have held : (get? (if (get? resource "schemas").isNone then set resource "schemas" (.arr [])
      else resource) "schemas").getD .null = (get? resource "schemas").getD (.arr []) := by
    cases found : get? resource "schemas" with
    | none => simp [get?_set]
    | some value => simp [found]
  unfold declareSchema
  rw [Action.crashesAt_modify_bind, Action.crashesAt_update_iff, held, Members.takesUri]
  generalize (get? resource "schemas").getD (.arr []) = schemas
  cases schemas with
  | arr urns =>
      dsimp only
      rw [crashes_bind_of_safe, crashes_holdsUri_iff]
      intro found
      cases found <;> exact not_crashes_ok _
  | str s =>
      dsimp only [Json.takesUri]
      split
      · next found => exact iff_of_false (not_crashes_ok _) (by simp [found])
      · next missing => exact iff_of_true (crashes_failWith (by decide)) (by simpa using missing)
  | obj members =>
      dsimp only [Json.takesUri]
      split
      · next found => exact iff_of_false (not_crashes_ok _) (by simp [found])
      · next missing => exact iff_of_true (crashes_failWith (by decide)) (by simpa using missing)
  | _ => exact iff_of_true (crashes_failWith (by decide)) rfl

theorem run_ensureHome_of_found (found : homeFor resource path (some schema) = .ok (some home)) :
    (ensureHome (some schema) path).run resource = (.ok home, resource) := by
  rw [ensureHome, Action.run_bind, Action.run_examine, found]
  rfl

/-- Looking for a home and creating it crash if the declared URNs, asked whether the URN is one of
them, cannot be listed, or if the URN of a missing home cannot be declared. -/
theorem crashesAt_ensureHome_iff :
    (ensureHome (some schema) path).CrashesAt resource ↔
      Crashes (homeFor resource path (some schema)) ∨
        homeFor resource path (some schema) = .ok none ∧
          (setAttr resource (path.uri.getD "") (.obj [])).takesUri (path.uri.getD "") = false := by
  unfold ensureHome
  rw [Action.crashesAt_examine_bind]
  refine or_congr Iff.rfl ⟨?_, ?_⟩
  · rintro ⟨home?, found, crashed⟩
    cases home? with
    | some home => exact crashed.elim
    | none =>
        refine ⟨found, crashesAt_declareSchema_iff.mp ?_⟩
        rw [Action.crashesAt_get_bind, Action.crashesAt_modify_bind] at crashed
        exact (Action.crashesAt_bind_of_safe fun _ _ => Action.not_crashesAt_pure _).mp crashed
  · rintro ⟨found, closed⟩
    refine ⟨none, found, ?_⟩
    rw [Action.crashesAt_get_bind, Action.crashesAt_modify_bind]
    exact (Action.crashesAt_bind_of_safe fun _ _ => Action.not_crashesAt_pure _).mpr
      (crashesAt_declareSchema_iff.mpr closed)

/-! ## Decisions -/

/-- Whether the restriction of a path stumbles on an element of a list, which is what the attribute
of the path has. -/
def SelectionStumbles (schema : ResourceSchema) (path : AttributePath) (current : Json) : Prop :=
  ∃ filter items element, path.restriction = some filter ∧ current = .arr items ∧
    .obj element ∈ items ∧ filter.Stumbles (.within (some schema) path) element

theorem not_crashes_coerce (schema : Option ResourceSchema) (attr : String)
    (sub uri : Option String) (value : Json) : ¬ Crashes (coerce schema attr sub uri value) := by
  unfold coerce
  extract_lets name
  split
  · exact not_crashes_ok _
  · split
    · split
      · exact not_crashes_ok _
      · split
        · exact not_crashes_ok _
        · split
          · exact not_crashes_ok _
          · exact not_crashes_refuse _
      · exact not_crashes_refuse _
    · split
      · exact not_crashes_ok _
      · exact not_crashes_refuse _
    · split
      · split
        · split
          · exact not_crashes_refuse _
          · exact not_crashes_ok _
        · exact not_crashes_refuse _
      · exact not_crashes_ok _
    · exact not_crashes_ok _

theorem crashes_selection_iff {filter : Filter} (restricted : path.restriction = some filter) :
    Crashes (selection (some schema) path filter current) ↔
      SelectionStumbles schema path current := by
  unfold SelectionStumbles
  cases current with
  | arr items =>
      rw [selection, crashes_map_iff, crashes_matchingIndexes_iff]
      constructor
      · rintro ⟨element, held, stumbles⟩
        exact ⟨filter, items, element, restricted, rfl, held, stumbles⟩
      · rintro ⟨other, _, element, otherEq, ⟨⟩, held, stumbles⟩
        obtain rfl : filter = other := Option.some.inj (restricted.symm.trans otherEq)
        exact ⟨element, held, stumbles⟩
  | null =>
      refine iff_of_false (not_crashes_ok _) ?_
      rintro ⟨_, _, _, _, ⟨⟩, _⟩
  | _ =>
      refine iff_of_false (not_crashes_refuse _) ?_
      rintro ⟨_, _, _, _, ⟨⟩, _⟩

theorem not_selectionStumbles (unrestricted : path.restriction = none) :
    ¬ SelectionStumbles schema path current := by
  rintro ⟨filter, _, _, restricted, _⟩
  rw [unrestricted] at restricted
  cases restricted

theorem not_crashes_settingAt (indexes : List Nat) :
    ¬ Crashes (settingAt (some schema) path attr sub value indexes current) :=
  (crashes_bind_of_safe fun _ => not_crashes_pure _).not.mpr (not_crashes_coerce _ _ _ _ _)

theorem not_crashes_settingSub (merge : Bool) :
    ¬ Crashes (settingSub (some schema) path attr sub merge value current) := by
  refine (crashes_bind_of_safe fun typed => ?_).not.mpr (not_crashes_coerce _ _ _ _ _)
  cases current with
  | null => exact not_crashes_pure _
  | arr items => exact not_crashes_pure _
  | obj members => exact not_crashes_pure _
  | _ => exact not_crashes_refuse _

theorem not_crashes_settingSingle (uri : Option String) :
    ¬ Crashes (settingSingle (some schema) uri attr value current) := by
  unfold settingSingle
  split
  · exact not_crashes_pure _
  · exact (crashes_bind_of_safe fun _ => not_crashes_pure _).not.mpr (not_crashes_coerce _ _ _ _ _)

/-- What adding a value decides crashes only where elements are selected. -/
theorem crashes_addition_iff :
    Crashes (addition (some schema) path attr value current) ↔
      SelectionStumbles schema path current := by
  unfold addition
  split
  · next filter sub restricted _ =>
    rw [crashes_bind_of_safe, crashes_selection_iff restricted]
    intro indexes
    cases indexes with
    | nil => exact not_crashes_refuse _
    | cons index rest => exact not_crashes_settingAt _
  · next filter restricted _ =>
    rw [crashes_bind_of_safe, crashes_selection_iff restricted]
    intro indexes
    cases indexes <;> exact not_crashes_pure _
  · next unrestricted _ =>
    exact iff_of_false (not_crashes_settingSub true) (not_selectionStumbles unrestricted)
  · next unrestricted _ =>
    refine iff_of_false ?_ (not_selectionStumbles unrestricted)
    split
    · exact not_crashes_pure _
    · exact not_crashes_settingSingle _

theorem crashes_replacement_iff :
    Crashes (replacement (some schema) path attr value current) ↔
      SelectionStumbles schema path current := by
  unfold replacement
  split
  · next filter sub restricted =>
    rw [crashes_bind_of_safe, crashes_selection_iff restricted]
    intro indexes
    cases indexes with
    | nil => exact not_crashes_refuse _
    | cons index rest =>
        cases path.sub with
        | none => exact not_crashes_pure _
        | some sub => exact not_crashes_settingAt _
  · next unrestricted _ =>
    exact iff_of_false (not_crashes_settingSub false) (not_selectionStumbles unrestricted)
  · next unrestricted _ =>
    refine iff_of_false ?_ (not_selectionStumbles unrestricted)
    split
    · exact not_crashes_pure _
    · exact not_crashes_settingSingle _

theorem crashes_removal_iff :
    Crashes (removal (some schema) path value current) ↔ SelectionStumbles schema path current := by
  unfold removal
  split
  · next null =>
    refine iff_of_false (not_crashes_ok _) ?_
    rintro ⟨_, _, _, _, rfl, _⟩
    cases null
  · split
    · next filter restricted =>
      rw [crashes_bind_of_safe, crashes_selection_iff restricted]
      intro indexes
      split <;> exact not_crashes_pure _
    · next unrestricted _ =>
      exact iff_of_false (not_crashes_ok _) (not_selectionStumbles unrestricted)
    · next unrestricted _ =>
      exact iff_of_false (not_crashes_ok _) (not_selectionStumbles unrestricted)

theorem Decided.crashes_iff {decision : Except Failure AttrEdit}
    {outcome : Except Failure Unit × Members} (decided : Decided home attr resource decision outcome) :
    Crashes outcome.1 ↔ Crashes decision := by
  cases decided <;> rfl

/-! ## Extensions -/

theorem crashesAt_updateHome_iff {step : Members → Except Failure Members} :
    (updateHome home step).CrashesAt resource ↔ Crashes (step (home.members resource)) := by
  rw [updateHome, Action.crashesAt_update_iff, crashes_bind_of_safe fun _ => not_crashes_pure _]

theorem not_crashesAt_setExtension (home : Home) (values : Members) (resource : Members) :
    ¬ (setExtension (some schema) uri home values).CrashesAt resource := by
  induction values generalizing resource with
  | nil => exact Action.not_crashesAt_pure _
  | cons member rest ih =>
      rw [setExtension, Action.crashesAt_bind_of_safe fun _ after => ih after,
        crashesAt_updateHome_iff, setChecked, crashes_bind_of_safe fun _ => not_crashes_pure _]
      exact not_crashes_coerce _ _ _ _ _

/-- Merging into an extension crashes only where its object is created. -/
theorem crashesAt_mergeExtension_iff {values : Members} :
    (mergeExtension (some schema) uri values).CrashesAt resource ↔
      schema.recognizes uri = true ∧
        homeFor resource (⟨some uri, none, none, none⟩ : AttributePath) (some schema) = .ok none ∧
          (setAttr resource uri (.obj [])).takesUri uri = false := by
  have checked : checkExtension (some schema) uri =
      if schema.recognizes uri then .ok () else refuse (.invalidPath "Unknown schema URI" uri) := by
    unfold checkExtension ResourceSchema.recognizes
    rw [Option.any_some]
    cases schema.knowsUri uri <;> cases Schema.find? uri <;> rfl
  have looked (known : schema.recognizes uri = true) : ¬ Crashes (homeFor resource
      (⟨some uri, none, none, none⟩ : AttributePath) (some schema)) := by
    rw [crashes_homeFor_iff]
    rintro ⟨_, ⟨⟩, unknown, _⟩
    rw [known] at unknown
    cases unknown
  have passed : (Action.ofExcept (.ok ()) : Change Unit).run resource = (.ok (), resource) := rfl
  unfold mergeExtension
  rw [checked]
  cases known : schema.recognizes uri with
  | false =>
      refine iff_of_false (not_crashes_refuse _) ?_
      rintro ⟨⟨⟩, _⟩
  | true =>
      rw [if_pos rfl, eq_self, true_and, Action.crashesAt_bind_of_ok passed]
      rw [Action.crashesAt_bind_of_safe, crashesAt_ensureHome_iff, or_iff_right (looked known)]
      · rfl
      · intro home after
        cases home with
        | core => exact not_crashes_ok ()
        | extension key => exact not_crashesAt_setExtension _ _ _

theorem crashesAt_mergeWhole_iff :
    (mergeWhole (some schema) uri value).CrashesAt resource ↔
      ∃ values, value = .obj values ∧
        (mergeExtension (some schema) uri values).CrashesAt resource := by
  unfold mergeWhole
  rw [Action.crashesAt_ofExcept_bind]
  cases value with
  | obj values => simp [extensionMembers]
  | _ =>
      refine iff_of_false ?_ ?_
      · rintro (crashed | ⟨_, ⟨⟩, _⟩)
        exact crashed
      · rintro ⟨_, ⟨⟩, _⟩

/-- An extension stays under the spelling of its URN when its home is ensured, unless the URN is a
spelling of the name under which the URNs are declared. -/
theorem place_ensured (uriEq : path.uri = some uri) (other : sameName "schemas" uri = false)
    (ensured : (ensureHome (some schema) path).run resource = (.ok home, after)) :
    place after uri = place resource uri := by
  rcases ensureHome_cases ensured with ⟨_, rfl⟩ | ⟨_, isUri, _, _, declares⟩
  · rfl
  · cases uriEq.symm.trans isUri
    rw [← place_setAttr resource uri (.obj [])]
    rcases declareSchema_eq declares with rfl | ⟨value, rfl⟩
    · rfl
    · apply place_congr
      rw [spellings_set, other, if_neg Bool.false_ne_true]

/-- Behind a home that was ensured, the object under the URN is not missing. -/
theorem homeFor_ensured (uriEq : path.uri = some uri) (other : sameName "schemas" uri = false)
    (ensured : (ensureHome (some schema) path).run resource = (.ok home, after)) :
    homeFor after (⟨some uri, none, none, none⟩ : AttributePath) (some schema) ≠ .ok none := by
  intro missing
  have lacking := eq_of_homeFor rfl missing
  obtain ⟨is, there, _⟩ := ensureHome_eq ensured
  rw [uriEq, addressed, Option.getD_some, ← place_ensured uriEq other ensured] at is
  cases core : isCoreHome (some schema) after (some uri) with
  | true =>
      rw [core] at lacking
      cases lacking
  | false =>
      have core' : isCoreHome (some schema) resource (some uri) = false := core
      rw [core', if_neg Bool.false_ne_true] at is
      subst is
      obtain ⟨members, held⟩ := there
      rw [core, Members.attr, ← get?_place, held] at lacking
      cases lacking

/-! ## Operations at a path -/

/-- What an operation at a path can stumble over in a resource: declared URNs that cannot be listed,
when it looks for an unknown URN among them; the URN of a missing extension that cannot be declared;
declared URNs that are no texts, when one is withdrawn; and an element of a list on which the
restriction of the path crashes. -/
inductive StumblesAt (schema : ResourceSchema) (op : PatchOp) (path : AttributePath)
    (resource : Members) : Prop where
  | listing {uri : String} (uriEq : path.uri = some uri) (unknown : schema.recognizes uri = false)
      (unlisted : resource.schemasValue.isListed = false)
  | declaring {uri : String} (sets : op ≠ .remove) (uriEq : path.uri = some uri)
      (missing : homeFor resource path (some schema) = .ok none)
      (closed : (setAttr resource uri (.obj [])).takesUri uri = false)
  | withdrawing {uri : String} {home : Home} (removes : op = .remove) (whole : path.attr = none)
      (uriEq : path.uri = some uri) (found : homeFor resource path (some schema) = .ok (some home))
      (mixed : (delAttr resource uri).schemasValue.listsTexts = false)
  | selecting {attr : String} {home : Home} (attrEq : path.attr = some attr)
      (found : homeFor resource path (some schema) = .ok (some home))
      (stumbles : SelectionStumbles schema path (Members.attr (home.members resource) attr))

/-- On a resource that declares texts an operation at a path stumbles over nothing but an element of
a list, unless the URN of the path is a spelling of the name under which the URNs are declared. -/
theorem StumblesAt.of_texts {op : PatchOp} {urns : List Json}
    (declared : get? resource "schemas" = some (.arr urns)) (texts : urns.all (·.isStr) = true)
    (stumbles : StumblesAt schema op path resource) :
    (∃ uri, path.uri = some uri ∧ sameName uri "schemas" = true) ∨
      ∃ attr home, path.attr = some attr ∧
        homeFor resource path (some schema) = .ok (some home) ∧
          SelectionStumbles schema path (Members.attr (home.members resource) attr) := by
  have self : sameName "schemas" "schemas" = true := sameName_refl _
  have kept {other : Members} (same : spellings other "schemas" = spellings resource "schemas") :
      get? other "schemas" = some (.arr urns) := by
    rw [← get?_spellings self, same, get?_spellings self, declared]
  cases stumbles with
  | listing _ _ unlisted =>
      rw [schemasValue, declared] at unlisted
      cases unlisted
  | @declaring uri _ uriEq _ closed =>
      cases spelled : sameName uri "schemas" with
      | true => exact .inl ⟨uri, uriEq, spelled⟩
      | false =>
          rw [Members.takesUri, kept (spellings_setAttr_of_differ _ spelled _), Option.getD_some,
            takesUri_of_texts texts] at closed
          cases closed
  | @withdrawing uri _ _ _ uriEq _ mixed =>
      cases spelled : sameName uri "schemas" with
      | true => exact .inl ⟨uri, uriEq, spelled⟩
      | false =>
          rw [schemasValue, kept (spellings_delAttr _ spelled), Option.getD_some, Json.listsTexts,
            texts] at mixed
          cases mixed
  | selecting attrEq found stumbles => exact .inr ⟨_, _, attrEq, found, stumbles⟩

/-- Ensuring a home stumbles over the declared URNs. -/
theorem crashesAt_ensureHome_iff_stumbles {op : PatchOp} (sets : op ≠ .remove) :
    (ensureHome (some schema) path).CrashesAt resource ∨
        (∃ attr home, path.attr = some attr ∧
          homeFor resource path (some schema) = .ok (some home) ∧
            SelectionStumbles schema path (Members.attr (home.members resource) attr)) ↔
      StumblesAt schema op path resource := by
  rw [crashesAt_ensureHome_iff, crashes_homeFor_iff]
  constructor
  · rintro ((⟨uri, uriEq, unknown, unlisted⟩ | ⟨missing, closed⟩) |
      ⟨attr, home, attrEq, found, stumbles⟩)
    · exact .listing uriEq unknown unlisted
    · obtain ⟨is, _⟩ | ⟨_, uri, uriEq, _⟩ := homeFor_eq_ok missing
      · cases is
      · rw [uriEq, Option.getD_some] at closed
        exact .declaring sets uriEq missing closed
    · exact .selecting attrEq found stumbles
  · rintro (⟨uriEq, unknown, unlisted⟩ | ⟨_, uriEq, missing, closed⟩ | ⟨removes, _⟩ |
      ⟨attrEq, found, stumbles⟩)
    · exact .inl (.inl ⟨_, uriEq, unknown, unlisted⟩)
    · refine .inl (.inr ⟨missing, ?_⟩)
      rwa [uriEq]
    · exact absurd removes sets
    · exact .inr ⟨_, _, attrEq, found, stumbles⟩

/-- There are elements to select from in a home that was ensured only if the home was there. -/
theorem selectionStumbles_ensured_iff (attr : String)
    (ran : (ensureHome (some schema) path).run resource = (.ok home, after)) :
    SelectionStumbles schema path (Members.attr (home.members after) attr) ↔
      ∃ there, homeFor resource path (some schema) = .ok (some there) ∧
        SelectionStumbles schema path (Members.attr (there.members resource) attr) := by
  obtain ⟨is, _, same, _⟩ := ensureHome_eq ran
  rw [same]
  cases looked : homeFor resource path (some schema) with
  | error failure =>
      rw [ensureHome, Action.run_bind, Action.run_examine, looked] at ran
      cases ran
  | ok home? =>
      cases home? with
      | some there =>
          rw [run_ensureHome_of_found looked] at ran
          cases ran
          simp
      | none =>
          obtain ⟨absent, _⟩ | ⟨_, uri, _, missing, notObject⟩ := homeFor_eq_ok looked
          · cases absent
          · rw [is, missing, Home.members_of_not_object notObject]
            constructor
            · rintro ⟨_, _, _, _, ⟨⟩, _⟩
            · rintro ⟨_, ⟨⟩, _⟩

/-- What is decided in a home that was ensured crashes where the home cannot be ensured or where
elements are selected. -/
theorem crashesAt_ensured_iff {action : Change Unit} {decide : Json → Except Failure AttrEdit}
    (attrEq : path.attr = some attr)
    (starts : ∀ failure middle,
      (ensureHome (some schema) path).run resource = (.error failure, middle) →
        action.run resource = (.error failure, middle))
    (decided : ∀ home middle, (ensureHome (some schema) path).run resource = (.ok home, middle) →
      (home.members middle = [] ∨ homeFor middle path (some schema) = .ok (some home)) →
        Decided home attr middle (decide (Members.attr (home.members middle) attr))
          (action.run resource))
    (crashes : ∀ current, Crashes (decide current) ↔ SelectionStumbles schema path current) :
    action.CrashesAt resource ↔
      (ensureHome (some schema) path).CrashesAt resource ∨
        ∃ attr home, path.attr = some attr ∧
          homeFor resource path (some schema) = .ok (some home) ∧
            SelectionStumbles schema path (Members.attr (home.members resource) attr) := by
  simp only [attrEq, Option.some.injEq, exists_and_left, exists_eq_left']
  rcases ran : (ensureHome (some schema) path).run resource with ⟨failure | home, middle⟩
  · rw [Action.CrashesAt, Action.CrashesAt, starts failure middle ran, ran]
    refine ⟨.inl, ?_⟩
    rintro (crashed | ⟨home, found, _⟩)
    · exact crashed
    · rw [run_ensureHome_of_found found] at ran
      cases ran
  · obtain ⟨_, _, _, reached, _⟩ := ensureHome_eq ran
    have settled := (decided home middle ran reached).crashes_iff
    have safe : ¬ (ensureHome (some schema) path).CrashesAt resource := by
      rw [Action.CrashesAt, ran]
      exact not_crashes_ok _
    rw [or_iff_right safe, Action.CrashesAt, settled, crashes]
    exact selectionStumbles_ensured_iff attr ran

theorem crashesAt_removeExtension_iff :
    (removeExtension uri).CrashesAt resource ↔
      (delAttr resource uri).schemasValue.listsTexts = false := by
  unfold removeExtension
  rw [Action.crashesAt_modify_bind, Action.crashesAt_update_iff]
  change Crashes ((delAttr resource uri).schemasValue.listed >>= _) ↔ _
  generalize (delAttr resource uri).schemasValue = schemas
  rw [crashes_bind_iff, Json.crashes_listed_iff]
  have withdrawn (urns : List Json) :
      Crashes (if urns.all (·.isStr) then
          pure (Members.set (delAttr resource uri) "schemas"
            (.arr (urns.filter fun u => !u.text?.any (sameName · uri))))
        else failWith .noSuchMember) ↔ urns.all (·.isStr) = false := by
    split
    · next texts => exact iff_of_false (not_crashes_ok _) (by simp [texts])
    · next mixed => exact iff_of_true (crashes_failWith (by decide)) (by simpa using mixed)
  simp only [withdrawn]
  exact Json.listsTexts_iff schemas

/-- Merging into a whole extension does not crash behind its home. -/
theorem crashesAt_ensured_whole_iff (uriEq : path.uri = some uri)
    (other : sameName "schemas" uri = false) :
    (ensureHome (some schema) path >>= fun _ => mergeWhole (some schema) uri value).CrashesAt
        resource ↔ (ensureHome (some schema) path).CrashesAt resource := by
  rw [Action.crashesAt_bind_iff]
  constructor
  · rintro (crashed | ⟨home, after, ensured, crashed⟩)
    · exact crashed
    · obtain ⟨values, _, crashed⟩ := crashesAt_mergeWhole_iff.mp crashed
      obtain ⟨_, missing, _⟩ := crashesAt_mergeExtension_iff.mp crashed
      exact absurd missing (homeFor_ensured uriEq other ensured)
  · exact .inl

section

variable (registered : path.attr = none →
  ∃ uri, path.uri = some uri ∧ sameName "schemas" uri = false)
include registered

theorem crashesAt_add_iff :
    (add (some schema) path value).CrashesAt resource ↔ StumblesAt schema .add path resource := by
  rw [← crashesAt_ensureHome_iff_stumbles (by decide)]
  obtain whole | ⟨attr, attrEq⟩ := Option.eq_none_or_eq_some path.attr
  · obtain ⟨uri, uriEq, other⟩ := registered whole
    unfold add
    rw [whole, uriEq]
    dsimp only [Option.getD_some]
    rw [crashesAt_ensured_whole_iff uriEq other]
    simp
  · have crashes (current : Json) : Crashes (addition (some schema) path attr value current) ↔
        SelectionStumbles schema path current := crashes_addition_iff
    refine crashesAt_ensured_iff attrEq (fun failure middle ran => ?_)
      (fun home middle ran reached => ?_) crashes
    · exact Action.run_bind_error ran _
    · exact decided_add attrEq reached value ran

theorem crashesAt_replace_iff :
    (replace (some schema) path value).CrashesAt resource ↔
      StumblesAt schema .replace path resource := by
  rw [← crashesAt_ensureHome_iff_stumbles (by decide)]
  obtain whole | ⟨attr, attrEq⟩ := Option.eq_none_or_eq_some path.attr
  · obtain ⟨uri, uriEq, other⟩ := registered whole
    unfold replace
    rw [whole, uriEq]
    dsimp only [Option.getD_some]
    rw [crashesAt_ensured_whole_iff uriEq other]
    simp
  · have crashes (current : Json) : Crashes (replacement (some schema) path attr value current) ↔
        SelectionStumbles schema path current := crashes_replacement_iff
    refine crashesAt_ensured_iff attrEq (fun failure middle ran => ?_)
      (fun home middle ran reached => ?_) crashes
    · exact Action.run_bind_error ran _
    · exact decided_replace attrEq reached value ran

theorem crashesAt_remove_iff :
    (remove (some schema) path value).CrashesAt resource ↔
      StumblesAt schema .remove path resource := by
  constructor
  · intro crashed
    rcases Action.crashesAt_examine_bind.mp crashed with unlisted | ⟨home?, found, rest⟩
    · obtain ⟨uri, uriEq, unknown, unlisted⟩ := crashes_homeFor_iff.mp unlisted
      exact .listing uriEq unknown unlisted
    · cases home? with
      | none => exact rest.elim
      | some home =>
          obtain whole | ⟨attr, attrEq⟩ := Option.eq_none_or_eq_some path.attr
          · obtain ⟨uri, uriEq, _⟩ := registered whole
            rw [whole, uriEq] at rest
            exact .withdrawing rfl whole uriEq found (crashesAt_removeExtension_iff.mp rest)
          · have decided := decided_remove attrEq found value
            exact .selecting attrEq found (crashes_removal_iff.mp (decided.crashes_iff.mp crashed))
  · rintro (⟨uriEq, unknown, unlisted⟩ | ⟨sets, _⟩ | ⟨_, whole, uriEq, found, mixed⟩ |
      ⟨attrEq, found, stumbles⟩)
    · exact Action.crashesAt_examine_bind.mpr
        (.inl (crashes_homeFor_iff.mpr ⟨_, uriEq, unknown, unlisted⟩))
    · exact absurd rfl sets
    · refine Action.crashesAt_examine_bind.mpr (.inr ⟨_, found, ?_⟩)
      dsimp only
      rw [whole, uriEq]
      exact crashesAt_removeExtension_iff.mpr mixed
    · have decided := decided_remove attrEq found value
      exact decided.crashes_iff.mpr (crashes_removal_iff.mpr stumbles)

end

end Patch

end Scim
