import Scim.Proofs.Patch.Homes
import Scim.Proofs.Patch.ReadOnly
import Scim.Proofs.Patch.Tidiness

/-!
# Names after a change request

The changes that make up a request leave tidy resources so.  So a request that is given
unambiguous values leaves an unambiguous resource so, unless it puts `schemas` beside
another spelling of that name.
-/

namespace Scim

open Members

variable {resource after : Members} {attr uri : String} {value : Json} {allowed : String → Prop}

/-! ## Changes keep resources tidy -/

namespace Patch

variable {schema : Option ResourceSchema} {path : AttributePath} {values : Members}

/-- Whether a change leaves tidy resources so. -/
abbrev Tidies (allowed : String → Prop) {α : Type} (change : Change α) : Prop :=
  Action.Maintains (Tidy allowed) change

section

variable (allowSchemas : allowed "schemas")
include allowSchemas

theorem tidies_declareSchema (uri : String) : Tidies allowed (declareSchema uri) := by
  apply Action.Maintains.bind (P := fun _ => True)
  · apply Action.Maintains.modify
    intro resource tidy
    split
    · exact tidy.setSchemas allowSchemas rfl
    · exact tidy
  · intro _ _
    apply Action.Maintains.update
    intro resource changed tidy stepEq
    cases held : Members.get? resource "schemas" with
    | none =>
        rw [held] at stepEq
        cases stepEq
    | some declared =>
        rw [held, Option.getD_some] at stepEq
        cases declared with
        | arr urns =>
            obtain ⟨holds, _, rest⟩ := bind_eq_ok_iff.mp stepEq
            split at rest
            · cases rest
              exact tidy
            · cases rest
              have listed := Json.unambiguous_arr_iff.mp (tidy.values.get? held)
              refine tidy.setSchemas allowSchemas (Json.unambiguous_arr_iff.mpr fun item inItems => ?_)
              cases List.mem_append.mp inItems with
              | inl there => exact listed item there
              | inr last =>
                  cases List.mem_singleton.mp last
                  rfl
        | str s =>
            dsimp only at stepEq
            split at stepEq
            · cases stepEq
              exact tidy
            · cases stepEq
        | obj members =>
            dsimp only at stepEq
            split at stepEq
            · cases stepEq
              exact tidy
            · cases stepEq
        | _ => cases stepEq

theorem tidies_declareAll (urns : List String) : Tidies allowed (declareAll urns) := by
  induction urns with
  | nil => exact Action.Maintains.pure trivial
  | cons urn rest ih =>
      exact Action.Maintains.bind (tidies_declareSchema allowSchemas urn) fun _ _ => ih

theorem tidies_ensureHome (allowUri : ∀ uri, path.uri = some uri → allowed uri) :
    Tidies allowed (ensureHome schema path) := by
  apply Action.Maintains.bind (P := fun home? => home? = none → ∃ uri, path.uri = some uri)
  · apply Action.Maintains.examine
    intro resource home? _ found missing
    rcases homeFor_eq_ok found with ⟨is, _⟩ | ⟨_, uri, uriEq, _⟩
    · rw [is] at missing
      cases missing
    · exact ⟨uri, uriEq⟩
  · intro home? named
    cases home? with
    | some home => exact Action.Maintains.pure trivial
    | none =>
        obtain ⟨uri, uriEq⟩ := named rfl
        dsimp only
        rw [uriEq, Option.getD_some]
        apply Action.Maintains.bind Action.Maintains.get
        intro resource _
        apply Action.Maintains.bind (P := fun _ => True)
        · apply Action.Maintains.modify
          intro resource tidy
          exact tidy.setAttr (allowUri uri uriEq) rfl
        · intro _ _
          apply Action.Maintains.bind (tidies_declareSchema allowSchemas uri)
          intro _ _
          exact Action.Maintains.pure trivial

omit allowSchemas in
theorem tidies_setExtension (key : String) (all : AllUnambiguous values) :
    Tidies allowed (setExtension schema uri (.extension key) values) := by
  induction values with
  | nil => exact Action.Maintains.pure trivial
  | cons member rest ih =>
      apply Action.Maintains.bind (P := fun _ => True)
      · intro resource result after ran tidy
        have decided := decided_setChecked schema (some uri) (.extension key) member.1 member.2
          resource
        change (updateHome (.extension key) fun members =>
          setChecked schema (some uri) members member.1 member.2).run resource = _ at ran
        rw [ran] at decided
        refine ⟨tidy.decided decided (fun edit decision => ?_) nofun, trivial⟩
        obtain ⟨typed, typedEq, rest⟩ := bind_eq_ok_iff.mp decision
        cases rest
        exact AttrEdit.unambiguous_put (unambiguous_coerce typedEq (all member List.mem_cons_self))
      · intro _ _
        exact ih fun other held => all other (List.mem_cons_of_mem _ held)

theorem tidies_mergeExtension (allowUri : allowed uri)
    (allowValues : ∀ key ∈ names values, allowed key) (all : AllUnambiguous values) :
    Tidies allowed (mergeExtension schema uri values) := by
  apply Action.Maintains.bind (P := fun _ => True)
  · exact Action.Maintains.ofExcept fun _ _ => trivial
  · intro _ _
    apply Action.Maintains.bind (tidies_ensureHome allowSchemas ?_)
    · intro home _
      cases home with
      | core =>
          apply Action.Maintains.modify
          intro resource tidy
          exact tidy.merge allowValues all
      | extension key => exact tidies_setExtension key all
    · intro other isUri
      cases isUri
      exact allowUri

theorem tidies_mergeWhole (allowUri : allowed uri)
    (allowValues : ∀ key ∈ names (value.members?.getD []), allowed key)
    (unambiguous : value.unambiguous = true) : Tidies allowed (mergeWhole schema uri value) := by
  apply Action.Maintains.bind (P := fun values => value = .obj values)
  · apply Action.Maintains.ofExcept
    intro values found
    cases value with
    | obj members =>
        cases found
        rfl
    | _ => cases found
  · rintro values rfl
    exact tidies_mergeExtension allowSchemas allowUri allowValues
      (Json.unambiguous_obj_iff.mp unambiguous).2

/-! ## Operations without a path -/

/-- The names that a member of a value without a path may put at the top of a resource. -/
def memberNames (key : String) (value : Json) : List String :=
  if Text.lower key = "schemas" then [] else key :: names (value.members?.getD [])

theorem tidies_mergeMember {op : PatchOp} {key : String}
    (allow : ∀ name ∈ memberNames key value, allowed name)
    (unambiguous : value.unambiguous = true) :
    Tidies allowed (mergeMember schema op key value) := by
  unfold mergeMember
  unfold memberNames at allow
  by_cases isSchemas : Text.lower key = "schemas"
  · rw [if_pos isSchemas]
    apply Action.Maintains.bind (P := fun _ => True)
    · exact Action.Maintains.ofExcept fun _ _ => trivial
    · exact fun urns _ => tidies_declareAll allowSchemas urns
  · rw [if_neg isSchemas] at allow ⊢
    have allowKey := allow key List.mem_cons_self
    split
    · next extension =>
      cases value with
      | obj values =>
          exact tidies_mergeExtension allowSchemas allowKey
            (fun name held => allow name (List.mem_cons_of_mem _ held))
            (Json.unambiguous_obj_iff.mp unambiguous).2
      | _ => simp [Json.isObj] at extension
    · split
      · apply Action.Maintains.bind Action.Maintains.get
        intro resource _
        split
        · exact Action.Maintains.pure trivial
        · exact Action.Maintains.ofExcept fun _ _ => trivial
      · apply Action.Maintains.update
        intro resource changed tidy stepEq
        split at stepEq
        · cases stepEq
          rw [append_eq]
          exact tidy.edit allowKey (unambiguous_appending (tidy.values.attr key) unambiguous)
        · rw [setChecked_eq] at stepEq
          cases typedEq : coerce schema key none none value with
          | error failure =>
              rw [typedEq] at stepEq
              cases stepEq
          | ok typed =>
              rw [typedEq] at stepEq
              cases stepEq
              exact tidy.setAttr allowKey (unambiguous_coerce typedEq unambiguous)

theorem tidies_mergeMembers {op : PatchOp}
    (allow : ∀ member ∈ values, ∀ name ∈ memberNames member.1 member.2, allowed name)
    (all : AllUnambiguous values) : Tidies allowed (mergeMembers schema op values) := by
  induction values with
  | nil => exact Action.Maintains.pure trivial
  | cons member rest ih =>
      apply Action.Maintains.bind
      · exact tidies_mergeMember allowSchemas (allow member List.mem_cons_self)
          (all member List.mem_cons_self)
      · intro _ _
        apply ih
        · exact fun other held => allow other (List.mem_cons_of_mem _ held)
        · exact fun other held => all other (List.mem_cons_of_mem _ held)

/-! ## Operations at a path -/

theorem tidies_removeExtension (uri : String) : Tidies allowed (removeExtension uri) := by
  apply Action.Maintains.bind (P := fun _ => True)
  · exact Action.Maintains.modify fun resource tidy => tidy.delAttr uri
  · intro _ _
    apply Action.Maintains.update
    intro resource changed tidy stepEq
    obtain ⟨urns, _, rest⟩ := bind_eq_ok_iff.mp stepEq
    split at rest
    · next texts =>
      cases rest
      refine tidy.setSchemas allowSchemas (Json.unambiguous_arr_iff.mpr fun urn held => ?_)
      have isText := List.all_eq_true.mp texts urn (List.mem_filter.mp held).1
      cases urn with
      | str s => rfl
      | _ => cases isText
    · cases rest

/-- The names that an operation at a path may put at the top of a resource. -/
def pathNames (path : AttributePath) (value : Json) : List String :=
  pathUrns path ++
    match path.attr with
    | some attr => [attr]
    | none => names (value.members?.getD [])

section

variable (allow : ∀ name ∈ pathNames path value, allowed name)
include allow

omit allowSchemas in
theorem allowed_uri (uri : String) (uriEq : path.uri = some uri) : allowed uri := by
  apply allow
  apply List.mem_append_left
  unfold pathUrns
  split
  · rw [uriEq]
    exact List.mem_singleton_self uri
  · rw [uriEq]
    exact List.mem_singleton_self uri

omit allowSchemas in
theorem allowed_attr (attrEq : path.attr = some attr) : allowed attr := by
  apply allow
  apply List.mem_append_right
  rw [attrEq]
  exact List.mem_singleton_self attr

theorem tidies_whole (attrEq : path.attr = none) (unambiguous : value.unambiguous = true) :
    Tidies allowed (mergeWhole schema (path.uri.getD "") value) := by
  refine tidies_mergeWhole allowSchemas ?_ (fun key held => ?_) unambiguous
  · apply allow
    apply List.mem_append_left
    rw [pathUrns, attrEq]
    exact List.mem_singleton_self _
  · apply allow
    apply List.mem_append_right
    rw [attrEq]
    exact held

/-- A change that decides on an attribute, once there is a home for it, keeps resources tidy if
all that it decides on is unambiguous. -/
theorem tidies_ensured {next : Home → Change Unit}
    (decision : String → Json → Except Failure AttrEdit)
    (whole : path.attr = none → ∀ home, Tidies allowed (next home))
    (decides : ∀ attr home start middle, path.attr = some attr →
      (ensureHome schema path).run start = (.ok home, middle) →
      Decided home attr middle (decision attr (Members.attr (home.members middle) attr))
        ((ensureHome schema path >>= next).run start))
    (unambiguous : ∀ attr current edit, current.unambiguous = true →
      decision attr current = .ok edit → edit.Unambiguous) :
    Tidies allowed (ensureHome schema path >>= next) := by
  intro start result after ran tidy
  obtain ⟨home, middle, ensured, rest⟩ := Action.run_bind_eq_ok_iff.mp ran
  have ensures : Tidies allowed (ensureHome schema path) :=
    tidies_ensureHome allowSchemas (allowed_uri allow)
  have tidyMiddle := (ensures start home middle ensured tidy).1
  cases attrEq : path.attr with
  | none => exact whole attrEq home middle result after rest tidyMiddle
  | some attr =>
      have decided := decides attr home start middle attrEq ensured
      rw [ran] at decided
      exact ⟨tidyMiddle.decided decided
        (fun edit => unambiguous attr _ edit (tidyMiddle.attr_members home attr))
        fun _ => allowed_attr allow attrEq, trivial⟩

theorem tidies_add (unambiguous : value.unambiguous = true) :
    Tidies allowed (add schema path value) := by
  apply tidies_ensured allowSchemas allow (addition schema path · value ·)
  · intro attrEq home
    rw [attrEq]
    exact tidies_whole allowSchemas allow attrEq unambiguous
  · intro attr home start middle attrEq ensured
    exact decided_add attrEq (ensureHome_eq ensured).2.2.2.1 value ensured
  · exact fun _ _ _ current => unambiguous_addition current unambiguous

theorem tidies_replace (unambiguous : value.unambiguous = true) :
    Tidies allowed (replace schema path value) := by
  apply tidies_ensured allowSchemas allow (replacement schema path · value ·)
  · intro attrEq home
    rw [attrEq]
    exact tidies_whole allowSchemas allow attrEq unambiguous
  · intro attr home start middle attrEq ensured
    exact decided_replace attrEq (ensureHome_eq ensured).2.2.2.1 value ensured
  · exact fun _ _ _ current => unambiguous_replacement current unambiguous

theorem tidies_remove : Tidies allowed (remove schema path value) := by
  intro resource result after ran tidy
  obtain ⟨home?, start, examined, rest⟩ := Action.run_bind_eq_ok_iff.mp ran
  obtain ⟨found, rfl⟩ := Prod.mk.inj examined
  cases home? with
  | none =>
      cases rest
      exact ⟨tidy, trivial⟩
  | some home =>
      cases attrEq : path.attr with
      | none =>
          rw [attrEq] at rest
          exact tidies_removeExtension allowSchemas _ resource result after rest tidy
      | some attr =>
          have decided := decided_remove attrEq found value
          rw [ran] at decided
          refine ⟨tidy.decided decided (fun edit decision => ?_) fun _ =>
            allowed_attr allow attrEq, trivial⟩
          exact unambiguous_removal (tidy.attr_members home attr) decision

end

end

end Patch

/-! ## Change requests -/

namespace PatchOperation

/-- The names that an operation may put at the top of a resource. -/
def topNames (operation : PatchOperation) : List String :=
  match operation.path with
  | none =>
    (operation.value.members?.getD []).flatMap fun member => Patch.memberNames member.1 member.2
  | some text =>
    match PathOf.parse text with
    | .ok path => Patch.pathNames path operation.value
    | .error _ => []

theorem tidies_apply {operation : PatchOperation} {schema : Option ResourceSchema}
    (allowSchemas : allowed "schemas") (allow : ∀ name ∈ operation.topNames, allowed name)
    (unambiguous : operation.value.unambiguous = true) :
    Patch.Tidies allowed (operation.apply schema) := by
  obtain ⟨op, path?, value⟩ := operation
  cases path? with
  | none =>
      apply Action.Maintains.bind (P := fun values => value = .obj values)
      · apply Action.Maintains.ofExcept
        exact fun values found => Patch.eq_of_rootMembers found
      · rintro values rfl
        apply Patch.tidies_mergeMembers allowSchemas
        · exact fun member held name inNames =>
            allow name (List.mem_flatMap.mpr ⟨member, held, inNames⟩)
        · exact (Json.unambiguous_obj_iff.mp unambiguous).2
  | some text =>
      apply Action.Maintains.bind (P := fun path => PathOf.parse text = .ok path)
      · apply Action.Maintains.ofExcept
        intro path found
        obtain ⟨parsed, parsedEq, rest⟩ := bind_eq_ok_iff.mp found
        obtain ⟨_, _, rest⟩ := bind_eq_ok_iff.mp rest
        cases rest
        exact parsedEq
      · intro path parsed
        simp only [topNames, parsed] at allow
        cases op with
        | add => exact Patch.tidies_add allowSchemas allow unambiguous
        | replace => exact Patch.tidies_replace allowSchemas allow unambiguous
        | remove => exact Patch.tidies_remove allowSchemas allow

end PatchOperation

theorem PatchEntry.tidies_applyEntries {schema : Option ResourceSchema} {index : Int}
    (entries : List PatchEntry) (allowSchemas : allowed "schemas")
    (allow : ∀ operation ∈ operations index entries, ∀ name ∈ operation.topNames, allowed name)
    (unambiguous : ∀ operation ∈ operations index entries, operation.value.unambiguous = true) :
    Patch.Tidies allowed (applyEntries schema index entries) := by
  induction entries generalizing index with
  | nil => exact Action.Maintains.pure trivial
  | cons entry rest ih =>
      apply Action.Maintains.bind (P := fun operation => entry.read index = .ok operation)
      · exact Action.Maintains.ofExcept fun _ found => found
      · intro operation read
        have listed : operations index (entry :: rest) =
            operation :: operations (index + 1) rest := by
          rw [operations, read]
          rfl
        rw [listed] at allow unambiguous
        apply Action.Maintains.bind
        · exact operation.tidies_apply allowSchemas (allow operation List.mem_cons_self)
            (unambiguous operation List.mem_cons_self)
        · intro _ _
          apply ih
          · exact fun other held => allow other (List.mem_cons_of_mem _ held)
          · exact fun other held => unambiguous other (List.mem_cons_of_mem _ held)

theorem tidy_applyPatch {schema : Option ResourceSchema} {resource result : Members}
    {entries : List PatchEntry} (allowSchemas : allowed "schemas")
    (allowNames : ∀ key ∈ names resource, allowed key)
    (allow : ∀ operation ∈ PatchEntry.operations 0 entries, ∀ name ∈ operation.topNames,
      allowed name)
    (unambiguous : (Json.obj resource).unambiguous = true)
    (values : ∀ operation ∈ PatchEntry.operations 0 entries, operation.value.unambiguous = true)
    (applied : applyPatch resource entries schema = .ok result) : Tidy allowed result := by
  obtain ⟨effective, _, rest⟩ := bind_eq_ok_iff.mp applied
  split at rest
  · next changed ran =>
    cases rest
    exact (PatchEntry.tidies_applyEntries entries allowSchemas allow values resource () result ran
      (.of_unambiguous unambiguous allowNames)).1
  · cases rest

/-- Whether a name is no other spelling of `schemas`. -/
def plainSchemas (name : String) : Prop := sameName name "schemas" = true → name = "schemas"

instance (name : String) : Decidable (plainSchemas name) :=
  inferInstanceAs (Decidable (_ → _))

/-- A change request with unambiguous values leaves an unambiguous resource so exactly if it
does not leave `schemas` beside another spelling of that name.  It leaves none if neither the
resource nor the request has another spelling to put there. -/
theorem unambiguous_applyPatch_iff {schema : Option ResourceSchema} {resource result : Members}
    {entries : List PatchEntry} (unambiguous : (Json.obj resource).unambiguous = true)
    (values : ∀ operation ∈ PatchEntry.operations 0 entries, operation.value.unambiguous = true)
    (applied : applyPatch resource entries schema = .ok result) :
    ((Json.obj result).unambiguous = true ↔ ¬ SpelledTwice result "schemas") ∧
      ((∀ key ∈ names resource, plainSchemas key) →
        (∀ operation ∈ PatchEntry.operations 0 entries, ∀ name ∈ operation.topNames,
          plainSchemas name) →
        (Json.obj result).unambiguous = true) := by
  have iff {allowed : String → Prop} (tidy : Tidy allowed result) :
      (Json.obj result).unambiguous = true ↔ ¬ SpelledTwice result "schemas" := by
    rw [Json.unambiguous_obj_iff, tidy.names.distinct_iff]
    exact and_iff_left tidy.values
  constructor
  · have tidy : Tidy (fun _ => True) result := tidy_applyPatch trivial (fun _ _ => trivial)
      (fun _ _ _ _ => trivial) unambiguous values applied
    exact iff tidy
  · intro plainNames plain
    have tidy := tidy_applyPatch (fun _ => rfl) plainNames plain unambiguous values applied
    rw [iff tidy]
    rintro ⟨_, key, held, differs, same⟩
    exact differs (tidy.allowed key held same)

/-- A request that writes to an extension and spells its names like the resource. -/
theorem unambiguous_applyPatch_iff_department :
    let resource : Members := [("schemas", .arr [.str "a:b", .str "c:d"]), ("Name", .str "e")]
    let entries : List PatchEntry := [
      .ready ⟨.add, none, .obj [("name", .str "f"), ("c:d", .obj [])]⟩,
      .ready ⟨.replace, some "c:d:department", .obj [("id", .int 1)]⟩]
    (Json.obj resource).unambiguous = true ∧
      (∀ operation ∈ PatchEntry.operations 0 entries, operation.value.unambiguous = true) ∧
      ∃ result, applyPatch resource entries none = .ok result ∧
        (Json.obj result).unambiguous = true := by
  intro resource entries
  have unambiguous : (Json.obj resource).unambiguous = true := by decide +kernel
  have values : ∀ operation ∈ PatchEntry.operations 0 entries,
      operation.value.unambiguous = true := by decide +kernel
  have applies : (applyPatch resource entries none).isOk = true := by decide +kernel
  have plainNames : ∀ key ∈ names resource, plainSchemas key := by decide +kernel
  have plain : ∀ operation ∈ PatchEntry.operations 0 entries, ∀ name ∈ operation.topNames,
      plainSchemas name := by decide +kernel
  refine ⟨unambiguous, values, ?_⟩
  cases applied : applyPatch resource entries none with
  | error failure =>
      rw [applied] at applies
      cases applies
  | ok result =>
      have law := unambiguous_applyPatch_iff unambiguous values applied
      exact ⟨result, rfl, law.2 plainNames plain⟩

/-- Not every change request keeps names unique: where the declared URNs are under `Schemas`,
writing to an extension creates `schemas` beside it. -/
theorem not_unambiguous_kept :
    ¬ ∀ (schema : Option ResourceSchema) (resource result : Members) (entries : List PatchEntry),
      (Json.obj resource).unambiguous = true →
      (∀ operation ∈ PatchEntry.operations 0 entries, operation.value.unambiguous = true) →
      applyPatch resource entries schema = .ok result →
      (Json.obj result).unambiguous = true := by
  intro kept
  let resource : Members := [("Schemas", .arr [.str userUrn]), ("userName", .str "a")]
  let entries : List PatchEntry :=
    [.ready ⟨.add, none, .obj [(enterpriseUserUrn, .obj [("department", .str "x")])]⟩]
  have twice : (applyPatch resource entries (some .user)).toOption.map
      (fun result => (Json.obj result).unambiguous) = some false := by decide +kernel
  cases applied : applyPatch resource entries (some .user) with
  | error failure =>
      rw [applied] at twice
      cases twice
  | ok result =>
      have unambiguous := kept (some .user) resource result entries (by decide +kernel)
        (by decide +kernel) applied
      rw [applied] at twice
      have ambiguous : (Json.obj result).unambiguous = false := Option.some.inj twice
      rw [unambiguous] at ambiguous
      cases ambiguous

end Scim
