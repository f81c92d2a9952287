import Scim.Proofs.Patch.Merging

/-!
# Attributes that a client may not change

A path to an attribute that the schema fixes is refused, and so is a member of a value
without a path.  One route has no such check: an object that is given for the whole core
schema, under its URN, is merged into the resource as it is.  What a change request does
to a fixed attribute is what these merges do, unless it uses the name of the attribute
as a URN.
-/

namespace Scim

open Members

namespace Patch

variable {schema : ResourceSchema} {name attr : String} {path : AttributePath}
  {resource changed : Members} {home : Home} {locations : List Location}

/-! ## Paths to other attributes -/

/-- Whether a path leads to another attribute of the resource than a name, in each home
that it may have. -/
def LeadsElsewhere (schema : ResourceSchema) (path : AttributePath) (name : String) : Prop :=
  ∀ attr, path.attr = some attr → ∀ home, HomeOf schema path.uri home → home.Avoids attr name

section

variable (elsewhere : LeadsElsewhere schema path name) (attrEq : path.attr = some attr)
include elsewhere attrEq

theorem avoids_of_matching (found : matching (some schema) path resource = .ok locations) :
    ∀ location ∈ locations, location.home.Avoids location.key name := by
  rw [matching] at found
  intro location held
  obtain ⟨homeEq, keySame⟩ := mem_resolve found attrEq location held
  exact (elsewhere attr attrEq location.home (homeOf_homeFor homeEq)).congr keySame

theorem avoids_of_selected (found : selected (some schema) path attr home resource = .ok locations) :
    ∀ location ∈ locations, location.home.Avoids location.key name := by
  obtain ⟨listed, _, rest⟩ := bind_eq_ok_iff.mp found
  split at rest
  · exact avoids_of_matching elsewhere attrEq rest
  · cases rest
    intro location held
    cases held

theorem spellings_removeSelected (homeOf : HomeOf schema path.uri home)
    (edited : removeSelected (some schema) path attr home resource = .ok changed) :
    spellings changed name = spellings resource name := by
  obtain ⟨_, _, rest⟩ := bind_eq_ok_iff.mp edited
  obtain ⟨locations, found, rest⟩ := bind_eq_ok_iff.mp rest
  have avoid := avoids_of_matching elsewhere attrEq found
  split at rest
  · cases rest
    exact Location.spellings_foldl _ avoid
  · cases rest
    split
    · exact Location.spellings_foldr avoid
    · rw [Home.spellings_update (elsewhere attr attrEq home homeOf) fun _ differ =>
        spellings_dropEmpty differ]
      exact Location.spellings_foldr avoid

end

theorem spellings_setSubAt {sub : String} {value : Json}
    (avoid : ∀ location ∈ locations, location.home.Avoids location.key name)
    (edited : setSubAt (some schema) path attr sub value locations resource = .ok changed) :
    spellings changed name = spellings resource name := by
  obtain ⟨typed, _, rest⟩ := bind_eq_ok_iff.mp edited
  cases rest
  exact Location.spellings_foldl _ avoid

/-! ## Operations at a path -/

/-- The URNs that an operation at a path uses. -/
def pathUrns (path : AttributePath) : List String :=
  match path.attr with
  | some _ => path.uri.toList
  | none => [path.uri.getD ""]

/-- What an operation at a path merges into the resource itself: the object that it has
for the whole core schema. -/
def pathMerged (schema : ResourceSchema) (op : PatchOp) (path : AttributePath) (value : Json) :
    Members :=
  match op, path.attr with
  | .remove, _ | _, some _ => []
  | _, none => schema.merged (path.uri.getD "") (value.members?.getD [])

section

variable (notSchemas : sameName "schemas" name = false)
  (noUrn : ∀ urn ∈ pathUrns path, sameName urn name = false)
  (elsewhere : LeadsElsewhere schema path name)
include noUrn

theorem uri_differs (urn : String) (uriEq : path.uri = some urn) : sameName urn name = false := by
  apply noUrn
  unfold pathUrns
  split
  · rw [uriEq]
    exact List.mem_singleton_self urn
  · rw [uriEq]
    exact List.mem_singleton_self urn

theorem whole_differs (attrEq : path.attr = none) : sameName (path.uri.getD "") name = false := by
  apply noUrn
  rw [pathUrns, attrEq]
  exact List.mem_singleton_self _

include notSchemas elsewhere

theorem writes_add (value : Json) :
    Writes name (pathMerged schema .add path value) (add (some schema) path value)
      fun _ => True := by
  refine Keeps.bind (keeps_ensureHome notSchemas (uri_differs noUrn)) fun home homeOf => ?_
  unfold pathMerged
  cases attrEq : path.attr with
  | none => exact writes_mergeWhole notSchemas (whole_differs noUrn attrEq) value
  | some attr =>
      have avoids := elsewhere attr attrEq home homeOf
      dsimp only
      split
      · refine Keeps.update fun resource changed stepEq => ?_
        obtain ⟨locations, found, rest⟩ := bind_eq_ok_iff.mp stepEq
        split at rest
        · cases rest
        · exact spellings_setSubAt (avoids_of_selected elsewhere attrEq found) rest
      · refine Keeps.update fun resource changed stepEq => ?_
        obtain ⟨locations, found, rest⟩ := bind_eq_ok_iff.mp stepEq
        split at rest
        · cases rest
          exact Home.spellings_update avoids fun _ differ => spellings_append differ value
        · cases rest
          rfl
      · exact Keeps.updateHome avoids fun members changed differ edited =>
          spellings_setSub differ edited
      · refine Keeps.updateHome avoids fun members changed differ edited => ?_
        split at edited
        · cases edited
          exact spellings_append differ value
        · exact spellings_putSingle differ edited

theorem writes_replace (value : Json) :
    Writes name (pathMerged schema .replace path value) (replace (some schema) path value)
      fun _ => True := by
  refine Keeps.bind (keeps_ensureHome notSchemas (uri_differs noUrn)) fun home homeOf => ?_
  unfold pathMerged
  cases attrEq : path.attr with
  | none => exact writes_mergeWhole notSchemas (whole_differs noUrn attrEq) value
  | some attr =>
      have avoids := elsewhere attr attrEq home homeOf
      dsimp only
      split
      · refine Keeps.update fun resource changed stepEq => ?_
        obtain ⟨locations, found, rest⟩ := bind_eq_ok_iff.mp stepEq
        have avoid := avoids_of_selected elsewhere attrEq found
        split at rest
        · cases rest
        · exact spellings_setSubAt avoid rest
        · cases rest
          exact Location.spellings_foldl _ avoid
      · exact Keeps.updateHome avoids fun members changed differ edited =>
          spellings_setSub differ edited
      · refine Keeps.updateHome avoids fun members changed differ edited => ?_
        split at edited
        · cases edited
          exact spellings_setAttr_of_differ members differ _
        · exact spellings_putSingle differ edited

omit noUrn elsewhere in
theorem keeps_removeExtension {uri : String} (noUrn : sameName uri name = false) :
    Keeps name (removeExtension uri) := by
  refine Keeps.bind (P := fun _ => True) (Writes.of_modify fun resource =>
    spellings_delAttr resource noUrn) fun _ _ => Keeps.update fun resource changed stepEq => ?_
  obtain ⟨urns, _, rest⟩ := bind_eq_ok_iff.mp stepEq
  split at rest
  · cases rest
    exact spellings_setSchemas notSchemas _
  · cases rest

theorem keeps_remove (value : Json) : Keeps name (remove (some schema) path value) := by
  refine Keeps.bind (P := fun home? => ∀ home, home? = some home →
    HomeOf schema path.uri home) (Keeps.examine fun resource home? found => ?_) ?_
  · rintro home rfl
    exact homeOf_homeFor found
  · intro home? homeOf
    cases home? with
    | none => exact Keeps.pure trivial
    | some home =>
        cases attrEq : path.attr with
        | none => exact keeps_removeExtension notSchemas (whole_differs noUrn attrEq)
        | some attr =>
            have avoids := elsewhere attr attrEq home (homeOf home rfl)
            refine Keeps.update fun resource changed stepEq => ?_
            split at stepEq
            · cases stepEq
              rfl
            · split at stepEq
              · exact spellings_removeSelected elsewhere attrEq (homeOf home rfl) stepEq
              · cases stepEq
                exact Home.spellings_update avoids fun _ differ => spellings_removeSub differ _
              · cases stepEq
                exact Home.spellings_update avoids fun _ differ => spellings_removeValue differ value

end

end Patch

/-! ## Operations -/

namespace PatchOperation

variable {schema : ResourceSchema} {name : String}

/-- The URNs that an operation uses. -/
def urns (operation : PatchOperation) : List String :=
  match operation.path with
  | none =>
    ((operation.value.members?.getD []).filter fun member =>
      Patch.isExtensionMember member.1 member.2).map Prod.fst
  | some text =>
    match PathOf.parse text with
    | .ok path => Patch.pathUrns path
    | .error _ => []

/-- What an operation merges into the resource itself without a look at what may be
changed: the objects that it has for the whole core schema. -/
def unchecked (schema : ResourceSchema) (operation : PatchOperation) : Members :=
  match operation.path with
  | none =>
    (operation.value.members?.getD []).flatMap fun member =>
      Patch.memberMerged schema member.1 member.2
  | some text =>
    match PathOf.parse text with
    | .ok path => Patch.pathMerged schema operation.op path operation.value
    | .error _ => []

/-- To the spellings of a fixed attribute an operation writes what it merges unchecked. -/
theorem writes_apply (operation : PatchOperation) (notSchemas : sameName "schemas" name = false)
    (fixed : schema.isFixed name none none = true)
    (noUrn : ∀ urn ∈ operation.urns, sameName urn name = false) :
    Patch.Writes name (operation.unchecked schema) (operation.apply (some schema))
      fun _ => True := by
  obtain ⟨op, path?, value⟩ := operation
  cases path? with
  | none =>
      refine Patch.Keeps.bind (P := fun values => value.members?.getD [] = values)
        (Patch.Keeps.ofExcept fun values found => ?_) ?_
      · cases Patch.eq_of_rootMembers found
        rfl
      · rintro values rfl
        refine Patch.writes_mergeMembers notSchemas fixed (fun member held isExtension => ?_) op
        exact noUrn _ (List.mem_map.mpr ⟨member, List.mem_filter.mpr ⟨held, isExtension⟩, rfl⟩)
  | some text =>
      refine Patch.Keeps.bind (P := fun path => PathOf.parse text = .ok path ∧
        Patch.checkMutable (some schema) path = .ok ())
        (Patch.Keeps.ofExcept fun path found => ?_) ?_
      · obtain ⟨parsed, parsedEq, rest⟩ := bind_eq_ok_iff.mp found
        obtain ⟨_, checked, rest⟩ := bind_eq_ok_iff.mp rest
        cases rest
        exact ⟨parsedEq, checked⟩
      · rintro path ⟨parsed, checked⟩
        simp only [urns, parsed] at noUrn
        simp only [unchecked, parsed]
        -- a path that passes the check cannot end at the fixed attribute itself
        have elsewhere : Patch.LeadsElsewhere schema path name := by
          intro attr attrEq home homeOf
          exact homeOf.avoids fixed attrEq checked (Patch.uri_differs noUrn)
        cases op with
        | add => exact Patch.writes_add notSchemas noUrn elsewhere value
        | replace => exact Patch.writes_replace notSchemas noUrn elsewhere value
        | remove => exact Patch.keeps_remove notSchemas noUrn elsewhere value

end PatchOperation

/-! ## Change requests -/

namespace PatchEntry

variable {schema : ResourceSchema} {name : String}

/-- The operations of entries in their places from an index on, as far as they can be read. -/
def operations (index : Int) : List PatchEntry → List PatchOperation
  | [] => []
  | entry :: rest => (entry.read index).toOption.toList ++ operations (index + 1) rest

/-- To the spellings of a fixed attribute the entries of a request write what their
operations merge unchecked. -/
theorem writes_applyEntries (entries : List PatchEntry)
    (notSchemas : sameName "schemas" name = false) (fixed : schema.isFixed name none none = true)
    {index : Int}
    (noUrn : ∀ operation ∈ operations index entries, ∀ urn ∈ operation.urns,
      sameName urn name = false) :
    Patch.Writes name ((operations index entries).flatMap (·.unchecked schema))
      (applyEntries (some schema) index entries) fun _ => True := by
  induction entries generalizing index with
  | nil => exact Patch.Keeps.pure trivial
  | cons entry rest ih =>
      refine Patch.Keeps.bind (P := fun operation => entry.read index = .ok operation)
        (Patch.Keeps.ofExcept fun _ found => found) fun operation read => ?_
      have listed : operations index (entry :: rest) =
          operation :: operations (index + 1) rest := by
        rw [operations, read]
        rfl
      rw [listed] at noUrn ⊢
      rw [List.flatMap_cons]
      refine Patch.Writes.bind (operation.writes_apply notSchemas fixed
        (noUrn operation List.mem_cons_self)) fun _ _ => ih fun other held => ?_
      exact noUrn other (List.mem_cons_of_mem _ held)

end PatchEntry

/-- A change request leaves a fixed attribute as it is exactly if the objects that its
operations have for the whole core schema do, provided that it does not use the name of
the attribute as a URN.  The list of declared URNs is not such an attribute. -/
theorem attr?_applyPatch_iff {schema : ResourceSchema} {name : String} {resource result : Members}
    {entries : List PatchEntry} (fixed : schema.isFixed name none none = true)
    (notSchemas : sameName "schemas" name = false)
    (noUrn : ∀ operation ∈ PatchEntry.operations 0 entries, ∀ urn ∈ operation.urns,
      sameName urn name = false)
    (applied : applyPatch resource entries (some schema) = .ok result) :
    attr? result name = attr? resource name ↔
      attr? (merge resource ((PatchEntry.operations 0 entries).flatMap (·.unchecked schema))) name =
        attr? resource name := by
  have written : spellings result name = spellings (merge resource
      ((PatchEntry.operations 0 entries).flatMap (·.unchecked schema))) name := by
    obtain ⟨effective, effectiveEq, rest⟩ := bind_eq_ok_iff.mp applied
    cases effectiveEq
    split at rest
    · next changed ran =>
      cases rest
      exact (PatchEntry.writes_applyEntries entries notSchemas fixed noUrn resource () _ ran).1
    · cases rest
  rw [attr?_congr written]

/-- Where `meta` is declared as a URN, a path under it leads into the attribute `meta`. -/
example : ((applyPatch [("meta", .obj [("version", .str "1")])]
    [.ready ⟨.add, none, .obj [("schemas", .arr [.str "meta"])]⟩,
      .ready ⟨.replace, some "meta:version", .str "2"⟩] (some .user)).toOption.bind
        fun result => (attr? result "meta").bind fun value =>
          value.members?.bind fun members => (attr? members "version").bind (·.text?)) =
      some "2" := by
  decide +kernel

/-- A change of other attributes, given in part for the whole core schema, keeps `id`. -/
theorem attr?_applyPatch_iff_id :
    let resource : Members := [("id", .str "1"), ("userName", .str "a")]
    let entries : List PatchEntry := [.ready ⟨.replace, none,
      .obj [("displayName", .str "b"), (userUrn, .obj [("userName", .str "c")])]⟩]
    ResourceSchema.user.isFixed "id" none none = true ∧ sameName "schemas" "id" = false ∧
      (∀ operation ∈ PatchEntry.operations 0 entries, ∀ urn ∈ operation.urns,
        sameName urn "id" = false) ∧
      ∃ result, applyPatch resource entries (some .user) = .ok result ∧
        attr? result "id" = attr? resource "id" := by
  intro resource entries
  have fixed : ResourceSchema.user.isFixed "id" none none = true := by decide +kernel
  have notSchemas : sameName "schemas" "id" = false := by decide +kernel
  have noUrn : ∀ operation ∈ PatchEntry.operations 0 entries, ∀ urn ∈ operation.urns,
      sameName urn "id" = false := by decide +kernel
  have applies : (applyPatch resource entries (some .user)).isOk = true := by decide +kernel
  refine ⟨fixed, notSchemas, noUrn, ?_⟩
  cases applied : applyPatch resource entries (some .user) with
  | error failure =>
      rw [applied] at applies
      cases applies
  | ok result =>
      exact ⟨result, rfl, (attr?_applyPatch_iff fixed notSchemas noUrn applied).mpr rfl⟩

/-- Not every change request leaves fixed attributes as they are: an object for the whole
core schema replaces `id`. -/
theorem not_fixed_kept :
    ¬ ∀ (schema : ResourceSchema) (name : String) (resource result : Members)
        (entries : List PatchEntry), schema.isFixed name none none = true →
      applyPatch resource entries (some schema) = .ok result →
      attr? result name = attr? resource name := by
  intro kept
  have replaced : ((applyPatch [("id", .str "1")]
      [.ready ⟨.replace, some userUrn, .obj [("id", .str "2")]⟩] (some .user)).toOption.bind
        fun result => (attr? result "id").bind (·.text?)) = some "2" := by decide +kernel
  cases applied : applyPatch [("id", .str "1")]
      [.ready ⟨.replace, some userUrn, .obj [("id", .str "2")]⟩] (some .user) with
  | error failure =>
      rw [applied] at replaced
      cases replaced
  | ok result =>
      have same := kept .user "id" _ result _ (by decide +kernel) applied
      rw [applied] at replaced
      change (attr? result "id").bind (·.text?) = some "2" at replaced
      rw [same] at replaced
      exact absurd replaced (by decide +kernel)

end Scim
