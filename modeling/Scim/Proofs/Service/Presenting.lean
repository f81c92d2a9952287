import Scim.Proofs.Resource.Removal
import Scim.Service

/-!
# What services present

Under the schemas of users and of groups every resource can be presented: it loses its
password, if it is a user with one, and keeps everything else.  If only the id is asked
for, then what is presented has the id still.
-/

namespace Scim

open Members

/-- The schemas of users and of groups. -/
def IsStandard (schema : Option ResourceSchema) : Prop := schema = some .user ∨ schema = some .group

/-- The names of the attributes that are never returned under a schema. -/
def hiddenNames (schema : Option ResourceSchema) : List String :=
  (schema.elim [] (·.attributesReturned "never")).map (·.2)

theorem hiddenNames_user : hiddenNames (some .user) = ["password"] := by decide

theorem hiddenNames_group : hiddenNames (some .group) = [] := by decide

theorem IsStandard.exists_eq {schema : Option ResourceSchema} (standard : IsStandard schema) :
    ∃ known, schema = some known := by
  rcases standard with rfl | rfl <;> exact ⟨_, rfl⟩

theorem IsStandard.hiddenNames_cases {schema : Option ResourceSchema}
    (standard : IsStandard schema) :
    hiddenNames schema = ["password"] ∨ hiddenNames schema = [] := by
  rcases standard with rfl | rfl
  · exact .inl hiddenNames_user
  · exact .inr hiddenNames_group

theorem IsStandard.requiredNames_eq {schema : Option ResourceSchema}
    (standard : IsStandard schema) :
    Projection.requiredNames schema = ["schemas", "id", "id"] := by
  rcases standard with rfl | rfl <;> decide

/-! ## Leaving attributes out -/

namespace Members

/-- Members without some attributes. -/
def without (members : Members) (names : List String) : Members := names.foldl delAttr members

variable {members : Members} {names : List String} {name : String}

theorem without_sublist (members : Members) (names : List String) :
    (without members names).Sublist members := by
  induction names generalizing members with
  | nil => exact .refl _
  | cons first rest ih => exact (ih (delAttr members first)).trans (delAttr_sublist members first)

theorem spellings_without (members : Members)
    (others : ∀ other ∈ names, sameName other name = false) :
    spellings (without members names) name = spellings members name := by
  induction names generalizing members with
  | nil => rfl
  | cons first rest ih =>
      obtain ⟨differ, later⟩ := List.forall_mem_cons.mp others
      exact (ih (delAttr members first) later).trans (spellings_delAttr members differ)

theorem Distinct.lacks_without (distinct : Distinct members) :
    ∀ name ∈ names, Lacks (without members names) name := by
  induction names generalizing members with
  | nil => nofun
  | cons first rest ih =>
      have fewer := distinct.of_sublist (delAttr_sublist members first)
      rw [List.forall_mem_cons]
      exact ⟨(distinct.lacks_delAttr first).of_sublist (without_sublist _ rest), ih fewer⟩

/-- What is not there is left out without a change. -/
theorem without_of_lacks (lacks : ∀ name ∈ names, Lacks members name) :
    without members names = members := by
  induction names with
  | nil => rfl
  | cons first rest ih =>
      obtain ⟨firstLacks, restLacks⟩ := List.forall_mem_cons.mp lacks
      rw [without, List.foldl_cons, firstLacks.delAttr_eq]
      exact ih restLacks

end Members

/-! ## Projections under the standard schemas -/

section

variable {schema : Option ResourceSchema} (standard : IsStandard schema)
include standard

theorem IsStandard.spellings_id (members : Members) :
    spellings (without members (hiddenNames schema)) "id" = spellings members "id" := by
  refine spellings_without members ?_
  obtain hidden | hidden := standard.hiddenNames_cases <;> rw [hidden]
  · decide
  · nofun

theorem IsStandard.dropHidden_eq (members : Members) :
    Projection.dropHidden schema members = .ok (without members (hiddenNames schema)) := by
  rcases standard with rfl | rfl
  · have hidden : ResourceSchema.user.attributesReturned "never" = [(none, "password")] := by
      decide
    rw [hiddenNames_user]
    simp only [Projection.dropHidden, hidden]
    rfl
  · have hidden : ResourceSchema.group.attributesReturned "never" = [] := by decide
    rw [hiddenNames_group]
    simp only [Projection.dropHidden, hidden]
    rfl

/-- A resource is presented without what is never returned. -/
theorem IsStandard.project_eq (members : Members) :
    (Json.obj members).project [] [] schema =
      .ok (.obj (without members (hiddenNames schema))) := by
  have dropped := standard.dropHidden_eq members
  obtain ⟨known, rfl⟩ := standard.exists_eq
  have projected : (Json.obj members).project [] [] (some known) =
      (Projection.dropHidden (some known) members).map .obj := rfl
  rw [projected, dropped]
  rfl

omit standard in
theorem copyAttr_of_attr? {members : Members} {id : Json} {key : String}
    (found : key? members "id" = some key) (stored : get? members key = some id)
    (target : Members) : Projection.copyAttr members "id" none target = set target key id := by
  simp only [Projection.copyAttr, found, stored, Option.getD_some]

/-- What is presented of a resource has its id if that is asked for. -/
theorem IsStandard.project_id {members : Members} {id : Json}
    (named : attr? members "id" = some id) :
    ∃ shown, (Json.obj members).project ["id"] [] schema = .ok (.obj shown) ∧
      attr shown "id" = id := by
  obtain ⟨key, found, stored⟩ := Option.bind_eq_some_iff.mp named
  have spelled : sameName key "id" = true := (key?_eq_some found).2
  -- the declared URNs are copied first, and then the id several times
  let copied := set (set (set (Projection.copyAttr members "schemas" none []) key id) key id) key id
  have urns : spellings (Projection.copyAttr members "schemas" none []) "id" = [] := by
    rw [Projection.copyAttr]
    cases urn : key? members "schemas" with
    | none => rfl
    | some other =>
        have differ : sameName other "id" = false :=
          (sameName_congr (key?_eq_some urn).2 "id").trans (by decide)
        rw [spellings_set, differ]
        rfl
  have required : Projection.only members schema ["id"] = .ok copied := by
    have parsed : (PathOf.parse "id" : Except Failure AttributePath) = .ok (.plain "id") := rfl
    have copies := copyAttr_of_attr? found stored
    rw [Projection.only, Projection.required, standard.requiredNames_eq]
    simp only [List.foldl_cons, List.foldl_nil, copies]
    change (do Projection.copyPath members _ (← PathOf.parse "id")) = _
    rw [parsed]
    exact congrArg Except.ok (copies _)
  have dropped := standard.dropHidden_eq copied
  refine ⟨without copied (hiddenNames schema), ?_, ?_⟩
  · obtain ⟨known, rfl⟩ := standard.exists_eq
    change ((Projection.only members (some known) ["id"] >>= Projection.dropHidden (some known)).map
      Json.obj) = _
    rw [required]
    exact congrArg (Except.map Json.obj) dropped
  · have left : spellings (without copied (hiddenNames schema)) "id" =
        spellings [(key, id)] "id" := by
      rw [standard.spellings_id]
      simp only [copied, spellings_set, spelled, urns, spellings_cons]
      simp [Members.set]
    have single : attr? [(key, id)] "id" = some id := by
      by_cases exact : "id" = key <;> simp [attr?, key?_eq, names, spelled, exact]
    rw [attr, attr?_congr left, single, Option.getD_some]

end

end Scim
