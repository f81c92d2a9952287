import Scim.Proofs.Patch.Carrying
import Scim.Proofs.Patch.Naming

/-!
# Tidy resources

Every change of an attribute goes by its stored spelling, with one exception: the list of
declared URNs is written under exactly `schemas`.  What holds of a resource nonetheless is
that two members whose names are spellings of one name are different, and that one of them
is `schemas`.
-/

namespace Scim

open Members

variable {members resource after : Members} {name attr : String} {value : Json}
  {allowed : String → Prop}

/-! ## Nearly unambiguous resources -/

namespace Members

/-- Whether a name is there both as it is and in another spelling. -/
def SpelledTwice (members : Members) (name : String) : Prop :=
  name ∈ names members ∧ ∃ key ∈ names members, key ≠ name ∧ sameName key name = true

/-- Whether names that are spellings of one name are different and one of them is
`schemas`. -/
def NearlyDistinct (members : Members) : Prop :=
  (names members).Pairwise fun a b => sameName a b = true → a ≠ b ∧ (a = "schemas" ∨ b = "schemas")

/-- A resource that is unambiguous but for spellings of `schemas`, and the names of which are
allowed. -/
structure Tidy (allowed : String → Prop) (resource : Members) : Prop where
  names : NearlyDistinct resource
  values : AllUnambiguous resource
  allowed : ∀ key ∈ Members.names resource, allowed key

namespace NearlyDistinct

theorem of_distinct (distinct : Distinct members) : NearlyDistinct members := by
  refine distinct.imp fun differ same => ?_
  rw [differ] at same
  cases same

theorem nodup (nearly : NearlyDistinct members) : (names members).Nodup := by
  refine nearly.imp fun {a b} differs equal => ?_
  subst equal
  exact (differs (sameName_refl a)).1 rfl

theorem of_sublist {fewer : Members} (nearly : NearlyDistinct members)
    (sublist : fewer.Sublist members) : NearlyDistinct fewer :=
  nearly.sublist (sublist.map _)

theorem append (nearly : NearlyDistinct members)
    (fresh : ∀ key ∈ names members, sameName key name = true → key ≠ name ∧ name = "schemas")
    (value : Json) : NearlyDistinct (members ++ [(name, value)]) := by
  unfold NearlyDistinct
  rw [names, List.map_append, List.pairwise_append]
  refine ⟨nearly, List.pairwise_singleton _ _, fun key held other isName same => ?_⟩
  cases List.mem_singleton.mp isName
  exact ⟨(fresh key held same).1, .inr (fresh key held same).2⟩

/-- Names that are nearly distinct are distinct exactly if `schemas` is not spelled twice. -/
theorem distinct_iff (nearly : NearlyDistinct members) :
    Distinct members ↔ ¬ SpelledTwice members "schemas" := by
  constructor
  · intro distinct twice
    obtain ⟨exact', key, held, differs, same⟩ := twice
    have : Std.Symm fun a b => sameName a b = false :=
      ⟨fun a b differ => (sameName_comm b a).trans differ⟩
    have differ := List.Pairwise.forall distinct held exact' differs
    rw [same] at differ
    cases differ
  · intro once
    refine nearly.imp_of_mem fun {a b} inNames inNamesToo apart => ?_
    cases same : sameName a b with
    | false => rfl
    | true =>
        obtain ⟨differs, isSchemas⟩ := apart same
        refine absurd ?_ once
        cases isSchemas with
        | inl first =>
            subst first
            exact ⟨inNames, b, inNamesToo, differs.symm, (sameName_comm b _).trans same⟩
        | inr last =>
            subst last
            exact ⟨inNamesToo, a, inNames, differs, same⟩

end NearlyDistinct

namespace Tidy

theorem of_unambiguous (unambiguous : (Json.obj resource).unambiguous = true)
    (allow : ∀ key ∈ Members.names resource, allowed key) : Tidy allowed resource := by
  obtain ⟨distinct, all⟩ := Json.unambiguous_obj_iff.mp unambiguous
  exact ⟨.of_distinct distinct, all, allow⟩

theorem of_sublist {fewer : Members} (tidy : Tidy allowed resource)
    (sublist : fewer.Sublist resource) : Tidy allowed fewer where
  names := tidy.names.of_sublist sublist
  values := tidy.values.of_sublist sublist
  allowed key held := tidy.allowed key ((sublist.map _).subset held)

/-- Setting a member that is there, or one whose name is a spelling of no other but perhaps
`schemas`. -/
theorem set (tidy : Tidy allowed resource) (allow : allowed name)
    (fresh : name ∉ Members.names resource →
      ∀ key ∈ Members.names resource, sameName key name = true → name = "schemas")
    (unambiguous : value.unambiguous = true) : Tidy allowed (Members.set resource name value) := by
  refine ⟨?_, tidy.values.set name unambiguous, fun key held => ?_⟩
  · by_cases present : name ∈ Members.names resource
    · unfold NearlyDistinct
      rw [names_set_of_mem present]
      exact tidy.names
    · rw [set_of_not_mem present]
      refine tidy.names.append (fun key held same => ⟨?_, fresh present key held same⟩) value
      rintro rfl
      exact present held
  · rw [mem_names_set] at held
    cases held with
    | inl equal =>
        rw [equal]
        exact allow
    | inr there => exact tidy.allowed key there

theorem setSchemas (tidy : Tidy allowed resource) (allow : allowed "schemas")
    (unambiguous : value.unambiguous = true) :
    Tidy allowed (Members.set resource "schemas" value) :=
  tidy.set allow (fun _ _ _ _ => rfl) unambiguous

theorem setAttr (tidy : Tidy allowed resource) (allow : allowed attr)
    (unambiguous : value.unambiguous = true) :
    Tidy allowed (Members.setAttr resource attr value) := by
  unfold Members.setAttr
  cases found : key? resource attr with
  | some key =>
      have held := (key?_eq_some found).1
      exact tidy.set (tidy.allowed key held) (fun absent => absurd held absent) unambiguous
  | none =>
      refine tidy.set allow (fun _ key held same => ?_) unambiguous
      rw [Option.getD_none, key?_eq_none_iff.mp found key held] at same
      cases same

theorem delAttr (tidy : Tidy allowed resource) (attr : String) :
    Tidy allowed (Members.delAttr resource attr) :=
  tidy.of_sublist (delAttr_sublist resource attr)

theorem merge {values : Members} (tidy : Tidy allowed resource)
    (allow : ∀ key ∈ Members.names values, allowed key) (all : AllUnambiguous values) :
    Tidy allowed (Members.merge resource values) := by
  induction values generalizing resource with
  | nil => exact tidy
  | cons member rest ih =>
      apply ih
      · apply tidy.setAttr
        · exact allow member.1 List.mem_cons_self
        · exact all member List.mem_cons_self
      · exact fun key held => allow key (List.mem_cons_of_mem _ held)
      · exact fun other held => all other (List.mem_cons_of_mem _ held)

theorem edit (tidy : Tidy allowed resource) (allow : allowed attr) {edit : AttrEdit}
    (unambiguous : edit.Unambiguous) : Tidy allowed (edit.on attr resource) := by
  cases edit with
  | keep => exact tidy
  | put value => exact tidy.setAttr allow (unambiguous value rfl)
  | drop => exact tidy.delAttr attr

theorem modify (tidy : Tidy allowed resource) {f : Json → Json} (key : String)
    (kept : ∀ value, Members.get? resource key = some value → (f value).unambiguous = true) :
    Tidy allowed (Members.modify resource key f) := by
  refine ⟨?_, fun changed held => ?_, fun other held => ?_⟩
  · unfold NearlyDistinct
    rw [names_modify]
    exact tidy.names
  · obtain ⟨⟨first, value⟩, inResource, rfl⟩ := List.mem_map.mp held
    dsimp only
    split
    · next equal =>
      subst equal
      exact kept value (get?_of_mem tidy.names.nodup inResource)
    · exact tidy.values _ inResource
  · rw [names_modify] at held
    exact tidy.allowed other held

/-- An edit of an attribute in a home leaves a resource tidy. -/
theorem update {home : Home} (tidy : Tidy allowed resource) {edit : AttrEdit}
    {f : Members → Members} (unambiguous : edit.Unambiguous)
    (agrees : f (home.members resource) = edit.on attr (home.members resource))
    (allow : home = .core → allowed attr) : Tidy allowed (home.update resource f) := by
  cases home with
  | core =>
      have edited : f resource = edit.on attr resource := agrees
      rw [Home.update, edited]
      exact tidy.edit (allow rfl) unambiguous
  | extension key =>
      rw [Home.update]
      refine tidy.modify key fun value held => ?_
      have unambiguousValue := tidy.values.get? held
      cases value with
      | obj members =>
          have inside : (Home.extension key).members resource = members := by
            rw [Home.members, held]
          rw [inside] at agrees
          dsimp only
          rw [agrees]
          cases edit with
          | keep => exact unambiguousValue
          | put value => exact Json.unambiguous_setAttr unambiguousValue attr (unambiguous value rfl)
          | drop => exact Json.unambiguous_delAttr unambiguousValue attr
      | _ => exact unambiguousValue

theorem decided {home : Home} {decision : Except Failure AttrEdit} (tidy : Tidy allowed resource)
    (decided : Patch.Decided home attr resource decision (.ok (), after))
    (unambiguous : ∀ edit, decision = .ok edit → edit.Unambiguous)
    (allow : home = .core → allowed attr) : Tidy allowed after := by
  obtain ⟨edit, f, decisionEq, rfl, agrees⟩ := decided.exists_update
  exact tidy.update (unambiguous edit decisionEq) agrees allow

/-- The values of the members of a home are unambiguous. -/
theorem attr_members (tidy : Tidy allowed resource) (home : Home) (attr : String) :
    (Members.attr (home.members resource) attr).unambiguous = true := by
  cases home with
  | core => exact tidy.values.attr attr
  | extension key =>
      unfold Home.members
      dsimp only
      split
      · next members held => exact Json.unambiguous_attr (tidy.values.get? held) attr
      · rfl

end Tidy

end Members

end Scim
