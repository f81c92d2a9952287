import Mathlib.Data.List.Nodup
import Mathlib.Data.List.Perm.Subperm
import Scim.Proofs.Action
import Scim.Proofs.Resource.Ambiguity
import Scim.Query.Projection

/-!
# What projections leave of a resource

A projection copies parts of a resource, or leaves parts of it out.  Either way the objects
that it holds have only names that they had, each once, and the URN that it declares first
is the one that the resource declared first, if there is one left.
-/

namespace Scim

open Members

variable {resource source target after members object element : Members} {value whole : Json}
  {key uri name attr : String} {elements : List Json}

/-! ## Names -/

theorem Members.Distinct.nodup (distinct : Distinct members) : (names members).Nodup := by
  refine distinct.imp fun {first last} differ equal => ?_
  rw [equal, sameName_refl] at differ
  cases differ

theorem Members.Distinct.of_subperm (distinct : Distinct source)
    (fewer : (names target).Subperm (names source)) : Distinct target := by
  obtain ⟨_, perm, sublist⟩ := fewer
  have symmetric {a b : String} (differ : sameName a b = false) : sameName b a = false :=
    (sameName_comm b a).trans differ
  exact (perm.pairwise_iff symmetric).mp (List.Pairwise.sublist sublist distinct)

/-- Setting a member under a name of an object adds no other name to what is left of its names. -/
theorem Members.names_set_subperm (fewer : (names target).Subperm (names source))
    (nodup : (names source).Nodup) (held : key ∈ names source) (value : Json) :
    (names (set target key value)).Subperm (names source) := by
  by_cases present : key ∈ names target
  · rw [names_set_of_mem present]
    exact fewer
  · rw [names_set_of_not_mem present]
    obtain ⟨_, perm, sublist⟩ := id fewer
    have distinct : (names target).Nodup := perm.nodup_iff.mp (nodup.sublist sublist)
    apply List.Nodup.subperm
    · rw [← List.concat_eq_append]
      exact List.Nodup.concat present distinct
    · intro other inTarget
      cases List.mem_append.mp inTarget with
      | inl before => exact fewer.subset before
      | inr last =>
          cases List.mem_singleton.mp last
          exact held

/-- A name of members of distinct names is the stored spelling of all of its spellings. -/
theorem Members.Distinct.key?_eq (distinct : Distinct members) (held : key ∈ names members)
    (same : sameName key uri = true) : key? members uri = some key := by
  cases found : key? members uri with
  | none =>
      have differ := key?_eq_none_iff.mp found key held
      rw [same] at differ
      cases differ
  | some other =>
      obtain ⟨inMembers, spelled⟩ := key?_eq_some found
      have alike : sameName other key = true := by
        rw [sameName_congr spelled, sameName_comm]
        exact same
      by_contra differ
      have symmetric : Std.Symm fun a b => sameName a b = false :=
        ⟨fun a b apart => (sameName_comm b a).trans apart⟩
      have apart := List.Pairwise.forall distinct inMembers held (fun equal => differ (by rw [equal]))
      rw [alike] at apart
      cases apart

/-! ## The URN that is declared first -/

/-- The URN that a list of declared URNs starts with; a text starts with a character. -/
def Json.leading : Json → Option String
  | .arr (.str first :: _) => some first
  | .str s => s.toList.head?.map String.singleton
  | _ => none

/-- A URN that is not registered is taken for that of the core schema if it is declared first. -/
theorem Members.isCoreUri_iff_leading (unregistered : Schema.find? uri = none) :
    isCoreUri resource uri = .ok true ↔
      ∃ value first, get? resource "schemas" = some value ∧ value.leading = some first ∧
        sameName first uri = true := by
  rw [isCoreUri, unregistered]
  cases held : get? resource "schemas" with
  | none => simp [Json.isVoid]
  | some value =>
      cases value with
      | arr items =>
          cases items with
          | nil => simp [Json.isVoid, Json.leading]
          | cons first rest => cases first <;> simp [Json.isVoid, Json.leading]
      | str s =>
          by_cases empty : s = ""
          · simp [Json.isVoid, Json.leading, empty]
          · cases heads : s.toList.head? <;> simp [Json.isVoid, Json.leading, empty, heads]
      | null => simp [Json.isVoid, Json.leading]
      | bool _ | int _ | double _ | obj _ =>
          simp only [Option.getD_some, Json.leading]
          split <;> simp [failWith]

/-- Spellings of one URN are taken for that of the core schema alike. -/
theorem Members.isCoreUri_congr {other : String} (same : sameName uri other = true)
    (core : isCoreUri resource uri = .ok true) : isCoreUri resource other = .ok true := by
  have found : Schema.find? other = Schema.find? uri := (Schema.find?_congr same).symm
  cases registered : Schema.find? uri with
  | some part =>
      rw [isCoreUri, registered] at core
      rw [isCoreUri, found, registered]
      exact core
  | none =>
      obtain ⟨value, first, held, leads, spelled⟩ := (isCoreUri_iff_leading registered).mp core
      exact (isCoreUri_iff_leading (found.trans registered)).mpr
        ⟨value, first, held, leads, (sameName_congr_right same first).symm.trans spelled⟩

/-! ## Less of a value -/

/-- Whether a value can be what is left of another one: an object has names of the object that was
there, each once, and the URN that is declared first was first there. -/
structure Json.LeftOf (value whole : Json) : Prop where
  names : ∀ object, value = .obj object →
    ∃ members, whole = .obj members ∧ (Members.names object).Subperm (Members.names members)
  leading : ∀ first, value.leading = some first → whole.leading = some first

namespace Json.LeftOf

theorem refl (value : Json) : LeftOf value value :=
  ⟨fun object is => ⟨object, is, .refl _⟩, fun _ leads => leads⟩

theorem trans {middle : Json} (first : LeftOf value middle) (last : LeftOf middle whole) :
    LeftOf value whole := by
  constructor
  · intro object is
    obtain ⟨between, middleIs, fewer⟩ := first.names object is
    obtain ⟨members, wholeIs, fewest⟩ := last.names between middleIs
    exact ⟨members, wholeIs, fewer.trans fewest⟩
  · exact fun uri leads => last.leading uri (first.leading uri leads)

theorem of_names (fewer : (Members.names object).Subperm (Members.names members)) :
    LeftOf (.obj object) (.obj members) := by
  refine ⟨?_, nofun⟩
  rintro _ ⟨⟩
  exact ⟨members, rfl, fewer⟩

theorem of_leading {items : List Json}
    (leads : ∀ first, Json.leading (.arr items) = some first → whole.leading = some first) :
    LeftOf (.arr items) whole := ⟨nofun, leads⟩

end Json.LeftOf

/-- Whether members can be what is left of others: their names are names of the others, each once,
and so is what is under them. -/
structure Members.LeftOf (target source : Members) : Prop where
  names : (names target).Subperm (names source)
  values : ∀ key value, get? target key = some value →
    ∃ whole, get? source key = some whole ∧ value.LeftOf whole

namespace Members.LeftOf

theorem refl (members : Members) : LeftOf members members :=
  ⟨.refl _, fun _ value held => ⟨value, held, .refl value⟩⟩

theorem nil (members : Members) : LeftOf [] members := ⟨List.nil_subperm, nofun⟩

theorem trans {middle : Members} (first : LeftOf target middle) (last : LeftOf middle source) :
    LeftOf target source := by
  refine ⟨first.names.trans last.names, fun key value held => ?_⟩
  obtain ⟨between, heldBetween, less⟩ := first.values key value held
  obtain ⟨whole, heldWhole, least⟩ := last.values key between heldBetween
  exact ⟨whole, heldWhole, less.trans least⟩

theorem distinct (left : LeftOf target source) (distinct : Distinct source) : Distinct target :=
  distinct.of_subperm left.names

theorem lacks (left : LeftOf target source) (lacks : Lacks source name) : Lacks target name :=
  fun key held => lacks key (left.names.subset held)

/-- A URN that is taken for that of the core schema was taken for it before. -/
theorem isCoreUri (left : LeftOf target source) (core : Members.isCoreUri target uri = .ok true) :
    Members.isCoreUri source uri = .ok true := by
  cases registered : Schema.find? uri with
  | some part =>
      rw [Members.isCoreUri, registered] at core ⊢
      exact core
  | none =>
      rw [isCoreUri_iff_leading registered] at core ⊢
      obtain ⟨value, first, held, leads, same⟩ := core
      obtain ⟨whole, heldWhole, less⟩ := left.values "schemas" value held
      exact ⟨whole, first, heldWhole, less.leading first leads, same⟩

/-! ### Changes that take something away -/

theorem erase (members : Members) (key : String) : LeftOf (Members.erase members key) members := by
  constructor
  · exact (List.filter_sublist.map _).subperm
  · intro other value held
    rw [get?_erase] at held
    split at held
    · cases held
    · exact ⟨value, held, .refl value⟩

theorem modify (members : Members) (key : String) {f : Json → Json}
    (less : ∀ value : Json, (f value).LeftOf value) :
    LeftOf (Members.modify members key f) members := by
  constructor
  · rw [names_modify]
  · intro other value held
    rw [get?_modify] at held
    split at held
    · next same =>
      subst same
      obtain ⟨whole, heldWhole, rfl⟩ := Option.map_eq_some_iff.mp held
      exact ⟨whole, heldWhole, less whole⟩
    · exact ⟨value, held, .refl value⟩

theorem delAttr (members : Members) (name : String) :
    LeftOf (Members.delAttr members name) members := by
  rw [delAttr_eq_erase]
  exact erase members _

/-! ### Copies -/

/-- A part of what is under a name can be put under this name. -/
theorem set (left : LeftOf target source) (nodup : (Members.names source).Nodup)
    (held : get? source key = some whole) (less : value.LeftOf whole) :
    LeftOf (Members.set target key value) source := by
  have inSource : key ∈ Members.names source := by
    rw [← get?_isSome_iff, held]
    rfl
  constructor
  · exact names_set_subperm left.names nodup inSource value
  · intro other stored found
    rw [get?_set] at found
    split at found
    · next same =>
      cases found
      subst same
      exact ⟨whole, held, less⟩
    · exact left.values other stored found

end Members.LeftOf

/-! ## What is copied -/

/-- What holds at the start of a run of steps and is kept by each of them holds at its end. -/
theorem foldlM_induction {α β : Type} {step : β → α → Except Failure β} (holds : β → Prop)
    (kept : ∀ value item next, holds value → step value item = .ok next → holds next)
    {items : List α} {start result : β} (first : holds start)
    (ran : items.foldlM step start = .ok result) : holds result := by
  induction items generalizing start with
  | nil =>
      cases ran
      exact first
  | cons item rest ih =>
      rw [List.foldlM_cons] at ran
      obtain ⟨next, stepped, ran⟩ := bind_eq_ok_iff.mp ran
      exact ih (kept start item next first stepped) ran

namespace Projection

theorem copySub_names {sub : String} (fewer : (names object).Subperm (names element))
    (nodup : (names element).Nodup) :
    (names (copySub sub element object)).Subperm (names element) := by
  unfold copySub
  split
  · next key found => exact names_set_subperm fewer nodup (key?_eq_some found).1 _
  · exact fewer

/-- Changing the object under a name sets it to a part of an object, if the change makes parts of
the object out of parts of it. -/
theorem updateObject_eq (members : Members) (key : String) (f : Members → Members) :
    ∃ value, updateObject members key f = Members.set members key value ∧
      ∀ whole, (∀ current, get? members key = some current → current.LeftOf (.obj whole)) →
        (∀ object, (names object).Subperm (names whole) →
          (names (f object)).Subperm (names whole)) →
        value.LeftOf (.obj whole) := by
  unfold updateObject
  split
  · next object held =>
    refine ⟨_, rfl, fun whole less kept => .of_names (kept object ?_)⟩
    obtain ⟨_, ⟨⟩, fewer⟩ := (less _ held).names object rfl
    exact fewer
  · next other _ held => exact ⟨other, rfl, fun whole less _ => less other held⟩
  · exact ⟨_, rfl, fun whole _ kept => .of_names (kept [] List.nil_subperm)⟩

/-- The projections of the elements of a list start with a text only if the list does. -/
theorem leading_copySubs {sub first : String} {existing : Option Json}
    (less : ∀ value, existing = some value → value.LeftOf (.arr elements))
    (leads : Json.leading (.arr (copySubs sub elements existing)) = some first) :
    Json.leading (.arr elements) = some first := by
  cases elements with
  | nil => cases leads
  | cons element rest =>
      -- a text among the projections is there already, as nothing is copied to it
      have held : ∃ others, existing = some (.arr (.str first :: others)) := by
        unfold copySubs at leads
        dsimp only at leads
        split at leads
        · next items =>
          split at leads
          · rcases items with _ | ⟨item, others⟩
            · cases leads
            · refine ⟨others, ?_⟩
              cases item <;> cases element <;> first | cases leads; rfl | cases leads
          · cases element <;> cases leads
        · cases element <;> cases leads
      obtain ⟨others, is⟩ := held
      exact (less _ is).leading first rfl

/-- Copying an attribute puts a part of its value under its name, if anything. -/
theorem copyAttr_eq (source : Members) (attr : String) (sub : Option String) (target : Members) :
    copyAttr source attr sub target = target ∨
      ∃ key value whole, get? source key = some whole ∧
        copyAttr source attr sub target = Members.set target key value ∧
        ((∀ current, get? target key = some current → current.LeftOf whole) →
          whole.unambiguous = true → value.LeftOf whole) := by
  unfold copyAttr
  split
  · exact .inl rfl
  · next key found =>
    obtain ⟨whole, held⟩ : ∃ whole, get? source key = some whole :=
      Option.isSome_iff_exists.mp ((get?_isSome_iff source key).mpr (key?_eq_some found).1)
    rw [held, Option.getD_some]
    cases sub with
    | none => exact .inr ⟨key, whole, whole, held, rfl, fun _ _ => .refl whole⟩
    | some sub =>
        cases whole with
        | arr elements =>
            refine .inr ⟨key, _, _, held, rfl, fun less _ => .of_leading fun first leads => ?_⟩
            exact leading_copySubs less leads
        | obj element =>
            dsimp only
            split
            · exact .inl rfl
            · obtain ⟨value, updated, less⟩ := updateObject_eq target key (copySub sub element)
              refine .inr ⟨key, value, _, held, updated, fun lessThere unambiguous => ?_⟩
              refine less element lessThere fun object fewer => ?_
              exact copySub_names fewer (Json.unambiguous_obj_iff.mp unambiguous).1.nodup
        | _ => exact .inl rfl

theorem copyAttr_names {source : Members} {sub : Option String}
    (fewer : (names object).Subperm (names source)) (nodup : (names source).Nodup) :
    (names (copyAttr source attr sub object)).Subperm (names source) := by
  rcases copyAttr_eq source attr sub object with same | ⟨key, value, whole, held, set, _⟩
  · rw [same]
    exact fewer
  · rw [set]
    refine names_set_subperm fewer nodup ?_ value
    rw [← get?_isSome_iff, held]
    rfl

/-- The source of a path is the resource itself or an object in it. -/
theorem source?_eq_ok {φ : Type} {path : PathOf φ} {extension : Option String}
    (looked : source? resource path = .ok (some (source, extension))) :
    extension = none ∧ source = resource ∨
      ∃ key, extension = some key ∧ get? resource key = some (.obj source) := by
  unfold source? at looked
  split at looked
  · cases looked
    exact .inl ⟨rfl, rfl⟩
  · obtain ⟨core, _, looked⟩ := bind_eq_ok_iff.mp looked
    split at looked
    · cases looked
      exact .inl ⟨rfl, rfl⟩
    · split at looked
      · cases looked
      · split at looked
        · next key _ _ object held =>
          cases looked
          exact .inr ⟨key, rfl, held⟩
        · cases looked

section

variable (unambiguous : (Json.obj resource).unambiguous = true)
include unambiguous

theorem leftOf_copyAttr (left : target.LeftOf resource) (attr : String) (sub : Option String) :
    (copyAttr resource attr sub target).LeftOf resource := by
  obtain ⟨distinct, all⟩ := Json.unambiguous_obj_iff.mp unambiguous
  rcases copyAttr_eq resource attr sub target with same | ⟨key, value, whole, held, set, less⟩
  · rw [same]
    exact left
  · rw [set]
    refine left.set distinct.nodup held (less (fun current there => ?_) (AllUnambiguous.get? all held))
    obtain ⟨_, heldWhole, lessThere⟩ := left.values key current there
    rw [held] at heldWhole
    cases heldWhole
    exact lessThere

theorem leftOf_copyPath (left : target.LeftOf resource) {path : AttributePath}
    (copied : copyPath resource target path = .ok after) : after.LeftOf resource := by
  obtain ⟨distinct, all⟩ := Json.unambiguous_obj_iff.mp unambiguous
  obtain ⟨uri, named, restriction, sub⟩ := path
  obtain ⟨found, looked, rest⟩ := bind_eq_ok_iff.mp copied
  rcases found with _ | ⟨source, extension⟩
  · cases rest
    exact left
  · rcases source?_eq_ok looked with ⟨rfl, rfl⟩ | ⟨key, rfl, held⟩
    · cases named with
      | none =>
          cases rest
          exact left
      | some attr =>
          cases rest
          exact leftOf_copyAttr unambiguous left attr sub
    · have nodup := (Json.unambiguous_obj_iff.mp (AllUnambiguous.get? all held)).1.nodup
      cases named with
      | none =>
          cases rest
          exact left.set distinct.nodup held (.refl _)
      | some attr =>
          dsimp only at rest
          split at rest
          · cases rest
            exact left
          · cases rest
            obtain ⟨value, updated, less⟩ := updateObject_eq target key (copyAttr source attr sub)
            rw [updated]
            refine left.set distinct.nodup held (less source (fun current there => ?_) ?_)
            · obtain ⟨_, heldWhole, lessThere⟩ := left.values key current there
              rw [held] at heldWhole
              cases heldWhole
              exact lessThere
            · exact fun object fewer => copyAttr_names fewer nodup

theorem leftOf_required (schema : Option ResourceSchema) :
    (required resource schema).LeftOf resource := by
  unfold required
  generalize requiredNames schema = wanted
  have copies (start : Members) (left : start.LeftOf resource) :
      (wanted.foldl (fun result name => copyAttr resource name none result) start).LeftOf
        resource := by
    induction wanted generalizing start with
    | nil => exact left
    | cons name rest ih => exact ih _ (leftOf_copyAttr unambiguous left name none)
  exact copies [] (.nil resource)

theorem leftOf_only {schema : Option ResourceSchema} {attributes : List String}
    (copied : only resource schema attributes = .ok after) : after.LeftOf resource := by
  refine foldlM_induction (LeftOf · resource) (fun target text next left copied => ?_)
    (leftOf_required unambiguous schema) copied
  obtain ⟨path, _, copied⟩ := bind_eq_ok_iff.mp copied
  exact leftOf_copyPath unambiguous left copied

end

/-! ## What is dropped -/

theorem leftOf_dropAttr (attr : String) (sub : Option String) (members : Members) :
    (dropAttr attr sub members).LeftOf members := by
  unfold dropAttr
  cases sub with
  | none => exact .delAttr members attr
  | some sub =>
      dsimp only
      split
      · exact .refl members
      · refine .modify members _ fun value => ?_
        cases value with
        | arr items =>
            refine .of_leading fun first leads => ?_
            rcases items with _ | ⟨item, rest⟩
            · cases leads
            · cases item <;> cases leads
              rfl
        | obj element => exact .of_names (Members.LeftOf.delAttr element sub).names
        | _ => exact .refl _

/-- What is left when a path is dropped is left of the resource. -/
theorem leftOf_dropPath {φ : Type} {path : PathOf φ} (distinct : Distinct resource)
    (dropped : dropPath resource path = .ok after) : after.LeftOf resource := by
  obtain ⟨uri, named, restriction, sub⟩ := path
  obtain ⟨found, looked, rest⟩ := bind_eq_ok_iff.mp dropped
  rcases found with _ | ⟨source, extension⟩
  · cases rest
    exact .refl resource
  · rcases source?_eq_ok looked with ⟨rfl, _⟩ | ⟨key, rfl, held⟩
    · cases named with
      | none =>
          cases rest
          exact .refl resource
      | some attr =>
          cases rest
          exact leftOf_dropAttr attr sub resource
    · cases named with
      | none =>
          cases rest
          exact .erase resource key
      | some attr =>
          cases rest
          obtain ⟨value, updated, less⟩ := updateObject_eq resource key (dropAttr attr sub)
          rw [updated]
          refine (Members.LeftOf.refl resource).set distinct.nodup held (less source ?_ ?_)
          · intro current there
            rw [held] at there
            cases there
            exact .refl _
          · exact fun object fewer => (leftOf_dropAttr attr sub object).names.trans fewer

theorem leftOf_allBut {schema : Option ResourceSchema} {excluded : List String}
    (distinct : Distinct resource) (dropped : allBut resource schema excluded = .ok after) :
    after.LeftOf resource := by
  refine foldlM_induction (LeftOf · resource) (fun target text next left dropped => ?_) (.refl resource) dropped
  obtain ⟨path, _, dropped⟩ := bind_eq_ok_iff.mp dropped
  split at dropped
  · cases dropped
    exact left
  · exact (leftOf_dropPath (left.distinct distinct) dropped).trans left

/-- What a request leaves of a resource, before what is never returned is dropped. -/
def requested (resource : Members) (schema : Option ResourceSchema)
    (attributes excluded : List String) : Except Failure Members :=
  if attributes.isEmpty then allBut resource schema excluded else only resource schema attributes

theorem leftOf_requested (unambiguous : (Json.obj resource).unambiguous = true)
    {schema : Option ResourceSchema} {attributes excluded : List String}
    (left : requested resource schema attributes excluded = .ok target) :
    target.LeftOf resource := by
  unfold requested at left
  split at left
  · exact leftOf_allBut (Json.unambiguous_obj_iff.mp unambiguous).1 left
  · exact leftOf_only unambiguous left

theorem project_eq (resource : Members) (schema : ResourceSchema)
    (attributes excluded : List String) :
    project resource attributes excluded (some schema) =
      requested resource (some schema) attributes excluded >>= dropHidden (some schema) := by
  rw [project, requested]
  cases attributes <;> rfl

end Projection

end Scim
