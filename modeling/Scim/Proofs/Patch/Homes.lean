import Scim.Proofs.Patch.Carrying

/-!
# The home that a path addresses

The attributes under a URN are those of the resource itself or those of an extension.  An
operation whose path has an attribute edits this attribute in the home that its path
addresses, as it decides there.  If the object of an extension is not there, then it is
created empty and its URN declared.
-/

namespace Scim

open Members

variable {schema : Option ResourceSchema} {path : AttributePath} {attr sub uri : String}
  {value current : Json} {members resource after : Members} {home : Home}

/-! ## The home that a path addresses -/

/-- Whether the attributes under a URN are those of the resource itself: there is none, or it
is the URN of the schema, or, without a schema, that of the kind of the resource while no
object is kept under it. -/
def isCoreHome (schema : Option ResourceSchema) (resource : Members) (uri : Option String) : Bool :=
  match uri, schema with
  | none, _ => true
  | some uri, some schema => sameName schema.urn uri
  | some uri, none =>
    !(Members.attr resource uri).isObj && (Members.isCoreUri resource uri).toOption == some true

/-- The home of the attributes under a URN: the resource itself, or the object of the
extension under the stored spelling of the URN, whether it is there or not. -/
def addressed (schema : Option ResourceSchema) (resource : Members) (uri : Option String) : Home :=
  if isCoreHome schema resource uri then .core else .extension (place resource (uri.getD ""))

namespace Home

/-- Whether the object of a home is there. -/
def IsThere (home : Home) (resource : Members) : Prop :=
  match home with
  | core => True
  | extension key => ∃ members, get? resource key = some (.obj members)

theorem IsThere.members_update (there : home.IsThere resource) (f : Members → Members) :
    home.members (home.update resource f) = f (home.members resource) := by
  cases home with
  | core => rfl
  | extension key =>
      obtain ⟨held, found⟩ := there
      simp only [members, update, get?_modify, if_pos, found, Option.map_some]

/-- A value that is no object has no members. -/
theorem members_of_not_object (notObject : (Members.attr resource uri).isObj = false) :
    Home.members (.extension (place resource uri)) resource = [] := by
  rw [Members.attr, ← get?_place] at notObject
  unfold Home.members
  dsimp only
  split
  · next members object =>
    rw [object] at notObject
    cases notObject
  · rfl

end Home

theorem isObj_of_attr (held : (Members.attr resource uri).isObj = true) :
    key? resource uri = some (place resource uri) ∧
      ∃ members, get? resource (place resource uri) = some (.obj members) := by
  cases found : key? resource uri with
  | none =>
      rw [Members.attr, attr?, found] at held
      cases held
  | some key =>
      rw [place_of_key? found]
      rw [Members.attr, attr?, found, Option.bind_some] at held
      cases stored : get? resource key with
      | none =>
          rw [stored] at held
          cases held
      | some value =>
          rw [stored] at held
          cases value with
          | obj members => exact ⟨rfl, members, rfl⟩
          | _ => cases held

/-- The look for a home, by what is kept under the URN of a path. -/
theorem homeFor_of_uri (uriEq : path.uri = some uri) :
    homeFor resource path schema = do
      checkUri resource uri schema
      if schema.any (sameName ·.urn uri) then return some .core
      if (Members.attr resource uri).isObj then return some (.extension (place resource uri))
      if schema.isNone then
        if ← Members.isCoreUri resource uri then return some .core else return none
      else return none := by
  unfold homeFor
  rw [uriEq]
  dsimp only
  congr 1
  funext _
  cases schema.any (sameName ·.urn uri) with
  | true => rfl
  | false =>
      cases object : (Members.attr resource uri).isObj with
      | true =>
          obtain ⟨keyEq, _⟩ := isObj_of_attr object
          rw [keyEq]
          cases held : Members.attr resource uri with
          | obj members => rfl
          | _ =>
              rw [held] at object
              cases object
      | false =>
          cases held : Members.attr resource uri with
          | obj members =>
              rw [held] at object
              cases object
          | _ => cases key? resource uri <;> rfl

/-- A path leads to a home if its URN is known and the home is there. -/
theorem homeFor_of_checkUri {schema : ResourceSchema} (uriEq : path.uri = some uri)
    (known : checkUri resource uri (some schema) = .ok ()) :
    homeFor resource path (some schema) =
      .ok (if sameName schema.urn uri then some .core
        else if (Members.attr resource uri).isObj then some (.extension (place resource uri))
        else none) := by
  rw [homeFor_of_uri uriEq, known, Option.any_some]
  cases sameName schema.urn uri with
  | true => rfl
  | false => cases (Members.attr resource uri).isObj <;> rfl

theorem checkUri_of_homeFor {home? : Option Home} (uriEq : path.uri = some uri)
    (found : homeFor resource path schema = .ok home?) : checkUri resource uri schema = .ok () := by
  rw [homeFor_of_uri uriEq] at found
  obtain ⟨⟨⟩, known, _⟩ := bind_eq_ok_iff.mp found
  exact known

/-- Under a URN the resource itself is found, if it is the home there, and else the object that is
kept there. -/
theorem eq_of_homeFor {home? : Option Home} (uriEq : path.uri = some uri)
    (found : homeFor resource path schema = .ok home?) :
    home? = if isCoreHome schema resource (some uri) then some .core
      else if (Members.attr resource uri).isObj then some (.extension (place resource uri))
      else none := by
  rw [homeFor_of_uri uriEq] at found
  obtain ⟨_, _, rest⟩ := bind_eq_ok_iff.mp found
  cases schema with
  | some schema =>
      have core : isCoreHome (some schema) resource (some uri) = sameName schema.urn uri := rfl
      rw [Option.any_some] at rest
      rw [core]
      cases same : sameName schema.urn uri with
      | true =>
          rw [same] at rest
          cases rest
          rfl
      | false =>
          rw [same] at rest
          cases object : (Members.attr resource uri).isObj <;> rw [object] at rest <;> cases rest <;>
            rfl
  | none =>
      cases object : (Members.attr resource uri).isObj with
      | true =>
          rw [object] at rest
          cases rest
          rw [isCoreHome, object]
          rfl
      | false =>
          rw [object] at rest
          obtain ⟨isCore, coreEq, rest⟩ := bind_eq_ok_iff.mp rest
          rw [isCoreHome, object, coreEq]
          cases isCore <;> cases rest <;> rfl

/-- The home that is found for a path is the one that it addresses, and it is there.  If
none is found, then the path addresses an extension whose object is not there. -/
theorem homeFor_eq_ok {home? : Option Home} (found : homeFor resource path schema = .ok home?) :
    home? = some (addressed schema resource path.uri) ∧
        (addressed schema resource path.uri).IsThere resource ∨
      home? = none ∧ ∃ uri, path.uri = some uri ∧
        addressed schema resource path.uri = .extension (place resource uri) ∧
        (Members.attr resource uri).isObj = false := by
  cases uriEq : path.uri with
  | none =>
      rw [homeFor, uriEq] at found
      cases found
      exact .inl ⟨rfl, trivial⟩
  | some uri =>
      rw [eq_of_homeFor uriEq found, addressed]
      cases isCoreHome schema resource (some uri) with
      | true => exact .inl ⟨rfl, trivial⟩
      | false =>
          cases object : (Members.attr resource uri).isObj with
          | true => exact .inl ⟨rfl, (isObj_of_attr object).2⟩
          | false => exact .inr ⟨rfl, uri, rfl, rfl, object⟩

/-- A home that a path leads to is there. -/
theorem isThere_of_homeFor (found : homeFor resource path schema = .ok (some home)) :
    home.IsThere resource := by
  obtain ⟨is, there⟩ | ⟨⟨⟩, _⟩ := homeFor_eq_ok found
  cases is
  exact there

/-! ## Declaring a URN and creating a home -/

namespace Patch

/-- Declaring a URN changes nothing, or puts it behind the declared ones if these are texts that do
not have it. -/
theorem declareSchema_cases (ran : (declareSchema uri).run resource = (.ok (), after)) :
    after = resource ∨ ∃ urns, (Members.get? resource "schemas").getD (.arr []) = .arr urns ∧
      holdsUri uri urns = .ok false ∧
        after = Members.set resource "schemas" (.arr (urns ++ [.str uri])) := by
  obtain ⟨_, middle, started, ran⟩ := Action.run_bind_eq_ok_iff.mp ran
  have middleEq : (if (Members.get? resource "schemas").isNone then
      Members.set resource "schemas" (.arr []) else resource) = middle := congrArg Prod.snd started
  rw [Action.run_update] at ran
  cases found : Members.get? resource "schemas" with
  | none =>
      rw [found, Option.isNone_none, if_pos rfl] at middleEq
      subst middleEq
      rw [get?_set, if_pos rfl] at ran
      refine .inr ⟨[], rfl, rfl, ?_⟩
      exact (congrArg Prod.snd ran).symm.trans (set_set resource "schemas" _ _)
  | some schemas =>
      rw [found, if_neg (by simp)] at middleEq
      subst middleEq
      rw [found] at ran
      split at ran
      · next changed stepEq =>
        cases ran
        split at stepEq
        · next urns listed =>
          obtain ⟨has, searched, rest⟩ := bind_eq_ok_iff.mp stepEq
          cases has with
          | true => exact .inl (Except.ok.inj rest).symm
          | false => exact .inr ⟨urns, listed, searched, (Except.ok.inj rest).symm⟩
        · split at stepEq
          · exact .inl (Except.ok.inj stepEq).symm
          · cases stepEq
        · split at stepEq
          · exact .inl (Except.ok.inj stepEq).symm
          · cases stepEq
        · cases stepEq
      · cases ran

/-- Declaring a URN changes the list of declared URNs only. -/
theorem declareSchema_eq (ran : (declareSchema uri).run resource = (.ok (), after)) :
    after = resource ∨ ∃ value, after = Members.set resource "schemas" value := by
  rcases declareSchema_cases ran with same | ⟨_, _, _, changed⟩
  · exact .inl same
  · exact .inr ⟨_, changed⟩

theorem erase_declareSchema (ran : (declareSchema uri).run resource = (.ok (), after)) :
    Members.erase after "schemas" = Members.erase resource "schemas" := by
  rcases declareSchema_eq ran with rfl | ⟨value, rfl⟩
  · rfl
  · exact erase_set resource "schemas" value

theorem get?_declareSchema (ran : (declareSchema uri).run resource = (.ok (), after)) {key : String}
    (differ : key ≠ "schemas") : Members.get? after key = Members.get? resource key := by
  rcases declareSchema_eq ran with rfl | ⟨value, rfl⟩
  · rfl
  · rw [get?_set, if_neg differ]

/-- An empty object cannot take a URN in. -/
theorem not_declareSchema_object (held : Members.get? resource "schemas" = some (.obj [])) :
    (declareSchema uri).run resource ≠ (.ok (), after) := by
  intro ran
  obtain ⟨_, middle, started, ran⟩ := Action.run_bind_eq_ok_iff.mp ran
  have middleEq : (if (Members.get? resource "schemas").isNone then
      Members.set resource "schemas" (.arr []) else resource) = middle := congrArg Prod.snd started
  rw [held, if_neg (by simp)] at middleEq
  subst middleEq
  rw [Action.run_update, held] at ran
  cases ran

/-- Ensuring a home finds it, or puts an empty object under the URN of the path and declares the
URN. -/
theorem ensureHome_cases {middle : Members}
    (ran : (ensureHome schema path).run resource = (.ok home, middle)) :
    homeFor resource path schema = .ok (some home) ∧ middle = resource ∨
      ∃ uri, path.uri = some uri ∧ homeFor resource path schema = .ok none ∧
        home = .extension (place resource uri) ∧
        (declareSchema uri).run (setAttr resource uri (.obj [])) = (.ok (), middle) := by
  obtain ⟨home?, start, examined, ran⟩ := Action.run_bind_eq_ok_iff.mp ran
  obtain ⟨found, rfl⟩ := Prod.mk.inj examined
  cases home? with
  | some there =>
      cases ran
      exact .inl ⟨found, rfl⟩
  | none =>
      obtain ⟨⟨⟩, _⟩ | ⟨_, uri, uriEq, _⟩ := homeFor_eq_ok found
      dsimp only at ran
      rw [uriEq, Option.getD_some] at ran
      obtain ⟨before, middle', got, ran⟩ := Action.run_bind_eq_ok_iff.mp ran
      cases got
      obtain ⟨_, created, modified, ran⟩ := Action.run_bind_eq_ok_iff.mp ran
      have createdEq : setAttr resource uri (.obj []) = created := congrArg Prod.snd modified
      obtain ⟨_, declared, declares, ran⟩ := Action.run_bind_eq_ok_iff.mp ran
      cases ran
      subst createdEq
      exact .inr ⟨uri, uriEq, found, rfl, declares⟩

/-- The object that was put under a URN is not under the name of the list of declared URNs, and
stays when the URN is declared. -/
theorem created_of_declared
    (declares : (declareSchema uri).run (setAttr resource uri (.obj [])) = (.ok (), after)) :
    place resource uri ≠ "schemas" ∧ get? after (place resource uri) = some (.obj []) := by
  have held : get? (setAttr resource uri (.obj [])) (place resource uri) = some (.obj []) := by
    rw [setAttr_eq_set, get?_set, if_pos rfl]
  have differ : place resource uri ≠ "schemas" := by
    intro equal
    rw [equal] at held
    exact not_declareSchema_object held declares
  exact ⟨differ, (get?_declareSchema declares differ).trans held⟩

/-- A home that is ensured is the one that the path addresses.  Either it was there, or its
object was created empty and its URN declared. -/
theorem ensureHome_eq {middle : Members}
    (ran : (ensureHome schema path).run resource = (.ok home, middle)) :
    home = addressed schema resource path.uri ∧ home.IsThere middle ∧
      home.members middle = home.members resource ∧
      (home.members middle = [] ∨ homeFor middle path schema = .ok (some home)) ∧
      ∀ key, home = .extension key →
        Members.erase (Members.erase middle key) "schemas" =
          Members.erase (Members.erase resource key) "schemas" := by
  rcases ensureHome_cases ran with ⟨found, rfl⟩ | ⟨uri, uriEq, found, rfl, declares⟩
  · obtain ⟨is, there⟩ | ⟨⟨⟩, _⟩ := homeFor_eq_ok found
    cases is
    exact ⟨rfl, there, rfl, .inr found, fun _ _ => rfl⟩
  · obtain ⟨⟨⟩, _⟩ | ⟨_, other, isUri, is, notObject⟩ := homeFor_eq_ok found
    cases uriEq.symm.trans isUri
    have kept := (created_of_declared declares).2
    have empty : Home.members (.extension (place resource uri)) middle = [] := by
      simp only [Home.members, kept]
    have nothing : Home.members (.extension (place resource uri)) resource = [] :=
      Home.members_of_not_object notObject
    refine ⟨is.symm, ⟨[], kept⟩, empty.trans nothing.symm, .inl empty, ?_⟩
    rintro key ⟨⟩
    rw [erase_comm middle, erase_declareSchema declares, erase_comm _ "schemas", setAttr_eq_set,
      erase_set]

/-! ## Operations act in the home of their path -/

/-- What an operation does if it succeeds: it edits the attribute in the home that its path
addresses, as it decides there, and at most creates the home besides. -/
def Edits (schema : Option ResourceSchema) (path : AttributePath) (attr : String)
    (decide : Json → Except Failure AttrEdit) (resource after : Members) : Prop :=
  let home := addressed schema resource path.uri
  ∃ edit, decide (Members.attr (home.members resource) attr) = .ok edit ∧
    home.members after = edit.on attr (home.members resource) ∧
    ∀ key, home = .extension key →
      Members.erase (Members.erase after key) "schemas" =
        Members.erase (Members.erase resource key) "schemas"

/-- A decision that is carried out in a home which is there edits it and nothing else. -/
theorem Decided.edits {decision : Except Failure AttrEdit}
    (decided : Decided home attr resource decision (.ok (), after))
    (there : home.IsThere resource) :
    ∃ edit, decision = .ok edit ∧ home.members after = edit.on attr (home.members resource) ∧
      ∀ key, home = .extension key → Members.erase after key = Members.erase resource key := by
  obtain ⟨edit, f, decision, rfl, agrees⟩ := decided.exists_update
  refine ⟨edit, decision, (there.members_update f).trans agrees, ?_⟩
  rintro key rfl
  rw [Home.update]
  exact erase_modify resource key _

/-- What is decided in a home that was ensured is an edit of the resource. -/
theorem edits_of_ensured {middle : Members} {decide : Json → Except Failure AttrEdit}
    (ensured : (ensureHome schema path).run resource = (.ok home, middle))
    (decided : (home.members middle = [] ∨ homeFor middle path schema = .ok (some home)) →
      Decided home attr middle (decide (Members.attr (home.members middle) attr)) (.ok (), after)) :
    Edits schema path attr decide resource after := by
  obtain ⟨rfl, there, same, reached, beside⟩ := ensureHome_eq ensured
  obtain ⟨edit, decision, edited, kept⟩ := (decided reached).edits there
  rw [same] at decision edited
  refine ⟨edit, decision, edited, fun key is => ?_⟩
  rw [kept key is, beside key is]

end Patch

theorem PatchOperation.edits_of_run {operation : PatchOperation} {text : String}
    (textEq : operation.path = some text) (parsed : PathOf.parse text = .ok path)
    (attrEq : path.attr = some attr)
    (ran : (operation.apply schema).run resource = (.ok (), after)) :
    Patch.Edits schema path attr (operation.decision schema path attr) resource after := by
  obtain ⟨op, _, value⟩ := operation
  cases textEq
  obtain ⟨target, start, aimed, ran⟩ := Action.run_bind_eq_ok_iff.mp ran
  obtain ⟨aim, rfl⟩ := Prod.mk.inj aimed
  obtain ⟨read, readEq, rest⟩ := bind_eq_ok_iff.mp aim
  obtain ⟨_, _, is⟩ := bind_eq_ok_iff.mp rest
  rw [parsed] at readEq
  cases readEq
  cases is
  cases op with
  | add =>
      obtain ⟨home, middle, ensured, _⟩ := Action.run_bind_eq_ok_iff.mp ran
      refine Patch.edits_of_ensured ensured fun reached => ?_
      have decided := Patch.decided_add attrEq reached value ensured
      rwa [ran] at decided
  | replace =>
      obtain ⟨home, middle, ensured, _⟩ := Action.run_bind_eq_ok_iff.mp ran
      refine Patch.edits_of_ensured ensured fun reached => ?_
      have decided := Patch.decided_replace attrEq reached value ensured
      rwa [ran] at decided
  | remove =>
      obtain ⟨home?, start, examined, rest⟩ := Action.run_bind_eq_ok_iff.mp ran
      obtain ⟨found, rfl⟩ := Prod.mk.inj examined
      rcases homeFor_eq_ok found with ⟨rfl, there⟩ | ⟨rfl, uri, uriEq, is, notObject⟩
      · have decided := Patch.decided_remove attrEq found value
        dsimp only at ran
        rw [ran] at decided
        obtain ⟨edit, decision, edited, kept⟩ := decided.edits there
        exact ⟨edit, decision, edited, fun key is => by rw [kept key is]⟩
      · cases rest
        have nothing : (addressed schema resource path.uri).members resource = [] := by
          rw [is]
          exact Home.members_of_not_object notObject
        refine ⟨.keep, ?_, rfl, fun _ _ => rfl⟩
        rw [nothing]
        rfl

end Scim
