import Scim.Proofs.Query.Copying
import Scim.Proofs.Query.Parts

/-!
# What projections drop

What a path names is dropped at the end of its trail: the member that the last name finds is taken
away, or that of each element of a list.  What a slot holds stays alike unless the trail severs it:
unless the trail leads to the slot or on the way to it, or to something in what the slot holds.
-/

namespace Scim

open Members

namespace Projection

/-! ## Dropping along trails -/

/-- Puts a value under the name of a member, or takes the member away if there is none. -/
def assign (members : Members) (key : String) : Option Json → Members
  | none => erase members key
  | some value => set members key value

/-- Takes a sub-attribute away from an element of a list. -/
def dropSub (sub : String) : Json → Json
  | .obj element => .obj (delAttr element sub)
  | value => value

/-- What is left of a value when what is at the end of a trail is dropped. -/
def dropAt : List String → Json → Option Json
  | [], _ => none
  | name :: rest, .obj members =>
    match key? members name with
    | none => some (.obj members)
    | some key => some (.obj (assign members key ((get? members key).bind (dropAt rest))))
  | name :: _, .arr elements => some (.arr (elements.map (dropSub name)))
  | _ :: _, value => some value

/-- What is left of an object when what is at the end of a trail is dropped. -/
def dropMember (members : Members) (name : String) (rest : List String) : Members :=
  match key? members name with
  | none => members
  | some key => assign members key ((get? members key).bind (dropAt rest))

variable {members object others resource target after : Members} {value whole : Json}
  {name key : String} {trail rest slot : List String} {path : AttributePath}

theorem dropMember_of_key? (found : key? members name = some key) (rest : List String) :
    dropMember members name rest =
      assign members key ((get? members key).bind (dropAt rest)) := by
  rw [dropMember, found]

theorem dropMember_of_none (absent : key? members name = none) (rest : List String) :
    dropMember members name rest = members := by
  rw [dropMember, absent]

theorem dropAt_obj (name : String) (rest : List String) (members : Members) :
    dropAt (name :: rest) (.obj members) = some (.obj (dropMember members name rest)) := by
  rw [dropAt, dropMember]
  cases key? members name <;> rfl

theorem dropMember_nil (members : Members) (name : String) :
    dropMember members name [] = delAttr members name := by
  rw [dropMember, delAttr]
  cases key? members name with
  | none => rfl
  | some key =>
      dsimp only
      cases get? members key <;> rfl

theorem dropSub_obj (sub : String) (element : Members) :
    dropSub sub (.obj element) = .obj (dropMember element sub []) := by
  rw [dropSub, dropMember_nil]

theorem get?_assign (members : Members) (key other : String) (place : Option Json) :
    get? (assign members key place) other = if other = key then place else get? members other := by
  cases place with
  | none => exact get?_erase members key other
  | some value => exact get?_set members key other value

theorem modify_of_not_mem (absent : key ∉ names members) (f : Json → Json) :
    modify members key f = members := by
  induction members with
  | nil => rfl
  | cons member rest ih =>
      have differ := List.ne_of_not_mem_cons absent
      rw [modify_cons, ih (List.not_mem_of_not_mem_cons absent), if_neg differ.symm]

theorem modify_eq_set (single : (names members).Nodup) (held : get? members key = some value)
    (f : Json → Json) : modify members key f = set members key (f value) := by
  induction members with
  | nil => cases held
  | cons member rest ih =>
      obtain ⟨absent, single⟩ := List.nodup_cons.mp single
      rw [get?_cons] at held
      rw [modify_cons, Members.set]
      split at held
      · next same =>
        subst same
        cases held
        rw [if_pos rfl, if_pos rfl, modify_of_not_mem absent]
      · next differ => rw [if_neg (Ne.symm differ), if_neg (Ne.symm differ), ih single held]

/-- An attribute is dropped along its trail. -/
theorem dropAttr_eq_dropMember (single : (names members).Nodup) (attr : String)
    (sub : Option String) : dropAttr attr sub members = dropMember members attr sub.toList := by
  unfold dropAttr
  cases sub with
  | none => exact (dropMember_nil members attr).symm
  | some sub =>
      dsimp only
      cases found : key? members attr with
      | none => rw [dropMember_of_none found]
      | some key =>
          obtain ⟨value, held⟩ := get?_of_key? found
          rw [dropMember_of_key? found, held]
          refine (modify_eq_set single held _).trans ?_
          cases value with
          | obj element =>
              rw [Option.bind_some, Option.toList, dropAt_obj, dropMember_nil]
              rfl
          | _ => rfl

/-- What a path names is dropped along its trail. -/
theorem dropPath_eq (unambiguous : (Json.obj resource).unambiguous = true) (path : AttributePath) :
    dropPath resource path = (trail? resource path).map fun trail =>
      trail.elim resource fun (name, rest) => dropMember resource name rest := by
  obtain ⟨distinct, all⟩ := Json.unambiguous_obj_iff.mp unambiguous
  rw [dropPath, trail?]
  cases looked : source? resource path with
  | error failure => rfl
  | ok found =>
      rcases found with _ | ⟨source, extension⟩
      · rfl
      · rcases source?_eq_ok looked with ⟨rfl, rfl⟩ | ⟨key, rfl, held⟩
        · cases path.attr with
          | none => rfl
          | some attr => exact congrArg Except.ok (dropAttr_eq_dropMember distinct.nodup ..)
        · have inResource : key ∈ names resource := by
            rw [← get?_isSome_iff, held]
            rfl
          have found := dropMember_of_key? (key?_of_mem inResource)
          rw [held] at found
          cases path.attr with
          | none => exact congrArg Except.ok (found []).symm
          | some attr =>
              have single :=
                (Json.unambiguous_obj_iff.mp (AllUnambiguous.get? all held)).1.nodup
              refine congrArg Except.ok (Eq.trans ?_ (found (attr :: path.sub.toList)).symm)
              rw [Option.bind_some, dropAt_obj, ← dropAttr_eq_dropMember single, updateObject, held]
              rfl

/-! ## Dropping leaves parts -/

theorem names_assign_subperm (held : get? members key = some value) (place : Option Json) :
    (names (assign members key place)).Subperm (names members) := by
  cases place with
  | none => exact (List.filter_sublist.map _).subperm
  | some other =>
      have inMembers : key ∈ names members := by
        rw [← get?_isSome_iff, held]
        rfl
      rw [assign, names_set_of_mem inMembers]

theorem partOf_dropMember_of (rest : List String)
    (behind : ∀ value, Json.PartAt (dropAt rest value) (some value)) (members : Members)
    (name : String) : Json.PartOf (.obj (dropMember members name rest)) (.obj members) := by
  cases found : key? members name with
  | none =>
      rw [dropMember_of_none found]
      exact .refl _
  | some key =>
      obtain ⟨value, held⟩ := get?_of_key? found
      rw [dropMember_of_key? found, held, Option.bind_some]
      refine .obj (names_assign_subperm held _) fun other => ?_
      rw [get?_assign]
      split
      · next same =>
        rw [same, held]
        exact behind value
      · exact .refl _

/-- What is left of a value is a part of it. -/
theorem partAt_dropAt (trail : List String) (value : Json) :
    Json.PartAt (dropAt trail value) (some value) := by
  induction trail generalizing value with
  | nil => exact .missing _
  | cons name rest ih =>
      cases value with
      | obj members =>
          rw [dropAt_obj]
          exact .there (partOf_dropMember_of rest ih members name)
      | arr elements =>
          refine .there (.arr fun i => ?_)
          rw [List.getElem?_map]
          cases elements[i]? with
          | none => exact .missing _
          | some element =>
              cases element with
              | obj members =>
                  rw [Option.map_some, dropSub_obj]
                  exact .there (partOf_dropMember_of [] (fun _ => .missing _) members name)
              | _ => exact .there (.refl _)
      | _ => exact .refl _

theorem partOf_dropMember (members : Members) (name : String) (rest : List String) :
    Json.PartOf (.obj (dropMember members name rest)) (.obj members) :=
  partOf_dropMember_of rest (partAt_dropAt rest) members name

/-- Dropping what a path names leaves a part of a resource. -/
theorem partOf_dropPath (unambiguous : (Json.obj resource).unambiguous = true)
    (dropped : dropPath resource path = .ok after) :
    Json.PartOf (.obj after) (.obj resource) := by
  rw [dropPath_eq unambiguous] at dropped
  obtain ⟨trail, _, rfl⟩ := map_eq_ok_iff.mp dropped
  cases trail with
  | none => exact .refl _
  | some trail => exact partOf_dropMember resource trail.1 trail.2

/-! ## Dropping from alike values -/

theorem alike_dropMember_of (rest : List String)
    (unambiguous : (Json.obj others).unambiguous = true)
    (behind : ∀ value other : Json, other.unambiguous = true → value.Alike other →
      Json.AlikeAt (dropAt rest value) (dropAt rest other))
    (each : ∀ key, Json.AlikeAt (get? members key) (get? others key)) (name key : String) :
    Json.AlikeAt (get? (dropMember members name rest) key)
      (get? (dropMember others name rest) key) := by
  obtain ⟨distinct, all⟩ := Json.unambiguous_obj_iff.mp unambiguous
  rw [dropMember, dropMember, distinct.key?_congr (Json.mem_names_iff_of_alike each)]
  cases key? others name with
  | none => exact each key
  | some place =>
      rw [get?_assign, get?_assign]
      split
      · have there := each place
        generalize get? members place = found at there ⊢
        cases held : get? others place with
        | none =>
            rw [held] at there
            cases there
            exact .missing
        | some other =>
            rw [held] at there
            cases there with
            | there alike => exact behind _ other (AllUnambiguous.get? all held) alike
      · exact each key

/-- Dropping what is at the end of a trail from alike values leaves alike values. -/
theorem alikeAt_dropAt (trail : List String) (value other : Json)
    (unambiguous : other.unambiguous = true) (alike : value.Alike other) :
    Json.AlikeAt (dropAt trail value) (dropAt trail other) := by
  induction trail generalizing value other with
  | nil => exact .missing
  | cons name rest ih =>
      cases alike with
      | refl => exact .refl _
      | obj each =>
          rw [dropAt_obj, dropAt_obj]
          exact .there (.obj (alike_dropMember_of rest unambiguous ih each name))
      | @arr items elements each =>
          refine .there (.arr fun i => ?_)
          rw [List.getElem?_map, List.getElem?_map]
          have there := each i
          generalize items[i]? = found at there ⊢
          cases held : elements[i]? with
          | none =>
              rw [held] at there
              cases there
              exact .missing
          | some element =>
              rw [held] at there
              cases there with
              | there alike =>
                  have single := Json.unambiguous_arr_iff.mp unambiguous element
                    (List.mem_of_getElem? held)
                  refine .there ?_
                  cases alike with
                  | refl => exact .refl _
                  | arr each => exact .arr each
                  | obj each =>
                      rw [dropSub_obj, dropSub_obj]
                      exact .obj (alike_dropMember_of [] single (fun _ _ _ _ => .missing) each name)

theorem alike_dropMember (unambiguous : (Json.obj others).unambiguous = true)
    (each : ∀ key, Json.AlikeAt (get? members key) (get? others key)) (name : String)
    (rest : List String) (key : String) :
    Json.AlikeAt (get? (dropMember members name rest) key)
      (get? (dropMember others name rest) key) :=
  alike_dropMember_of rest unambiguous (alikeAt_dropAt rest) each name key

/-! ## Severed slots -/

/-- Whether there is something at the end of a trail in a value. -/
def Reaches : List String → Json → Prop
  | [], _ => True
  | name :: rest, .obj members => ∃ value, attr? members name = some value ∧ Reaches rest value
  | name :: _, .arr elements => ∃ element, .obj element ∈ elements ∧ (attr? element name).isSome
  | _ :: _, _ => False

/-- Whether dropping what is at the end of a trail takes something away from a slot: the slot
itself, what it is in, or something in it. -/
def Severs : List String → List String → Json → Prop
  | [], slot, value => (value.find? slot).isSome
  | name :: rest, [], value => Reaches (name :: rest) value
  | name :: rest, other :: slot, .obj members =>
    key? members name = key? members other ∧
      ∃ value, attr? members other = some value ∧ Severs rest slot value
  | _ :: _, _ :: _, _ => False

theorem isSome_of_severs (severs : Severs trail slot value) : (value.find? slot).isSome = true := by
  induction trail generalizing slot value with
  | nil => exact severs
  | cons name rest ih =>
      cases slot with
      | nil => rfl
      | cons other more =>
          cases value with
          | obj members =>
              obtain ⟨_, value, held, severs⟩ := severs
              rw [Json.find?_obj, held]
              exact ih severs
          | _ => exact severs.elim

theorem alike_dropMember_self_iff (rest : List String) (members : Members) (name : String)
    (behind : ∀ value, Json.AlikeAt (dropAt rest value) (some value) ↔ ¬ Reaches rest value) :
    (Json.obj (dropMember members name rest)).Alike (.obj members) ↔
      ¬ Reaches (name :: rest) (.obj members) := by
  rw [Json.alike_obj_iff, Reaches]
  cases found : key? members name with
  | none =>
      rw [dropMember_of_none found, attr?, found]
      refine iff_of_true (fun _ => .refl _) ?_
      rintro ⟨_, is, _⟩
      cases is
  | some key =>
      obtain ⟨value, held⟩ := get?_of_key? found
      have is : attr? members name = some value := by rw [attr?, found, Option.bind_some, held]
      rw [dropMember_of_key? found, held, Option.bind_some, is]
      simp only [Option.some.injEq, exists_eq_left']
      rw [← behind value]
      constructor
      · intro each
        have there := each key
        rw [get?_assign, if_pos rfl, held] at there
        exact there
      · intro alike other
        rw [get?_assign]
        split
        · next same =>
          rw [same, held]
          exact alike
        · exact .refl _

/-- Dropping what is at the end of a trail changes a value unless nothing is there. -/
theorem alikeAt_dropAt_self_iff (trail : List String) (value : Json) :
    Json.AlikeAt (dropAt trail value) (some value) ↔ ¬ Reaches trail value := by
  induction trail generalizing value with
  | nil => exact iff_of_false nofun (not_not_intro trivial)
  | cons name rest ih =>
      cases value with
      | obj members =>
          rw [dropAt_obj, Json.alikeAt_some_iff]
          exact alike_dropMember_self_iff rest members name ih
      | arr elements =>
          refine Json.alikeAt_some_iff.trans (Json.alike_map_self_iff.trans ?_)
          have single (element : Members) := alike_dropMember_self_iff [] element name fun _ =>
            iff_of_false nofun (not_not_intro trivial)
          constructor
          · rintro each ⟨element, held, found⟩
            obtain ⟨value, is⟩ := Option.isSome_iff_exists.mp found
            have alike := each _ held
            rw [dropSub_obj] at alike
            exact (single element).mp alike ⟨value, is, trivial⟩
          · intro none element held
            cases element with
            | obj element =>
                rw [dropSub_obj]
                refine (single element).mpr ?_
                rintro ⟨value, is, _⟩
                exact none ⟨element, held, by rw [is]; rfl⟩
            | _ => exact .refl _
      | _ => exact iff_of_true (.refl _) id

/-- What an attribute holds when what is behind a name is dropped. -/
theorem attr?_dropMember (distinct : Distinct members) (name : String) (rest : List String)
    (other : String) : attr? (dropMember members name rest) other =
      if key? members name = key? members other then (attr? members other).bind (dropAt rest)
      else attr? members other := by
  cases found : key? members name with
  | none =>
      rw [dropMember_of_none found]
      split
      · next same =>
        rw [attr?, ← same]
        rfl
      · rfl
  | some key =>
      obtain ⟨value, held⟩ := get?_of_key? found
      rw [dropMember_of_key? found, distinct.attr?_eq (names_assign_subperm held _), attr?]
      cases key? members other with
      | none => rfl
      | some place =>
          simp only [Option.bind_some, get?_assign, Option.some.injEq]
          split
          · next same => rw [if_pos same.symm, same]
          · next differ => rw [if_neg (Ne.symm differ)]

theorem find?_dropAt_of_none (unambiguous : whole.unambiguous = true) (part : value.PartOf whole)
    (absent : whole.find? slot = none) (trail : List String) :
    (dropAt trail value).bind (Json.find? slot) = none := by
  have left := (partAt_dropAt trail value).trans (.there part)
  cases dropped : dropAt trail value with
  | none => rfl
  | some value =>
      rw [dropped, Json.partAt_some_iff] at left
      have there := left.find? unambiguous slot
      rw [absent] at there
      exact there.eq_none

/-- An object keeps what is in a slot if the trail leads behind another name, or if the value behind
the name keeps it. -/
theorem alikeAt_find?_dropMember_of {other : String}
    (unambiguous : (Json.obj members).unambiguous = true)
    (part : (Json.obj object).PartOf (.obj members))
    (kept : Json.AlikeAt ((Json.obj object).find? (other :: slot)) (some value))
    (held : (Json.obj members).find? (other :: slot) = some value)
    (behind : ∀ left whole : Json, whole.unambiguous = true → left.PartOf whole →
      Json.AlikeAt (left.find? slot) (whole.find? slot) →
        (Json.AlikeAt ((dropAt rest left).bind (Json.find? slot)) (whole.find? slot) ↔
          ¬ Severs rest slot whole)) (name : String) :
    Json.AlikeAt ((Json.obj (dropMember object name rest)).find? (other :: slot)) (some value) ↔
      ¬ Severs (name :: rest) (other :: slot) (.obj members) := by
  obtain ⟨_, same, fewer, each⟩ := Json.partOf_obj_iff.mp part
  cases same
  obtain ⟨distinct, all⟩ := Json.unambiguous_obj_iff.mp unambiguous
  obtain ⟨whole, is, inWhole⟩ := Option.bind_eq_some_iff.mp held
  obtain ⟨key, found, there⟩ := Option.bind_eq_some_iff.mp is
  have attrIs : attr? object other = get? object key := by
    rw [distinct.attr?_eq fewer, found, Option.bind_some]
  rw [Json.find?_obj, attrIs] at kept
  cases stored : get? object key with
  | none =>
      rw [stored] at kept
      cases kept
  | some left =>
      rw [stored, Option.bind_some] at kept
      have inObject : key ∈ names object := by
        rw [← get?_isSome_iff, stored]
        rfl
      -- the part still has the member of the slot, so a name finds it in both or in neither
      have same (name : String) : key? object name = some key ↔ key? members name = some key := by
        rw [distinct.key?_filter fewer, Option.filter_eq_some_iff]
        simp [inObject]
      have less := each key
      rw [stored, there, Json.partAt_some_iff] at less
      rw [Json.find?_obj, attr?_dropMember (distinct.of_subperm fewer), (same other).mpr found,
        attrIs, stored, Option.bind_some]
      by_cases meets : key? members name = some key
      · rw [if_pos ((same name).mpr meets), ← inWhole]
        rw [← inWhole] at kept
        rw [behind left whole (AllUnambiguous.get? all there) less kept]
        simp only [Severs, meets, found, is, Option.some.injEq, exists_eq_left', true_and]
      · rw [if_neg fun is => meets ((same name).mp is)]
        exact iff_of_true kept fun severs => meets (severs.1.trans found)

/-- What a slot of a part holds stays alike to what the whole holds in it when what is at the end of
a trail is dropped, unless the trail severs the slot. -/
theorem alikeAt_find?_dropAt_iff (trail slot : List String) (value whole : Json)
    (unambiguous : whole.unambiguous = true) (part : value.PartOf whole)
    (kept : Json.AlikeAt (value.find? slot) (whole.find? slot)) :
    Json.AlikeAt ((dropAt trail value).bind (Json.find? slot)) (whole.find? slot) ↔
      ¬ Severs trail slot whole := by
  induction trail generalizing value whole slot with
  | nil =>
      rw [dropAt, Option.bind_none, Severs]
      cases whole.find? slot with
      | none => exact iff_of_true .missing Bool.false_ne_true
      | some held => exact iff_of_false nofun (not_not_intro rfl)
  | cons name rest ih =>
      cases slot with
      | nil =>
          have alike := alikeAt_dropAt (name :: rest) value whole unambiguous
            (Json.alikeAt_some_iff.mp kept)
          rw [Json.bind_find?_nil, Severs, ← alikeAt_dropAt_self_iff]
          exact ⟨alike.symm.trans, alike.trans⟩
      | cons other more =>
          cases target : whole.find? (other :: more) with
          | none =>
              rw [find?_dropAt_of_none unambiguous part target]
              refine iff_of_true .missing fun severs => ?_
              have found := isSome_of_severs severs
              rw [target] at found
              cases found
          | some held =>
              rw [target] at kept
              cases whole with
              | obj members =>
                  obtain ⟨object, rfl, _⟩ := Json.partOf_obj_iff.mp part
                  rw [dropAt_obj, Option.bind_some]
                  exact alikeAt_find?_dropMember_of unambiguous part kept target (ih more) name
              | _ => cases target

/-! ## Dropping from a part of a resource -/

/-- What a path names is dropped from a part of a resource along its trail in the resource, if the
part tells the URN of the core schema as the resource does. -/
theorem dropPath_of_partOf (unambiguous : (Json.obj resource).unambiguous = true)
    (part : (Json.obj target).PartOf (.obj resource))
    (core : ∀ uri, isCoreUri target uri = isCoreUri resource uri) (path : AttributePath) :
    dropPath target path = (trail? resource path).map fun trail =>
      trail.elim target fun (name, rest) => dropMember target name rest := by
  rw [dropPath_eq (part.unambiguous unambiguous)]
  obtain ⟨_, same, fewer, each⟩ := Json.partOf_obj_iff.mp part
  cases same
  have distinct := (Json.unambiguous_obj_iff.mp unambiguous).1
  unfold trail? source?
  cases path.uri with
  | none => rfl
  | some uri =>
      dsimp only
      rw [core]
      cases isCoreUri resource uri with
      | error failure => rfl
      | ok isCore =>
          cases isCore with
          | true => rfl
          | false =>
              rw [distinct.key?_filter fewer]
              cases found : key? resource uri with
              | none => rfl
              | some key =>
                  rw [Option.filter_some]
                  by_cases kept : key ∈ names target
                  · have there := (get?_isSome_iff target key).mpr kept
                    have less := each key
                    rw [if_pos (decide_eq_true kept)]
                    dsimp only
                    generalize get? target key = place at there less ⊢
                    generalize get? resource key = within at less ⊢
                    cases less with
                    | missing => cases there
                    | @there value _ part =>
                        cases part with
                        | refl => cases value <;> cases path.attr <;> rfl
                        | arr => rfl
                        | obj => cases path.attr <;> rfl
                  · -- the extension is gone from the part, and its trail leads nowhere there
                    have absent : key? target key = none := by
                      rw [distinct.key?_filter fewer, key?_of_mem (key?_eq_some found).1]
                      simp [kept]
                    rw [if_neg (by simpa using kept)]
                    dsimp only
                    cases get? resource key with
                    | none => rfl
                    | some value =>
                        cases value with
                        | obj =>
                            have same (rest : List String) : dropMember target key rest = target :=
                              dropMember_of_none absent rest
                            cases path.attr with
                            | none => exact congrArg Except.ok (same []).symm
                            | some attr => exact congrArg Except.ok (same _).symm
                        | _ => rfl

end Projection

end Scim
