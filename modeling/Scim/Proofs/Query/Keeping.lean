import Scim.Proofs.Query.Concealing
import Scim.Proofs.Query.Dropping

/-!
# What projections keep

The id, the declared URNs and what the schema always returns are to stand in a projection as they
stand in the resource.  They do so exactly if nothing that a projection drops severs a slot of
theirs, and if the trails to what it copies cover the slots of extensions; it copies whole slots of
the core schema by itself.
-/

namespace Scim

open Members

variable {resource target after result : Members} {schema : ResourceSchema}
  {attributes excluded : List String} {trails : Set (List String)} {value : Json}
  {shown : Option Json} {slot : List String} {path : AttributePath}

namespace Projection

/-- The slots that a projection is to keep: those of the declared URNs, of the id, and of what the
schema always returns, in the object of its extension if it is of one. -/
def slots (schema : ResourceSchema) : List (List String) :=
  ["schemas"] :: ["id"] ::
    (schema.attributesReturned "always").map fun (uri, name) => uri.toList ++ [name]

/-- Whether a slot of a resource holds the same in what is left of the resource. -/
def Keeps (resource target : Members) (slot : List String) : Prop :=
  Json.AlikeAt ((Json.obj target).find? slot) ((Json.obj resource).find? slot)

/-- Whether dropping what a path names takes something away from a slot of a resource. -/
def Cuts (resource : Members) (path : AttributePath) (slot : List String) : Prop :=
  ∃ name rest, trail? resource path = .ok (some (name, rest)) ∧
    Severs (name :: rest) slot (.obj resource)

/-! ## What is dropped -/

/-- What keeps the declared URNs tells the URN of the core schema as the resource does. -/
theorem Keeps.isCoreUri_eq (unambiguous : (Json.obj resource).unambiguous = true)
    (part : (Json.obj target).PartOf (.obj resource)) (keeps : Keeps resource target ["schemas"])
    (uri : String) : isCoreUri target uri = isCoreUri resource uri := by
  obtain ⟨_, same, fewer, each⟩ := Json.partOf_obj_iff.mp part
  cases same
  have distinct := (Json.unambiguous_obj_iff.mp unambiguous).1
  refine isCoreUri_congr_alike ?_ uri
  by_cases declared : "schemas" ∈ names resource
  · rw [Keeps, Json.find?_obj, Json.find?_obj, distinct.attr?_eq fewer, attr?,
      key?_of_mem declared, Option.bind_some, Option.bind_some] at keeps
    rwa [Json.bind_find?_nil, Json.bind_find?_nil] at keeps
  · rw [← get?_isSome_iff, Option.not_isSome_iff_eq_none] at declared
    have there := each "schemas"
    rw [declared] at there ⊢
    rw [there.eq_none]
    exact .missing

/-- Dropping what a path names from a part of a resource keeps the slots that the part keeps and
that the path does not cut, and no others. -/
theorem keeps_dropPath_iff {wanted : List (List String)} (declared : ["schemas"] ∈ wanted)
    (unambiguous : (Json.obj resource).unambiguous = true)
    (part : (Json.obj target).PartOf (.obj resource)) (dropped : dropPath target path = .ok after) :
    (∀ slot ∈ wanted, Keeps resource after slot) ↔
      (∀ slot ∈ wanted, Keeps resource target slot) ∧
        ∀ slot ∈ wanted, ¬ Cuts resource path slot := by
  have less := partOf_dropPath (part.unambiguous unambiguous) dropped
  -- what was taken away before is not put back
  have before (keeps : ∀ slot ∈ wanted, Keeps resource after slot) :
      ∀ slot ∈ wanted, Keeps resource target slot := fun slot held =>
    (less.find? (part.unambiguous unambiguous) slot).alikeAt (part.find? unambiguous slot)
      (keeps slot held)
  -- the trail is that in the resource, since the declared URNs are among what is kept
  have step (keeps : ∀ slot ∈ wanted, Keeps resource target slot) (slot : List String)
      (held : slot ∈ wanted) : Keeps resource after slot ↔ ¬ Cuts resource path slot := by
    have core := (keeps _ declared).isCoreUri_eq unambiguous part
    rw [dropPath_of_partOf unambiguous part core] at dropped
    obtain ⟨trail, found, rfl⟩ := map_eq_ok_iff.mp dropped
    cases trail with
    | none =>
        refine iff_of_true (keeps slot held) ?_
        rintro ⟨name, rest, is, _⟩
        rw [found] at is
        cases is
    | some trail =>
        obtain ⟨name, rest⟩ := trail
        have kept := alikeAt_find?_dropAt_iff (name :: rest) slot _ _ unambiguous part
          (keeps slot held)
        rw [dropAt_obj, Option.bind_some] at kept
        refine kept.trans (not_congr ⟨fun severs => ⟨name, rest, found, severs⟩, ?_⟩)
        rintro ⟨_, _, is, severs⟩
        rw [found] at is
        cases is
        exact severs
  constructor
  · intro keeps
    exact ⟨before keeps, fun slot held => (step (before keeps) slot held).mp (keeps slot held)⟩
  · rintro ⟨keeps, spares⟩
    exact fun slot held => (step keeps slot held).mpr (spares slot held)

/-- Dropping what paths name in turn keeps the slots that were kept before and that none of the
paths cuts in the resource. -/
theorem keeps_foldlM_dropPath_iff {wanted : List (List String)} (declared : ["schemas"] ∈ wanted)
    (unambiguous : (Json.obj resource).unambiguous = true)
    (part : (Json.obj target).PartOf (.obj resource)) {paths : List AttributePath}
    (dropped : paths.foldlM dropPath target = .ok after) :
    (∀ slot ∈ wanted, Keeps resource after slot) ↔
      (∀ slot ∈ wanted, Keeps resource target slot) ∧
        ∀ path ∈ paths, ∀ slot ∈ wanted, ¬ Cuts resource path slot := by
  induction paths generalizing target with
  | nil =>
      cases dropped
      exact ⟨fun keeps => ⟨keeps, nofun⟩, And.left⟩
  | cons path rest ih =>
      rw [List.foldlM_cons] at dropped
      obtain ⟨next, step, later⟩ := bind_eq_ok_iff.mp dropped
      have less := (partOf_dropPath (part.unambiguous unambiguous) step).trans part
      rw [ih less later, keeps_dropPath_iff declared unambiguous part step, List.forall_mem_cons,
        and_assoc]

/-- The paths that are left out of a resource on a request are those that may be. -/
theorem exists_paths_of_allBut {schema : Option ResourceSchema}
    (dropped : allBut resource schema excluded = .ok target) :
    ∃ paths : List AttributePath, paths.foldlM dropPath resource = .ok target ∧
      ∀ path, path ∈ paths ↔
        ∃ text ∈ excluded, PathOf.parse text = .ok path ∧ isKept schema path = false := by
  induction excluded generalizing resource with
  | nil => exact ⟨[], dropped, by simp⟩
  | cons text rest ih =>
      rw [allBut, List.foldlM_cons] at dropped
      obtain ⟨next, step, later⟩ := bind_eq_ok_iff.mp dropped
      obtain ⟨path, parsed, step⟩ := bind_eq_ok_iff.mp step
      obtain ⟨paths, ran, each⟩ := ih later
      split at step
      · next kept =>
        cases step
        refine ⟨paths, ran, fun other => ?_⟩
        rw [each, List.exists_mem_cons_iff]
        refine (or_iff_right ?_).symm
        rintro ⟨is, left⟩
        cases parsed.symm.trans is
        rw [kept] at left
        cases left
      · next left =>
        refine ⟨path :: paths, by rw [List.foldlM_cons, step]; exact ran, fun other => ?_⟩
        rw [List.mem_cons, each, List.exists_mem_cons_iff, parsed, Except.ok.injEq]
        refine or_congr_left ⟨?_, fun is => is.1.symm⟩
        rintro rfl
        exact ⟨rfl, Bool.not_eq_true _ ▸ left⟩

/-! ## What is copied -/

/-- Whether trails show everything in an element of a list. -/
def FullElement (trails : Set (List String)) (element : Json) : Prop :=
  ∃ members, element = .obj members ∧ ∀ key ∈ names members, (behind members key trails).Nonempty

/-- Whether trails show everything in a value: all of it is behind the end of a trail, or there are
trails into it and they show everything under each name or in each element. -/
inductive Full : Set (List String) → Json → Prop where
  | whole {trails : Set (List String)} {value : Json} (asked : [] ∈ trails) : Full trails value
  | elements {trails : Set (List String)} {elements : List Json}
      (entered : ∃ name rest, name :: rest ∈ trails)
      (each : ∀ element ∈ elements, FullElement trails element) : Full trails (.arr elements)
  | members {trails : Set (List String)} {members : Members}
      (entered : ∃ name rest, name :: rest ∈ trails ∧ leads (.obj members) name = true)
      (each : ∀ key value, get? members key = some value → Full (behind members key trails) value) :
      Full trails (.obj members)

/-- Whether trails show everything that is in a slot of a value. -/
def Covers : Set (List String) → List String → Json → Prop
  | trails, [], value => Full trails value
  | trails, name :: slot, .obj members =>
    [] ∈ trails ∨ ∀ key, key? members name = some key →
      ∀ value, get? members key = some value → Covers (behind members key trails) slot value
  | _, _ :: _, _ => True

theorem ShowsElement.alike_iff {element item : Json} (shows : ShowsElement trails element item) :
    item.Alike element ↔ FullElement trails element := by
  cases shows with
  | other noObject =>
      refine iff_of_false (fun alike => ?_) ?_
      · rw [alike.eq_empty] at noObject
        cases noObject
      · rintro ⟨_, rfl, _⟩
        cases noObject
  | @object members object _ asked unasked =>
      rw [Json.alike_obj_iff]
      constructor
      · refine fun each => ⟨members, rfl, fun key held => ?_⟩
        by_contra missed
        have there := (each key).isSome_eq
        rw [unasked key missed, (get?_isSome_iff members key).mpr held] at there
        cases there
      · rintro ⟨_, ⟨⟩, each⟩ key
        by_cases held : key ∈ names members
        · rw [asked key (each key held)]
          exact .refl _
        · have absent := held
          rw [← get?_isSome_iff, Option.not_isSome_iff_eq_none] at absent
          rw [absent]
          by_cases reached : (behind members key trails).Nonempty
          · rw [asked key reached, absent]
            exact .missing
          · rw [unasked key reached]
            exact .missing

theorem alikeAt_forall₂_iff {elements items : List Json}
    (each : List.Forall₂ (ShowsElement trails) elements items) :
    (∀ i : Nat, Json.AlikeAt items[i]? elements[i]?) ↔
      ∀ element ∈ elements, FullElement trails element := by
  induction each with
  | nil => exact iff_of_true (fun _ => .refl _) nofun
  | cons head _ ih =>
      rw [List.forall_mem_cons, ← ih, ← head.alike_iff]
      constructor
      · exact fun each => ⟨Json.alikeAt_some_iff.mp (each 0), fun i => each (i + 1)⟩
      · rintro ⟨first, later⟩ (_ | i)
        · exact .there first
        · exact later i

/-- What trails show of a value is all of it exactly if they show everything in it. -/
theorem Shows.alikeAt_iff (shows : Shows trails value shown) :
    Json.AlikeAt shown (some value) ↔ Full trails value := by
  induction shows with
  | whole asked => exact iff_of_true (.refl _) (.whole asked)
  | nothing unasked astray =>
      refine iff_of_false nofun fun full => ?_
      cases full with
      | whole asked => exact unasked asked
      | elements entered =>
          obtain ⟨name, rest, held⟩ := entered
          exact absurd (astray name rest held) nofun
      | members entered =>
          obtain ⟨name, rest, held, led⟩ := entered
          rw [astray name rest held] at led
          cases led
  | elements unasked entered each =>
      rw [Json.alikeAt_some_iff, Json.alike_arr_iff, alikeAt_forall₂_iff each]
      refine ⟨.elements entered, fun full => ?_⟩
      cases full with
      | whole asked => exact absurd asked unasked
      | elements _ each => exact each
  | @members _ members _ unasked entered _ each others ih =>
      rw [Json.alikeAt_some_iff, Json.alike_obj_iff]
      constructor
      · refine fun alike => .members entered fun key value held => (ih key value held).mp ?_
        rw [← held]
        exact alike key
      · intro full key
        cases full with
        | whole asked => exact absurd asked unasked
        | members _ full =>
            cases held : get? members key with
            | none =>
                rw [others key held]
                exact .missing
            | some value => exact (ih key value held).mpr (full key value held)

theorem ShowsMembers.alikeAt_find?_of {members object : Members} {name : String}
    (shows : ShowsMembers trails members object)
    (unambiguous : (Json.obj members).unambiguous = true)
    (behindAlike : ∀ {trails : Set (List String)} {value : Json} {shown : Option Json},
      value.unambiguous = true → Shows trails value shown →
        (Json.AlikeAt (shown.bind (Json.find? slot)) (value.find? slot) ↔
          Covers trails slot value)) :
    Json.AlikeAt ((Json.obj object).find? (name :: slot))
        ((Json.obj members).find? (name :: slot)) ↔
      ∀ key, key? members name = some key → ∀ value, get? members key = some value →
        Covers (behind members key trails) slot value := by
  obtain ⟨distinct, all⟩ := Json.unambiguous_obj_iff.mp unambiguous
  have fewer := subperm_of_get? shows.single shows.others
  rw [Json.find?_obj, Json.find?_obj, distinct.attr?_eq fewer, attr?]
  cases found : key? members name with
  | none =>
      refine iff_of_true .missing fun _ is => ?_
      cases is
  | some key =>
      obtain ⟨value, held⟩ := get?_of_key? found
      have there := behindAlike (AllUnambiguous.get? all held) (shows.each key value held)
      rw [Option.bind_some, Option.bind_some, held, Option.bind_some, there]
      constructor
      · rintro covers _ ⟨⟩ other is
        cases held.symm.trans is
        exact covers
      · exact fun covers => covers key rfl value held

/-- What a slot holds is shown alike exactly if trails show everything in it. -/
theorem Shows.alikeAt_find?_iff (shows : Shows trails value shown)
    (unambiguous : value.unambiguous = true) (slot : List String) :
    Json.AlikeAt (shown.bind (Json.find? slot)) (value.find? slot) ↔ Covers trails slot value := by
  induction slot generalizing trails value shown with
  | nil =>
      rw [Json.bind_find?_nil]
      exact shows.alikeAt_iff
  | cons name rest ih =>
      have entered {members object : Members} (unasked : [] ∉ trails)
          (unambiguous : (Json.obj members).unambiguous = true)
          (shows : ShowsMembers trails members object) :
          Json.AlikeAt ((Json.obj object).find? (name :: rest))
              ((Json.obj members).find? (name :: rest)) ↔
            Covers trails (name :: rest) (.obj members) :=
        (shows.alikeAt_find?_of unambiguous fun single shows => ih shows single).trans
          (or_iff_right unasked).symm
      cases shows with
      | whole asked =>
          refine iff_of_true (.refl _) ?_
          cases value with
          | obj => exact .inl asked
          | _ => exact trivial
      | nothing unasked astray =>
          cases value with
          | obj members =>
              -- what is not shown at all is as good as an empty object for a slot in it
              refine entered unasked unambiguous (.nil fun other trail held => ?_)
              have lost := astray other trail held
              rwa [leads, Option.isSome_eq_false_iff, Option.isNone_iff_eq_none] at lost
          | _ => exact iff_of_true .missing trivial
      | elements => exact iff_of_true .missing trivial
      | members unasked _ single each others =>
          exact entered unasked unambiguous ⟨single, each, others⟩

/-- A copy keeps the slots in which the trails to what it copies show everything. -/
theorem ShowsMembers.keeps_iff (unambiguous : (Json.obj resource).unambiguous = true)
    (shows : ShowsMembers trails resource target) (unasked : [] ∉ trails) (name : String)
    (slot : List String) :
    Keeps resource target (name :: slot) ↔ Covers trails (name :: slot) (.obj resource) :=
  (shows.alikeAt_find?_of unambiguous fun single shows => shows.alikeAt_find?_iff single slot).trans
    (or_iff_right unasked).symm

/-- What a request asks for covers the slots of the core schema that it is to keep. -/
theorem covers_asked {name : String} {schema : Option ResourceSchema}
    (required : name ∈ requiredNames schema) :
    Covers (asked resource schema attributes) [name] (.obj resource) := by
  refine .inr fun key found value _ => .whole ⟨name, found, name, [], rfl, .inl ⟨required, rfl⟩⟩

/-! ## What is kept in the end -/

/-- Whether a projection drops what a path names: an entry of the list of excluded attributes that
may be left out, if none are asked for, or what is never returned. -/
def Drops (schema : ResourceSchema) (attributes excluded : List String) (path : AttributePath) :
    Prop :=
  (attributes = [] ∧ ∃ text ∈ excluded,
    PathOf.parse text = .ok path ∧ isKept (some schema) path = false) ∨
  ∃ uri name, (uri, name) ∈ schema.attributesReturned "never" ∧ path = attrPath uri name

/-- The slots to keep are those of required names and those of attributes of extensions. -/
theorem forall_slots_iff {holds : List String → Prop} :
    (∀ slot ∈ slots schema, holds slot) ↔
      (∀ name ∈ requiredNames (some schema), holds [name]) ∧
        ∀ urn name, (some urn, name) ∈ schema.attributesReturned "always" → holds [urn, name] := by
  have isSlot (uri : Option String) (name : String)
      (held : (uri, name) ∈ schema.attributesReturned "always") :
      uri.toList ++ [name] ∈ slots schema :=
    .tail _ (.tail _ (List.mem_map.mpr ⟨_, held, rfl⟩))
  constructor
  · refine fun all => ⟨fun name required => ?_, fun urn name held => all _ (isSlot _ _ held)⟩
    simp only [requiredNames, List.mem_append, List.mem_cons, List.not_mem_nil, or_false,
      List.mem_map, List.mem_filter, Option.isNone_iff_eq_none] at required
    rcases required with (rfl | rfl) | ⟨⟨_, _⟩, ⟨held, rfl⟩, rfl⟩
    · exact all _ (.head _)
    · exact all _ (.tail _ (.head _))
    · exact all _ (isSlot _ _ held)
  · rintro ⟨core, extensions⟩ slot held
    simp only [slots, List.mem_cons, List.mem_map] at held
    rcases held with rfl | rfl | ⟨⟨_ | urn, name⟩, held, rfl⟩
    · exact core _ (by simp [requiredNames])
    · exact core _ (by simp [requiredNames])
    · refine core name ?_
      simp only [requiredNames, List.mem_append, List.mem_map, List.mem_filter]
      exact .inr ⟨_, ⟨held, rfl⟩, rfl⟩
    · exact extensions urn name held

theorem keeps_only_iff (unambiguous : (Json.obj resource).unambiguous = true)
    (copied : only resource (some schema) attributes = .ok target) :
    (∀ slot ∈ slots schema, Keeps resource target slot) ↔
      ∀ urn name, (some urn, name) ∈ schema.attributesReturned "always" →
        Covers (asked resource (some schema) attributes) [urn, name] (.obj resource) := by
  have unasked : [] ∉ asked resource (some schema) attributes := by
    rintro ⟨_, _, is, _⟩
    cases is
  have keeps := (showsMembers_only copied).keeps_iff unambiguous unasked
  rw [forall_slots_iff]
  simp only [keeps]
  exact and_iff_right fun name required => covers_asked required

theorem dropHidden_eq (target : Members) (schema : ResourceSchema) :
    dropHidden (some schema) target =
      ((schema.attributesReturned "never").map fun (uri, name) => attrPath uri name).foldlM
        dropPath target := by
  rw [List.foldlM_map]
  rfl

end Projection

/-- A projection of a resource with unambiguous names keeps the id, the declared URNs and what the
schema always returns exactly if no path that it drops cuts a slot of theirs and if, where
attributes are asked for, the trails to these cover the slots of extensions. -/
theorem keeps_project_iff (unambiguous : (Json.obj resource).unambiguous = true)
    (projected : project resource attributes excluded (some schema) = .ok result) :
    (∀ slot ∈ Projection.slots schema, Projection.Keeps resource result slot) ↔
      (attributes ≠ [] → ∀ urn name, (some urn, name) ∈ schema.attributesReturned "always" →
        Projection.Covers (Projection.asked resource (some schema) attributes) [urn, name]
          (.obj resource)) ∧
      ∀ path, Projection.Drops schema attributes excluded path →
        ∀ slot ∈ Projection.slots schema, ¬ Projection.Cuts resource path slot := by
  rw [Projection.project_eq] at projected
  obtain ⟨target, requested, dropped⟩ := bind_eq_ok_iff.mp projected
  rw [Projection.dropHidden_eq] at dropped
  have declared : ["schemas"] ∈ Projection.slots schema := .head _
  have hidden (path : AttributePath) :
      path ∈ (schema.attributesReturned "never").map
          (fun (uri, name) => Projection.attrPath uri name) ↔
        ∃ uri name, (uri, name) ∈ schema.attributesReturned "never" ∧
          path = Projection.attrPath uri name := by
    simp only [List.mem_map, Prod.exists, eq_comm]
  cases attributes with
  | nil =>
      obtain ⟨paths, ran, each⟩ := Projection.exists_paths_of_allBut requested
      have whole : (paths ++ (schema.attributesReturned "never").map
          fun (uri, name) => Projection.attrPath uri name).foldlM Projection.dropPath resource =
            .ok result := by
        rw [List.foldlM_append, ran]
        exact dropped
      have all : ∀ slot ∈ Projection.slots schema, Projection.Keeps resource resource slot :=
        fun slot _ => Json.AlikeAt.refl _
      rw [Projection.keeps_foldlM_dropPath_iff declared unambiguous (.refl _) whole,
        and_iff_right all]
      simp only [List.mem_append, each, hidden, Projection.Drops, true_and, ne_eq, not_true,
        false_implies]
  | cons text rest =>
      have part := (Projection.showsMembers_only requested).partOf
      rw [Projection.keeps_foldlM_dropPath_iff declared unambiguous part dropped,
        Projection.keeps_only_iff unambiguous requested]
      simp only [hidden, Projection.Drops, reduceCtorEq, false_and, false_or, ne_eq, not_false_iff,
        true_implies]

/-- An attribute of an extension that is always returned is kept if it is asked for, however its
path is spelled. -/
theorem keeps_project_badge :
    let badge : SchemaDef := ⟨"urn:b", "Badge", none,
      [⟨⟨"no", [("returned", .str "always")]⟩, none⟩, ⟨⟨"color", []⟩, none⟩]⟩
    let schema : ResourceSchema := ⟨Schema.user, [badge]⟩
    let resource : Members := [("schemas", .arr [.str userUrn, .str "urn:b"]),
      ("ID", .str "1"), ("urn:b", .obj [("no", .str "7"), ("color", .str "red")])]
    (Json.obj resource).unambiguous = true ∧
      ∃ result, project resource ["URN:b:No"] ["id"] (some schema) = .ok result ∧
        ∀ slot ∈ Projection.slots schema, Projection.Keeps resource result slot := by
  intro badge schema resource
  have unambiguous : (Json.obj resource).unambiguous = true := by decide +kernel
  have always : schema.attributesReturned "always" = [(none, "id"), (some "urn:b", "no")] := by
    decide
  have never : schema.attributesReturned "never" = [(none, "password")] := by decide
  have reached : Projection.reach resource "URN:b:No" = .ok (some ("urn:b", ["No"])) := by rfl
  obtain ⟨result, projected⟩ : ∃ result,
      project resource ["URN:b:No"] ["id"] (some schema) = .ok result :=
    exists_eq_ok_of_isOk (by decide +kernel)
  refine ⟨unambiguous, result, projected, (keeps_project_iff unambiguous projected).mpr ⟨?_, ?_⟩⟩
  · intro _ urn name held
    rw [always] at held
    rcases List.mem_cons.mp held with ⟨⟨⟩⟩ | held
    cases List.mem_singleton.mp held
    have isAsked : ["urn:b", "No"] ∈ Projection.asked resource (some schema) ["URN:b:No"] :=
      ⟨_, _, rfl, .inr ⟨_, .head _, reached⟩⟩
    refine .inr fun key found value there => ?_
    cases (by decide : key? resource "urn:b" = some "urn:b").symm.trans found
    cases there
    refine .inr fun key found value there => .whole ⟨"No", ?_, _, rfl, isAsked⟩
    rw [← found]
    decide
  · rintro path (⟨⟨⟩, _⟩ | ⟨uri, name, hidden, rfl⟩) slot held ⟨first, rest, found, severs⟩
    rw [never] at hidden
    cases List.mem_singleton.mp hidden
    cases found
    rw [Projection.slots, always] at held
    simp only [List.map_cons, List.map_nil, List.mem_cons, List.not_mem_nil, or_false] at held
    rcases held with rfl | rfl | rfl | rfl <;> exact absurd severs.1 (by decide)

/-- The declared URNs are left out if they are excluded under the URN of their schema. -/
theorem not_keeps_project_schemas :
    let resource : Members := [("schemas", .arr [.str userUrn]), ("id", .str "1"),
      ("userName", .str "ann")]
    (Json.obj resource).unambiguous = true ∧
      ∃ result, project resource [] [userUrn ++ ":schemas"] (some .user) = .ok result ∧
        ¬ ∀ slot ∈ Projection.slots .user, Projection.Keeps resource result slot := by
  intro resource
  have lost : (project resource [] [userUrn ++ ":schemas"] (some .user)).toOption.map
      (fun result => ((Json.obj result).find? ["schemas"]).isSome) = some false := by decide +kernel
  obtain ⟨result, found, gone⟩ := Option.map_eq_some_iff.mp lost
  refine ⟨by decide +kernel, result, eq_ok_of_toOption found, fun keeps => ?_⟩
  have there := (keeps ["schemas"] (.head _)).isSome_eq
  rw [gone] at there
  cases there

end Scim
