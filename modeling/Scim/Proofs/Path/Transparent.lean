import Scim.Proofs.Filter.Prefixing
import Scim.Proofs.Patch.Commuting
import Scim.Proofs.Path.Qualifying
import Scim.Query.Sorting

/-!
# The URN of the core schema before a path

Under a standard schema, a path without a URN and the path under the URN of the core schema
are one.  A filter and a sort look the URN up in the resource, so this takes a resource that
keeps nothing under it.  A change goes by the schema, and to it the two paths are one in
every resource; only the texts of its refusals tell them apart.
-/

namespace Scim

open Members

variable {schema : ResourceSchema} {resource : Members} {path : AttributePath}
  {attr text : String}

/-- The text of a path under a URN is the text of the path with the URN before it. -/
theorem Filter.pathText_under {urn : String} (nonempty : urn ≠ "") (noUri : path.uri = none)
    (attrEq : path.attr = some attr) :
    pathText { path with uri := some urn } = qualified urn (pathText path) := by
  obtain ⟨_, _, restriction, sub⟩ := path
  cases noUri
  cases attrEq
  have head : (⟨some urn, some attr, none, sub⟩ : PathOf Unit).head =
      qualified urn (⟨none, some attr, none, sub⟩ : PathOf Unit).head := by
    rw [PathOf.head]
    dsimp only
    split
    · next none => cases none
    · next empty => exact absurd (Option.some.inj empty) nonempty
    · next uri same =>
      cases same
      rfl
  have tail : (⟨some urn, some attr, none, sub⟩ : PathOf Unit).tail =
      (⟨none, some attr, none, sub⟩ : PathOf Unit).tail := rfl
  rw [pathText, pathText, head, tail, qualified, qualified]
  simp only [String.append_assoc]

/-! ## Sorts -/

section

variable (registered : (Schema.find? schema.urn).map (·.endpoint.isSome) = some true)
  (noUri : path.uri = none)
include noUri

include registered in
theorem sortValue_urn (lacks : Lacks resource schema.urn) :
    sortValue (.obj resource) { path with uri := some schema.urn } =
      sortValue (.obj resource) path := by
  have whole : path.whole.uri = none := noUri
  have selected : attributeValues (.obj resource)
      ({ path with uri := some schema.urn } : AttributePath).whole =
        attributeValues (.obj resource) path.whole := attributeValues_urn whole registered lacks
  rw [sortValue, sortValue, selected]

theorem sortCaseExact_urn :
    sortCaseExact (some schema) { path with uri := some schema.urn } =
      sortCaseExact (some schema) path := by
  rw [sortCaseExact, sortCaseExact, noUri]
  dsimp only
  rw [schema.schemaFor?_urn]
  cases path.attr with
  | none => rfl
  | some attr => exact congrArg Except.ok (schema.isCaseExact_urn attr path.sub)

end

/-- A sort by a path and by the path under the URN of the core schema are one, for resources that
keep nothing under it. -/
theorem sortResources_urn (qualifies : Qualifies schema.urn)
    (registered : (Schema.find? schema.urn).map (·.endpoint.isSome) = some true)
    (parsed : PathOf.parse text = .ok path) (noUri : path.uri = none) {resources : List Members}
    (lack : ∀ resource ∈ resources, Lacks resource schema.urn) (order : SortOrder) :
    sortResources (resources.map .obj) (qualified schema.urn (Text.trim text)) order (some schema) =
      sortResources (resources.map .obj) text order (some schema) := by
  rw [sortResources, sortResources, sortOn, sortOn, parsed,
    PathOf.parse_qualified qualifies parsed noUri]
  dsimp only [bind, Except.bind]
  rw [sortCaseExact_urn noUri]
  cases sortCaseExact (some schema) path with
  | error failure => rfl
  | ok caseExact =>
      dsimp only
      rw [mapM_congr fun resource held => ?_]
      obtain ⟨members, inResources, rfl⟩ := List.mem_map.mp held
      rw [id, sortValue_urn registered noUri (lack members inResources)]

/-! ## Decisions -/

namespace Patch

theorem matchingIndexes_alike {scope other : Scope} (alike : scope.Alike other) (filter : Filter)
    (index : Nat) (items : List Json) :
    matchingIndexes scope filter index items = matchingIndexes other filter index items := by
  induction items generalizing index with
  | nil => rfl
  | cons item rest ih =>
      cases item with
      | obj element => rw [matchingIndexes, matchingIndexes, Filter.eval_alike alike, ih]
      | _ => exact ih (index + 1)

theorem homeFor_urn (resource : Members) (path : AttributePath) :
    homeFor resource { path with uri := some schema.urn } (some schema) = .ok (some .core) := by
  have known : schema.knowsUri schema.urn = true := by
    rw [ResourceSchema.knowsUri, schema.schemaFor?_urn]
    rfl
  rw [homeFor_known resource rfl known, if_pos (sameName_refl _)]

variable (noUri : path.uri = none)
include noUri

theorem checkMutable_urn :
    checkMutable (some schema) { path with uri := some schema.urn } =
      checkMutable (some schema) path := by
  unfold checkMutable
  rw [noUri]
  dsimp only
  cases path.attr with
  | none => rfl
  | some attr => simp only [schema.isFixed_urn]

theorem coerce_urn (attr : String) (sub : Option String) (value : Json) :
    coerce (some schema) attr sub (some schema.urn) value =
      coerce (some schema) attr sub path.uri value := by
  have stated : statedType (some schema) attr sub (some schema.urn) =
      statedType (some schema) attr sub path.uri := by
    rw [noUri, statedType, statedType, Option.bind_some, Option.bind_some, schema.attribute?_urn]
  unfold coerce
  rw [stated]

theorem isMultiValued_urn (attr : String) (current value : Json) :
    isMultiValued (some schema) attr (some schema.urn) current value =
      isMultiValued (some schema) attr path.uri current value := by
  unfold isMultiValued
  simp only [noUri, Option.bind_some, ResourceSchema.isMultiValued?, schema.attribute?_urn]

theorem toOption_selection_urn (filter : Filter) (current : Json) :
    (selection (some schema) { path with uri := some schema.urn } filter current).toOption =
      (selection (some schema) path filter current).toOption := by
  cases current with
  | arr items =>
      have paths : path.Prefixed schema.urn { path with uri := some schema.urn } := .under noUri
      rw [selection, selection, matchingIndexes_alike (Scope.alike_within paths)]
  | _ => rfl

theorem settingAt_urn (attr sub : String) (value : Json) (indexes : List Nat) (current : Json) :
    settingAt (some schema) { path with uri := some schema.urn } attr sub value indexes current =
      settingAt (some schema) path attr sub value indexes current := by
  rw [settingAt, settingAt, coerce_urn noUri]

theorem toOption_settingSub_urn (attr sub : String) (merge : Bool) (value current : Json) :
    (settingSub (some schema) { path with uri := some schema.urn } attr sub merge value
        current).toOption =
      (settingSub (some schema) path attr sub merge value current).toOption := by
  rw [settingSub, settingSub, coerce_urn noUri]
  cases coerce (some schema) attr (some sub) path.uri value with
  | error failure => rfl
  | ok typed => cases current <;> rfl

theorem settingSingle_urn (attr : String) (value current : Json) :
    settingSingle (some schema) (some schema.urn) attr value current =
      settingSingle (some schema) path.uri attr value current := by
  unfold settingSingle
  rw [coerce_urn noUri]

theorem toOption_addition_urn (attr : String) (value current : Json) :
    (addition (some schema) { path with uri := some schema.urn } attr value current).toOption =
      (addition (some schema) path attr value current).toOption := by
  unfold addition
  dsimp only
  split
  · refine PatchOperation.toOption_bind_congr (toOption_selection_urn noUri _ current)
      fun indexes => ?_
    cases indexes with
    | nil => rfl
    | cons index rest => exact congrArg Except.toOption (settingAt_urn noUri attr _ value _ current)
  · exact PatchOperation.toOption_bind_congr (toOption_selection_urn noUri _ current) fun _ => rfl
  · exact toOption_settingSub_urn noUri attr _ true value current
  · rw [isMultiValued_urn noUri, settingSingle_urn noUri]

theorem toOption_replacement_urn (attr : String) (value current : Json) :
    (replacement (some schema) { path with uri := some schema.urn } attr value current).toOption =
      (replacement (some schema) path attr value current).toOption := by
  unfold replacement
  dsimp only
  split
  · refine PatchOperation.toOption_bind_congr (toOption_selection_urn noUri _ current)
      fun indexes => ?_
    cases indexes with
    | nil => rfl
    | cons index rest =>
        cases path.sub with
        | none => rfl
        | some sub => exact congrArg Except.toOption (settingAt_urn noUri attr sub value _ current)
  · exact toOption_settingSub_urn noUri attr _ false value current
  · rw [isMultiValued_urn noUri, settingSingle_urn noUri]

theorem toOption_removal_urn (value current : Json) :
    (removal (some schema) { path with uri := some schema.urn } value current).toOption =
      (removal (some schema) path value current).toOption := by
  unfold removal
  dsimp only
  split
  · rfl
  · split
    · exact PatchOperation.toOption_bind_congr (toOption_selection_urn noUri _ current)
        fun _ => rfl
    · rfl
    · rfl

end Patch

/-! ## Change requests -/

/-- The state behind an action that is run for its effect, if it has a result. -/
def Action.reached? {σ : Type} (action : Action σ Unit) (state : σ) : Option σ :=
  match action.run state with
  | (.ok _, after) => some after
  | (.error _, _) => none

theorem Action.reached?_bind {σ : Type} (first next : Action σ Unit) (state : σ) :
    (first >>= fun _ => next).reached? state = (first.reached? state).bind next.reached? := by
  rw [reached?, reached?, run_bind]
  rcases first.run state with ⟨_ | _, after⟩ <;> rfl

theorem toOption_applyPatch (entries : List PatchEntry) (resource : Members) :
    (applyPatch resource entries (some schema)).toOption =
      (applyEntries (some schema) 0 entries).reached? resource := by
  rw [applyPatch_eq, Action.reached?]
  rcases (applyEntries (some schema) 0 entries).run resource with ⟨_ | _, after⟩ <;> rfl

theorem reached?_of_outcome {action : Action Members Unit} {decision : Except Failure AttrEdit}
    (ran : action.run resource = PatchOperation.outcome decision attr resource) :
    action.reached? resource = decision.toOption.map (·.on attr resource) := by
  rw [Action.reached?, ran]
  cases decision <;> rfl

/-- An entry of a change request, and the same entry or the one whose path has a URN before it, if
it had none. -/
inductive PatchEntry.Prefixed (urn : String) : PatchEntry → PatchEntry → Prop where
  | same (entry : PatchEntry) : Prefixed urn entry entry
  | under {entry other : PatchEntry} {operation : PatchOperation} {text : String}
      {path : AttributePath} (read : entry.read 0 = .ok operation)
      (textEq : operation.path = some text) (parsed : PathOf.parse text = .ok path)
      (noUri : path.uri = none)
      (readOther : other.read 0 =
        .ok { operation with path := some (qualified urn (Text.trim text)) }) :
      Prefixed urn entry other

/-- An operation at a path under the URN of the core schema leaves what the operation at the path
without the URN leaves, and is refused where it is. -/
theorem reached?_apply_urn (qualifies : Qualifies schema.urn) {operation : PatchOperation}
    (textEq : operation.path = some text) (parsed : PathOf.parse text = .ok path)
    (noUri : path.uri = none) (resource : Members) :
    (({ operation with path := some (qualified schema.urn (Text.trim text)) } :
        PatchOperation).apply (some schema)).reached? resource =
      (operation.apply (some schema)).reached? resource := by
  obtain ⟨attr, attrEq⟩ := PathOf.attr_of_parse parsed noUri
  have underEq : ({ operation with path := some (qualified schema.urn (Text.trim text)) } :
      PatchOperation).path = some (qualified schema.urn (Text.trim text)) := rfl
  have run := PatchOperation.run_apply textEq parsed noUri attrEq (some schema) resource
  have runUnder := PatchOperation.run_apply_core underEq
    (PathOf.parse_qualified qualifies parsed noUri) (Patch.homeFor_urn resource path) attrEq
  have decided : (Patch.checkMutable (some schema) { path with uri := some schema.urn } >>=
        fun _ => PatchOperation.decision
          { operation with path := some (qualified schema.urn (Text.trim text)) } (some schema)
          { path with uri := some schema.urn } attr (Members.attr resource attr)).toOption =
      (Patch.checkMutable (some schema) path >>= fun _ =>
        operation.decision (some schema) path attr (Members.attr resource attr)).toOption := by
    rw [Patch.checkMutable_urn noUri]
    refine PatchOperation.toOption_bind_congr rfl fun _ => ?_
    rw [PatchOperation.decision, PatchOperation.decision]
    cases operation.op with
    | add => exact Patch.toOption_addition_urn noUri attr _ _
    | replace => exact Patch.toOption_replacement_urn noUri attr _ _
    | remove => exact Patch.toOption_removal_urn noUri _ _
  rw [reached?_of_outcome run, reached?_of_outcome runUnder, decided]

theorem reached?_applyEntries_cons {entry : PatchEntry} {operation : PatchOperation} {index : Int}
    (read : entry.read index = .ok operation) (rest : List PatchEntry) (resource : Members) :
    (applyEntries (some schema) index (entry :: rest)).reached? resource =
      ((operation.apply (some schema)).reached? resource).bind
        (applyEntries (some schema) (index + 1) rest).reached? := by
  rw [Action.reached?, run_applyEntries_cons read, ← Action.reached?_bind, Action.reached?]

/-- Entries whose paths are under the URN of the core schema leave what the entries without it
leave. -/
theorem reached?_applyEntries_urn (qualifies : Qualifies schema.urn)
    {entries others : List PatchEntry}
    (alike : List.Forall₂ (PatchEntry.Prefixed schema.urn) entries others) (index : Int)
    (resource : Members) :
    (applyEntries (some schema) index others).reached? resource =
      (applyEntries (some schema) index entries).reached? resource := by
  induction alike generalizing index resource with
  | nil => rfl
  | @cons entry other rest more pair _ ih =>
      cases pair with
      | same =>
          cases read : entry.read index with
          | error failure =>
              have stopped (rest : List PatchEntry) :
                  (applyEntries (some schema) index (entry :: rest)).reached? resource = none := by
                rw [Action.reached?, applyEntries, read]
                rfl
              rw [stopped, stopped]
          | ok operation =>
              rw [reached?_applyEntries_cons read, reached?_applyEntries_cons read]
              exact Option.bind_congr fun after _ => ih (index + 1) after
      | under read textEq parsed noUri readOther =>
          rw [reached?_applyEntries_cons (PatchEntry.read_of_read read index),
            reached?_applyEntries_cons (PatchEntry.read_of_read readOther index),
            reached?_apply_urn qualifies textEq parsed noUri]
          exact Option.bind_congr fun after _ => ih (index + 1) after

/-! ## The standard schemas -/

/-- Under a standard schema the URN of the core schema makes no difference before a path: not to a
filter, before any of its paths, nor to a sort, for resources that keep nothing under the URN at
any level, and not to what a change request makes of any resource. -/
theorem core_urn_transparent (standard : schema = .user ∨ schema = .group) :
    (∀ filter other, Filter.Prefixed schema.urn filter other →
      ∀ resource, Json.avoids schema.urn (.obj resource) = true →
        other.holds (.obj resource) (some schema) = filter.holds (.obj resource) (some schema)) ∧
    (∀ text path, PathOf.parse text = .ok path → path.uri = none →
      ∀ resources : List Members,
        (∀ resource ∈ resources, Json.avoids schema.urn (.obj resource) = true) → ∀ order,
        sortResources (resources.map .obj) (qualified schema.urn (Text.trim text)) order
            (some schema) =
          sortResources (resources.map .obj) text order (some schema)) ∧
    ∀ entries others, List.Forall₂ (PatchEntry.Prefixed schema.urn) entries others →
      ∀ resource, (applyPatch resource others (some schema)).toOption =
        (applyPatch resource entries (some schema)).toOption := by
  have qualifies : Qualifies schema.urn := by
    rcases standard with rfl | rfl
    · exact qualifies_userUrn
    · exact qualifies_groupUrn
  have registered : (Schema.find? schema.urn).map (·.endpoint.isSome) = some true := by
    rcases standard with rfl | rfl <;> decide +kernel
  refine ⟨fun filter other filters resource avoids => ?_,
    fun text path parsed noUri resources avoid order => ?_, fun entries others alike resource => ?_⟩
  · exact Filter.eval_prefixed filters registered rfl avoids
  · refine sortResources_urn qualifies registered parsed noUri (fun resource held => ?_) order
    exact (Json.avoids_obj_iff.mp (avoid resource held)).1
  · rw [toOption_applyPatch, toOption_applyPatch, reached?_applyEntries_urn qualifies alike]

/-- A filter on the elements of a list, a sort and a change of such an element, with the URN of
users before the paths. -/
theorem core_urn_transparent_emails :
    let resource : Members := [("userName", .str "a"),
      ("emails", .arr [.obj [("type", .str "work"), ("value", .str "x")]])]
    let filter : Filter := .valuePath (.plain "emails") (.compare (.plain "type") .eq (.str "WORK"))
    let other : Filter := .valuePath ⟨some userUrn, some "emails", none, none⟩
      (.compare ⟨some userUrn, some "type", none, none⟩ .eq (.str "WORK"))
    let change (path : String) : List PatchEntry := [.ready ⟨.replace, some path, .str "y"⟩]
    other.holds (.obj resource) (some .user) = filter.holds (.obj resource) (some .user) ∧
      sortResources [.obj resource] "urn:ietf:params:scim:schemas:core:2.0:User:userName"
          .descending (some .user) =
        sortResources [.obj resource] " userName" .descending (some .user) ∧
      (applyPatch resource (change
          "urn:ietf:params:scim:schemas:core:2.0:User:emails[type eq \"work\"].value")
          (some .user)).toOption =
        (applyPatch resource (change "emails[type eq \"work\"].value") (some .user)).toOption := by
  intro resource filter other change
  have standard : ResourceSchema.user = .user ∨ ResourceSchema.user = .group := .inl rfl
  obtain ⟨filters, sorts, changes⟩ := core_urn_transparent standard
  have avoids : Json.avoids userUrn (.obj resource) = true := by decide +kernel
  have prefixed (attr : String) : PathOf.Prefixed userUrn (.plain attr : AttributePath)
      ⟨some userUrn, some attr, none, none⟩ := .under rfl
  have sorted : PathOf.parse " userName" = .ok (.plain "userName" : AttributePath) := rfl
  have sortText : qualified userUrn (Text.trim " userName") =
      "urn:ietf:params:scim:schemas:core:2.0:User:userName" := by decide +kernel
  have changeText : qualified userUrn (Text.trim "emails[type eq \"work\"].value") =
      "urn:ietf:params:scim:schemas:core:2.0:User:emails[type eq \"work\"].value" := by
    decide +kernel
  have names : PatchOperation.NamesAttr
      ⟨.replace, some "emails[type eq \"work\"].value", .str "y"⟩ "emails" := by decide +kernel
  obtain ⟨text, path, textEq, parsed, noUri, -⟩ := names
  cases textEq
  refine ⟨filters filter other (.valuePath (prefixed _) (.compare (prefixed _) _ _)) resource avoids,
    ?_, ?_⟩
  · rw [← sortText]
    exact sorts _ _ sorted rfl [resource] (List.forall_mem_singleton.mpr avoids) _
  · rw [← changeText]
    exact changes _ _ (.cons (.under rfl rfl parsed noUri rfl) .nil) resource

end Scim
