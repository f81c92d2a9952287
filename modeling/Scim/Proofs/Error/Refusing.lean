import Scim.Proofs.Error.Responses
import Scim.Proofs.Failures
import Scim.Proofs.Filter.Crashing

/-!
# What the engine refuses

Whatever the engine refuses, it refuses with an error that it composes for the purpose: one of
a kind, with the status and the keyword of the kind.  This is found for each part of the engine
from the parts that it consists of.
-/

namespace Scim

variable {α β : Type}

/-- Failures that are no refusals, and refusals that the engine composes itself. -/
def Failure.IsNative : Failure → Prop
  | .scim error => error.Native
  | .fault _ => True

theorem Failure.IsFault.isNative {failure : Failure} (isFault : failure.IsFault) :
    failure.IsNative := by
  obtain ⟨fault, rfl⟩ := isFault
  trivial

namespace FailsOnly

theorem refuse_of (kind : ErrorKind) (detail : String) :
    FailsOnly Failure.IsNative (Scim.refuse (.of kind detail) : Except Failure α) :=
  .error (.of kind detail)

theorem native {outcome : Except Failure α} (fails : FailsOnly Failure.IsFault outcome) :
    FailsOnly Failure.IsNative outcome := fails.mono fun _ => Failure.IsFault.isNative

/-- What is done after a check fails as the check and as what is done without it. -/
theorem checked {P : Failure → Prop} {condition : Prop} [Decidable condition]
    {check : Except Failure PUnit} {next : PUnit → Except Failure α} (first : FailsOnly P check)
    (last : FailsOnly P (next ⟨⟩)) :
    FailsOnly P (if condition then check >>= next else next ⟨⟩) := by
  split
  · exact bind first fun _ _ => last
  · exact last

theorem filterM {P : Failure → Prop} {test : α → Except Failure Bool} {items : List α}
    (each : ∀ item ∈ items, FailsOnly P (test item)) : FailsOnly P (items.filterM test) := by
  have filtered (before : List α) : FailsOnly P (items.filterAuxM test before) := by
    induction items generalizing before with
    | nil => exact ok before
    | cons item rest ih =>
        obtain ⟨first, later⟩ := List.forall_mem_cons.mp each
        rw [List.filterAuxM]
        exact bind first fun _ _ => ih later _
  exact bind (filtered []) fun _ _ => ok _

theorem forIn {P : Failure → Prop} {step : α → β → Except Failure (ForInStep β)} {items : List α}
    (each : ∀ item ∈ items, ∀ value, FailsOnly P (step item value)) (start : β) :
    FailsOnly P (ForIn.forIn items start step) := by
  induction items generalizing start with
  | nil => exact ok start
  | cons item rest ih =>
      obtain ⟨first, later⟩ := List.forall_mem_cons.mp each
      rw [List.forIn_cons]
      refine bind (first start) fun next _ => ?_
      cases next with
      | done value => exact ok value
      | yield value => exact ih later value

end FailsOnly

theorem Action.FailsOnly.checked {σ : Type} {P : Failure → Prop} {condition : Prop}
    [Decidable condition] {check : Action σ PUnit} {next : PUnit → Action σ α}
    (first : check.FailsOnly P) (last : (next ⟨⟩).FailsOnly P) :
    (if condition then check >>= next else next ⟨⟩).FailsOnly P := by
  split
  · exact bind first fun _ _ _ _ => last
  · exact last

/-! ## Filters and paths -/

theorem Filter.native_parse (text : String) :
    FailsOnly Failure.IsNative (Filter.parse text) := by
  unfold Filter.parse
  cases Filter.read text with
  | ok expr => exact .ok expr
  | error refusal =>
      refine .error ?_
      cases refusal with
      | malformed => exact .of _ _
      | tooDeep => exact .of _ _
      | integerTooLong => trivial

theorem PathOf.native_parse (text : String) :
    FailsOnly Failure.IsNative (PathOf.parse text) := by
  unfold PathOf.parse
  split
  · exact .refuse_of _ _
  · split
    · exact .ok _
    · exact .refuse_of _ _
    · exact .native (.failWith _)
    · exact .native (.failWith _)

/-! ## Locations -/

theorem Members.failsOnly_declares (resource : Members) (uri : String) :
    FailsOnly Failure.IsFault (declares resource uri) :=
  .bind (Json.failsOnly_listed _) fun _ _ => .ok _

theorem native_checkUri (resource : Members) (uri : String) (schema : Option ResourceSchema) :
    FailsOnly Failure.IsNative (checkUri resource uri schema) := by
  unfold checkUri
  split
  · exact .ok _
  · refine .bind (resource.failsOnly_declares uri).native fun declared _ => ?_
    split
    · exact .ok _
    · exact .refuse_of _ _

theorem native_homeFor {φ : Type} (resource : Members) (path : PathOf φ)
    (schema : Option ResourceSchema) :
    FailsOnly Failure.IsNative (homeFor resource path schema) := by
  unfold homeFor
  split
  · exact .ok _
  · refine .bind (native_checkUri _ _ _) fun _ _ => ?_
    split
    · exact .ok _
    · split
      · exact .ok _
      · split
        · refine .bind (resource.failsOnly_isCoreUri _).fault.native fun core _ => ?_
          split <;> exact .ok _
        · exact .ok _

theorem failsOnly_matchingIndexes (scope : Scope) (filter : Filter) (index : Nat)
    (items : List Json) : FailsOnly Failure.IsFault (matchingIndexes scope filter index items) := by
  induction items generalizing index with
  | nil => exact .ok _
  | cons item rest ih =>
      cases item with
      | obj element =>
          rw [matchingIndexes]
          refine .bind (filter.failsOnly_eval _ _).fault fun found _ => ?_
          exact .bind (ih _) fun _ _ => .ok _
      | _ => exact ih _

theorem failsOnly_locationsUnder (home : Home) (key : String) (value : Json)
    (path : AttributePath) (schema : Option ResourceSchema) :
    FailsOnly Failure.IsFault (locationsUnder home key value path schema) := by
  unfold locationsUnder
  split
  · refine .bind (failsOnly_matchingIndexes _ _ _ _) fun found _ => ?_
    split <;> exact .ok _
  · split
    · exact .ok _
    · exact .ok _
  · exact .ok _

theorem native_resolve (resource : Members) (path : AttributePath)
    (schema : Option ResourceSchema) :
    FailsOnly Failure.IsNative (resolve resource path schema) := by
  unfold resolve
  refine .bind (native_homeFor _ _ _) fun home _ => ?_
  split
  · exact .ok _
  · split
    · split <;> exact .ok _
    · dsimp only
      split
      · exact .ok _
      · split
        · exact .ok _
        · exact (failsOnly_locationsUnder _ _ _ _ _).native

theorem failsOnly_isHome (value : Json) (uri : Option String) (schema : Option ResourceSchema) :
    FailsOnly Failure.IsFault (isHome value uri schema) := by
  unfold isHome
  split
  · exact .ok _
  · next uri =>
    have behind : FailsOnly Failure.IsFault (do
        if schema.any (sameName ·.urn uri) then return !value.isNull
        let _ ← value.attrOf uri
        if schema.isNone then value.isCoreUri uri else return false) := by
      split
      · exact .ok _
      · refine .bind (value.failsOnly_attrOf _) fun _ _ => ?_
        split
        · exact (value.failsOnly_isCoreUri _).fault
        · exact .ok _
    dsimp only
    split
    · exact .bind (.failWith _) fun _ _ => behind
    · exact behind

theorem Json.native_resolve (value : Json) (path : AttributePath)
    (schema : Option ResourceSchema) :
    FailsOnly Failure.IsNative (value.resolve path schema) := by
  unfold Json.resolve
  split
  · exact Scim.native_resolve _ _ _
  · refine .bind (failsOnly_isHome _ _ _).native fun home _ => ?_
    split
    · exact .bind (Json.failsOnly_attrOf _ _).native fun _ _ => .ok _
    · exact .ok _

theorem native_resolveRequired (resource : Json) (path : AttributePath)
    (schema : Option ResourceSchema) :
    FailsOnly Failure.IsNative (resolveRequired resource path schema) := by
  unfold resolveRequired
  refine .bind (resource.native_resolve path schema) fun locations _ => ?_
  split
  · exact .refuse_of _ _
  · exact .ok _

theorem native_resolveValues (resource : Json) (path : AttributePath)
    (schema : Option ResourceSchema) :
    FailsOnly Failure.IsNative (resolveValues resource path schema) :=
  .bind (resource.native_resolve path schema) fun _ _ => .ok _

/-! ## Queries -/

namespace QuerySpec

theorem native_readOrder (word : Option String) : FailsOnly Failure.IsNative (readOrder word) := by
  unfold readOrder
  split
  · exact .ok _
  · split
    · exact .ok _
    · exact .refuse_of _ _

theorem native_readInteger (name : String) (text : Option String) :
    FailsOnly Failure.IsNative (readInteger name text) := by
  unfold readInteger
  split
  · exact .ok _
  · split
    · exact .ok _
    · exact .refuse_of _ _

theorem native_ofParams (params : Members) : FailsOnly Failure.IsNative (ofParams params) := by
  refine .bind ?_ fun filter _ => ?_
  · cases param params "filter" with
    | none => exact .ok none
    | some text => exact .bind (Filter.native_parse text) fun _ _ => .ok _
  · refine .bind (native_readOrder _) fun order _ => ?_
    refine .bind (native_readInteger _ _) fun start _ => ?_
    exact .bind (native_readInteger _ _) fun count _ => .ok _

end QuerySpec

theorem failsOnly_sortValue (resource : Json) (path : AttributePath) :
    FailsOnly Failure.IsFault (sortValue resource path) :=
  .bind (failsOnly_attributeValues path.whole resource).fault fun _ _ => .ok _

theorem failsOnly_sortCaseExact (schema : Option ResourceSchema) (path : AttributePath) :
    FailsOnly Failure.IsFault (sortCaseExact schema path) := by
  unfold sortCaseExact
  split
  · exact .ok _
  · split
    · exact .ok _
    · split
      · exact .failWith _
      · exact .ok _

theorem native_sortOn (resource : α → Json) (items : List α) (sortBy : String) (order : SortOrder)
    (schema : Option ResourceSchema) :
    FailsOnly Failure.IsNative (sortOn resource items sortBy order schema) := by
  refine .bind (PathOf.native_parse sortBy) fun path _ => ?_
  refine .bind (failsOnly_sortCaseExact schema path).native fun caseExact _ => ?_
  refine .bind (.mapM fun item _ => ?_) fun keyed _ => .ok _
  exact .bind (failsOnly_sortValue _ path).native fun _ _ => .ok _

namespace Projection

variable (schema : Option ResourceSchema)

theorem native_only (resource : Members) (attributes : List String) :
    FailsOnly Failure.IsNative (only resource schema attributes) :=
  .foldlM (fun target text => .bind (PathOf.native_parse text) fun path _ =>
    (failsOnly_copyPath resource target path).native) _ _

theorem native_allBut (resource : Members) (excluded : List String) :
    FailsOnly Failure.IsNative (allBut resource schema excluded) := by
  refine .foldlM (fun target text => .bind (PathOf.native_parse text) fun path _ => ?_) _ _
  split
  · exact .ok _
  · exact (failsOnly_dropPath target path).native

theorem failsOnly_probe {φ : Type} (value : Json) (path : PathOf φ) :
    FailsOnly Failure.IsFault (probe value path) := by
  unfold probe
  refine .bind ?_ fun extension _ => ?_
  · cases path.uri with
    | none => exact .ok none
    | some uri =>
        refine .bind ?_ fun _ _ => .ok _
        exact .bind (value.failsOnly_isCoreUri uri).fault fun _ _ => .ok _
  · split
    · exact .bind (value.failsOnly_attrOf _) fun _ _ => .ok _
    · split
      · exact .bind (value.failsOnly_attrOf _) fun _ _ => .ok _
      · exact .ok _
    · exact .ok _

theorem native_ofOther (value : Json) (attributes excluded : List String) :
    FailsOnly Failure.IsNative (ofOther value attributes excluded schema) := by
  unfold ofOther
  split
  · next schema =>
    have probed (path : AttributePath) : FailsOnly Failure.IsNative (probe value path) :=
      (failsOnly_probe value path).native
    split
    · refine .bind (.forIn (fun text _ _ => ?_) _) fun _ _ => ?_
      · refine .bind (PathOf.native_parse text) fun path _ => ?_
        split
        · exact .bind (probed path) fun _ _ => .ok _
        · exact .ok _
      · exact .bind (.forIn (fun _ _ _ => .bind (probed _) fun _ _ => .ok _) _) fun _ _ => .ok _
    · refine .bind (.forIn (fun name _ _ => ?_) _) fun _ _ => ?_
      · exact .bind (value.failsOnly_attrOf name).native fun _ _ => .ok _
      · refine .bind (.forIn (fun text _ _ => ?_) _) fun _ _ => .ok _
        exact .bind (PathOf.native_parse text) fun path _ => .bind (probed path) fun _ _ => .ok _
  · exact .native (.failWith _)

end Projection

theorem native_project (resource : Members) (attributes excluded : List String)
    (schema : Option ResourceSchema) :
    FailsOnly Failure.IsNative (project resource attributes excluded schema) := by
  have projected (schema : Option ResourceSchema) : FailsOnly Failure.IsNative (do
      let projected ← if attributes.isEmpty then Projection.allBut resource schema excluded
        else Projection.only resource schema attributes
      Projection.dropHidden schema projected) := by
    have hidden (shown : Members) :
        FailsOnly Failure.IsNative (Projection.dropHidden schema shown) :=
      (Projection.failsOnly_dropHidden schema shown).native
    dsimp only
    split
    · exact .bind (Projection.native_allBut schema resource excluded) fun shown _ => hidden shown
    · exact .bind (Projection.native_only schema resource attributes) fun shown _ => hidden shown
  unfold project
  cases schema with
  | some schema => exact projected (some schema)
  | none => exact .bind (Members.failsOnly_schema? resource).native fun schema _ => projected schema

theorem Json.native_project (value : Json) (attributes excluded : List String)
    (schema : Option ResourceSchema) :
    FailsOnly Failure.IsNative (value.project attributes excluded schema) := by
  unfold Json.project
  split
  · exact (Scim.native_project _ _ _ _).map _
  · exact Projection.native_ofOther schema _ attributes excluded

namespace Listing

variable (listing : Listing) (spec : QuerySpec) (schema : Option ResourceSchema)

theorem failsOnly_filterStage :
    FailsOnly Failure.IsFault (listing.filterStage spec schema) := by
  unfold filterStage
  split
  · split
    · exact .ok _
    · exact .filterM fun resource _ => (Filter.failsOnly_eval _ _ resource).fault
  · exact .ok _

theorem native_sortStage (resources : List Json) :
    FailsOnly Failure.IsNative (listing.sortStage spec schema resources) := by
  unfold sortStage
  split
  · split
    · exact native_sortOn _ _ _ _ _
    · exact .ok _
  · exact .ok _

theorem native_complete : FailsOnly Failure.IsNative (listing.complete spec schema) := by
  refine .bind ?_ fun page _ => ?_
  · unfold pageStage
    split
    · exact .ok _
    · refine .bind (listing.failsOnly_filterStage spec schema).native fun kept _ => ?_
      exact .bind (listing.native_sortStage spec schema kept) fun _ _ => .ok _
  · dsimp only
    split
    · exact .ok _
    · refine .bind (.mapM fun resource _ => ?_) fun _ _ => .ok _
      exact resource.native_project _ _ schema

end Listing

end Scim
