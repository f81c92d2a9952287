import Scim.Proofs.Patch.Carrying

/-!
# Operations on different attributes

An operation whose path has no URN decides from the current value of its attribute and
writes no other.  Two such operations on different attributes do not see each other, so a
change request may list them in either order.
-/

namespace Scim

open Members

variable {attr other name : String} {members resource : Members}

/-! ## Edits of different attributes -/

namespace AttrEdit

theorem spellings_on (edit : AttrEdit) (differ : sameName attr name = false) :
    spellings (edit.on attr members) name = spellings members name := by
  cases edit with
  | keep => rfl
  | put value => exact spellings_setAttr_of_differ members differ value
  | drop => exact spellings_delAttr members differ

/-- Another attribute has the value that it had. -/
theorem attr_on (edit : AttrEdit) (differ : sameName attr name = false) :
    Members.attr (edit.on attr members) name = Members.attr members name := by
  rw [Members.attr, attr?_congr (edit.spellings_on differ), Members.attr]

/-- Another attribute is stored where it was. -/
theorem place_on (edit : AttrEdit) (differ : sameName attr name = false) :
    place (edit.on attr members) name = place members name :=
  place_congr (edit.spellings_on differ)

/-- An edit acts on the place of its attribute. -/
theorem on_eq (edit : AttrEdit) (attr : String) (members : Members) :
    edit.on attr members =
      match edit with
      | keep => members
      | put value => set members (place members attr) value
      | drop => Members.erase members (place members attr) := by
  cases edit with
  | keep => rfl
  | put value => rfl
  | drop => exact delAttr_eq_erase members attr

/-- Edits of different attributes can be made in either order. -/
theorem on_on_perm (differ : sameName attr other = false) (first last : AttrEdit)
    (members : Members) :
    (last.on other (first.on attr members)).Perm (first.on attr (last.on other members)) := by
  have differ' : sameName other attr = false := (sameName_comm other attr).trans differ
  have apart : place members attr ≠ place members other := place_ne differ
  rw [on_eq last, on_eq first attr (last.on other members), first.place_on differ,
    last.place_on differ', on_eq first, on_eq last]
  cases first with
  | keep => exact .refl _
  | put value =>
      cases last with
      | keep => exact .refl _
      | put second => exact set_set_perm apart members value second
      | drop => exact .of_eq (erase_set_of_ne apart.symm members value)
  | drop =>
      cases last with
      | keep => exact .refl _
      | put second => exact .of_eq (erase_set_of_ne apart members second).symm
      | drop => exact .of_eq (erase_comm members _ _)

end AttrEdit

/-! ## Operations at a path without a URN -/

namespace PatchOperation

/-- Whether an operation has a path without a URN, to an attribute. -/
def NamesAttr (operation : PatchOperation) (attr : String) : Prop :=
  ∃ text path, operation.path = some text ∧ PathOf.parse text = .ok path ∧ path.uri = none ∧
    path.attr = some attr

theorem namesAttr_iff {operation : PatchOperation} :
    operation.NamesAttr attr ↔
      (operation.path.bind fun text => (PathOf.parse text).toOption.map fun path =>
        (path.uri, path.attr)) = some (none, some attr) := by
  constructor
  · intro names
    obtain ⟨text, path, textEq, parsed, noUri, attrEq⟩ := names
    rw [textEq, Option.bind_some, parsed, ← noUri, ← attrEq]
    rfl
  · intro found
    obtain ⟨text, textEq, read⟩ := Option.bind_eq_some_iff.mp found
    obtain ⟨path, parsed, is⟩ := Option.map_eq_some_iff.mp read
    obtain ⟨noUri, attrEq⟩ := Prod.mk.inj is
    cases result : PathOf.parse text with
    | error failure =>
        rw [result] at parsed
        cases parsed
    | ok other =>
        rw [result] at parsed
        cases parsed
        exact ⟨text, _, textEq, result, noUri, attrEq⟩

instance (operation : PatchOperation) (attr : String) : Decidable (operation.NamesAttr attr) :=
  decidable_of_iff _ namesAttr_iff.symm

/-- The outcome of a decision on an attribute of a resource: a refusal, with the resource as
it is, or the edited resource. -/
def outcome (decision : Except Failure AttrEdit) (attr : String) (resource : Members) :
    Except Failure Unit × Members :=
  match decision with
  | .ok edit => (.ok (), edit.on attr resource)
  | .error failure => (.error failure, resource)

theorem outcome_eq_ok_iff {decision : Except Failure AttrEdit} {after : Members} :
    outcome decision attr resource = (.ok (), after) ↔
      ∃ edit, decision = .ok edit ∧ after = edit.on attr resource := by
  cases decision with
  | error failure => exact iff_of_false nofun nofun
  | ok edit => simp [outcome, eq_comm]

theorem eq_outcome {decision : Except Failure AttrEdit} {after : Except Failure Unit × Members}
    (decided : Patch.Decided .core attr resource decision after) :
    after = outcome decision attr resource := by
  cases decided with
  | refused failure => rfl
  | carried edit f agrees => exact congrArg (Prod.mk (Except.ok ())) agrees

/-- An operation on an attribute at the top of a resource does what it decides from the current
value of the attribute, if the attribute may be changed. -/
theorem run_apply_core {operation : PatchOperation} {text : String} {path : AttributePath}
    {schema : Option ResourceSchema} {resource : Members}
    (textEq : operation.path = some text) (parsed : PathOf.parse text = .ok path)
    (found : homeFor resource path schema = .ok (some .core)) (attrEq : path.attr = some attr) :
    (operation.apply schema).run resource =
      outcome (Patch.checkMutable schema path >>= fun _ =>
        operation.decision schema path attr (Members.attr resource attr)) attr resource := by
  obtain ⟨op, _, value⟩ := operation
  cases textEq
  have ensured : (Patch.ensureHome schema path).run resource = (.ok .core, resource) := by
    rw [Patch.ensureHome, Action.run_bind, Action.run_examine, found]
    rfl
  have aimed : target schema text = (Patch.checkMutable schema path).map fun _ => path := by
    rw [target, parsed]
    change (Patch.checkMutable schema path >>= fun _ => .ok path) = _
    cases Patch.checkMutable schema path <;> rfl
  unfold apply
  dsimp only
  rw [Action.run_bind, Action.run_ofExcept, aimed]
  cases Patch.checkMutable schema path with
  | error failure => rfl
  | ok _ =>
      apply eq_outcome
      cases op with
      | add => exact Patch.decided_add attrEq (.inr found) value ensured
      | replace => exact Patch.decided_replace attrEq (.inr found) value ensured
      | remove => exact Patch.decided_remove attrEq found value

/-- The attribute of a path without a URN is at the top. -/
theorem run_apply {operation : PatchOperation} {text : String} {path : AttributePath}
    (textEq : operation.path = some text) (parsed : PathOf.parse text = .ok path)
    (noUri : path.uri = none) (attrEq : path.attr = some attr)
    (schema : Option ResourceSchema) (resource : Members) :
    (operation.apply schema).run resource =
      outcome (Patch.checkMutable schema path >>= fun _ =>
        operation.decision schema path attr (Members.attr resource attr)) attr resource := by
  refine run_apply_core textEq parsed ?_ attrEq
  rw [homeFor, noUri]
  rfl

theorem NamesAttr.exists_decide {operation : PatchOperation} (names : operation.NamesAttr attr)
    (schema : Option ResourceSchema) :
    ∃ decide : Json → Except Failure AttrEdit, ∀ resource,
      (operation.apply schema).run resource =
        outcome (decide (Members.attr resource attr)) attr resource := by
  obtain ⟨text, path, textEq, parsed, noUri, attrEq⟩ := names
  exact ⟨fun current => Patch.checkMutable schema path >>= fun _ =>
    operation.decision schema path attr current, run_apply textEq parsed noUri attrEq schema⟩

/-! ## Reading operations -/

theorem toOption_bind_congr {α β : Type} {first last : Except Failure α}
    {next after : α → Except Failure β} (same : first.toOption = last.toOption)
    (agree : ∀ value, (next value).toOption = (after value).toOption) :
    (first >>= next).toOption = (last >>= after).toOption := by
  cases first with
  | error failure =>
      cases last with
      | error other => rfl
      | ok value => cases same
  | ok value =>
      cases last with
      | error other => cases same
      | ok other =>
          cases same
          exact agree value

/-- Only the texts of refusals depend on the place of an operation in its request. -/
theorem toOption_ofJson (data : Json) (first last : Int) :
    (ofJson data first).toOption = (ofJson data last).toOption := by
  cases data with
  | obj members =>
      unfold ofJson
      dsimp only
      cases attr? members "op" with
      | none => rfl
      | some word =>
          dsimp only
          cases word.text?.bind PatchOp.ofWord? with
          | none => rfl
          | some op =>
              dsimp only
              split
              case h_4 => rfl
              all_goals
                apply toOption_bind_congr rfl
                intro path
                split <;> split <;> rfl
  | _ => rfl

end PatchOperation

theorem PatchEntry.read_of_read {entry : PatchEntry} {operation : PatchOperation} {index : Int}
    (read : entry.read index = .ok operation) (place : Int) : entry.read place = .ok operation := by
  cases entry with
  | ready operation => exact read
  | data value =>
      have same := PatchOperation.toOption_ofJson value index place
      rw [PatchEntry.read] at read ⊢
      rw [read] at same
      cases found : PatchOperation.ofJson value place with
      | error failure =>
          rw [found] at same
          cases same
      | ok operation =>
          rw [found] at same
          cases same
          rfl

/-! ## Change requests -/

section

variable {schema : ResourceSchema} {first second : PatchEntry} {a b : PatchOperation}
  {decideFirst decideSecond : Json → Except Failure AttrEdit}

theorem run_applyEntries_cons {schema : Option ResourceSchema} {entry : PatchEntry}
    {operation : PatchOperation} {index : Int} (read : entry.read index = .ok operation)
    (rest : List PatchEntry) (resource : Members) :
    (applyEntries schema index (entry :: rest)).run resource =
      (operation.apply schema >>= fun _ => applyEntries schema (index + 1) rest).run resource := by
  have found : (Action.ofExcept (entry.read index)).run resource = (.ok operation, resource) := by
    rw [Action.run_ofExcept, read]
  exact Action.run_bind_ok found _

/-- Under a schema the entries of a request are applied one after the other. -/
theorem applyPatch_eq (schema : ResourceSchema) (entries : List PatchEntry) (resource : Members) :
    applyPatch resource entries (some schema) =
      ((applyEntries (some schema) 0 entries).run resource).1.map fun _ =>
        ((applyEntries (some schema) 0 entries).run resource).2 := by
  have known : effectiveSchema (.obj resource) (some schema) = .ok (some schema) := rfl
  rw [applyPatch, known]
  dsimp only [bind, Except.bind]
  rcases (applyEntries (some schema) 0 entries).run resource with ⟨_ | _, changed⟩ <;> rfl

theorem applyPatch_eq_ok_iff {entries : List PatchEntry} {resource result : Members} :
    applyPatch resource entries (some schema) = .ok result ↔
      (applyEntries (some schema) 0 entries).run resource = (.ok (), result) := by
  rw [applyPatch_eq]
  rcases Action.run _ resource with ⟨_ | _, changed⟩
  · exact iff_of_false nofun nofun
  · simp [Except.map]

/-- A request is applied in two parts, each entry in its place. -/
theorem run_applyEntries_append_iff {before rest : List PatchEntry} {index : Int}
    {resource after : Members} :
    (applyEntries (some schema) index (before ++ rest)).run resource = (.ok (), after) ↔
      ∃ middle, (applyEntries (some schema) index before).run resource = (.ok (), middle) ∧
        (applyEntries (some schema) (index + before.length) rest).run middle = (.ok (), after) := by
  induction before generalizing index resource with
  | nil =>
      rw [List.nil_append, List.length_nil, Int.natCast_zero, Int.add_zero]
      constructor
      · exact fun ran => ⟨resource, rfl, ran⟩
      · rintro ⟨_, ⟨⟩, ran⟩
        exact ran
  | cons first more ih =>
      have place : index + 1 + (more.length : Int) = index + ((first :: more).length : Int) := by
        rw [List.length_cons]
        omega
      rw [← place]
      constructor
      · intro ran
        obtain ⟨operation, start, read, ran⟩ := Action.run_bind_eq_ok_iff.mp ran
        obtain ⟨_, next, applied, ran⟩ := Action.run_bind_eq_ok_iff.mp ran
        obtain ⟨middle, ranMore, ranRest⟩ := ih.mp ran
        exact ⟨middle, Action.run_bind_eq_ok_iff.mpr ⟨operation, start, read,
          Action.run_bind_eq_ok_iff.mpr ⟨(), next, applied, ranMore⟩⟩, ranRest⟩
      · rintro ⟨middle, ran, ranRest⟩
        obtain ⟨operation, start, read, ran⟩ := Action.run_bind_eq_ok_iff.mp ran
        obtain ⟨_, next, applied, ranMore⟩ := Action.run_bind_eq_ok_iff.mp ran
        exact Action.run_bind_eq_ok_iff.mpr ⟨operation, start, read,
          Action.run_bind_eq_ok_iff.mpr ⟨(), next, applied, ih.mpr ⟨middle, ranMore, ranRest⟩⟩⟩

/-- What one more entry does. -/
theorem applyPatch_concat_iff {before : List PatchEntry} {entry : PatchEntry}
    {resource after : Members} :
    applyPatch resource (before ++ [entry]) (some schema) = .ok after ↔
      ∃ middle operation, applyPatch resource before (some schema) = .ok middle ∧
        entry.read before.length = .ok operation ∧
          (operation.apply (some schema)).run middle = (.ok (), after) := by
  simp only [applyPatch_eq_ok_iff, run_applyEntries_append_iff, Int.zero_add]
  constructor
  · rintro ⟨middle, ran, last⟩
    obtain ⟨operation, start, read, last⟩ := Action.run_bind_eq_ok_iff.mp last
    obtain ⟨readEq, rfl⟩ := Prod.mk.inj read
    obtain ⟨_, next, applied, ⟨⟩⟩ := Action.run_bind_eq_ok_iff.mp last
    exact ⟨middle, operation, ran, readEq, applied⟩
  · rintro ⟨middle, operation, ran, readEq, applied⟩
    refine ⟨middle, ran, ?_⟩
    rw [run_applyEntries_cons readEq]
    exact Action.run_bind_eq_ok_iff.mpr ⟨(), after, applied, rfl⟩

/-- What a request of one entry does. -/
theorem applyPatch_singleton_iff {entry : PatchEntry} {operation : PatchOperation}
    {resource after : Members} (read : entry.read 0 = .ok operation) :
    applyPatch resource [entry] (some schema) = .ok after ↔
      (operation.apply (some schema)).run resource = (.ok (), after) := by
  have start : applyPatch resource [] (some schema) = .ok resource := rfl
  rw [← List.nil_append [entry], applyPatch_concat_iff]
  constructor
  · rintro ⟨_, _, begun, readEq, applied⟩
    cases start.symm.trans begun
    cases read.symm.trans readEq
    exact applied
  · exact fun applied => ⟨resource, operation, start, read, applied⟩

/-- A request of two operations on different attributes has a result exactly if both
operations decide for one from what the resource has. -/
theorem applyPatch_pair (readFirst : first.read 0 = .ok a) (readSecond : second.read 1 = .ok b)
    (runFirst : ∀ resource, (a.apply (some schema)).run resource =
      PatchOperation.outcome (decideFirst (Members.attr resource attr)) attr resource)
    (runSecond : ∀ resource, (b.apply (some schema)).run resource =
      PatchOperation.outcome (decideSecond (Members.attr resource other)) other resource)
    (differ : sameName attr other = false) (resource : Members) :
    applyPatch resource [first, second] (some schema) = do
      let edit ← decideFirst (Members.attr resource attr)
      let next ← decideSecond (Members.attr resource other)
      return next.on other (edit.on attr resource) := by
  rw [applyPatch_eq, run_applyEntries_cons readFirst, Action.run_bind, runFirst]
  cases decideFirst (Members.attr resource attr) with
  | error failure => rfl
  | ok edit =>
      have next : (0 : Int) + 1 = 1 := rfl
      dsimp only [PatchOperation.outcome]
      rw [next, run_applyEntries_cons readSecond, Action.run_bind, runSecond, edit.attr_on differ]
      cases decideSecond (Members.attr resource other) <;> rfl

end

/-- Two operations at paths without a URN, to different attributes, can be applied in either
order: one order has a result exactly if the other has, and then both results have the same
members. -/
theorem applyPatch_comm {first second : PatchEntry}
    {a b : PatchOperation} (readFirst : first.read 0 = .ok a) (readSecond : second.read 0 = .ok b)
    (namesFirst : a.NamesAttr attr) (namesSecond : b.NamesAttr other)
    (differ : sameName attr other = false) (schema : ResourceSchema) (resource : Members) :
    (applyPatch resource [first, second] (some schema)).isOk =
        (applyPatch resource [second, first] (some schema)).isOk ∧
      ∀ one two, applyPatch resource [first, second] (some schema) = .ok one →
        applyPatch resource [second, first] (some schema) = .ok two → one.Perm two := by
  obtain ⟨decideFirst, runFirst⟩ := namesFirst.exists_decide (some schema)
  obtain ⟨decideSecond, runSecond⟩ := namesSecond.exists_decide (some schema)
  have differ' : sameName other attr = false := (sameName_comm other attr).trans differ
  have inOrder := applyPatch_pair readFirst
    (PatchEntry.read_of_read readSecond 1) runFirst runSecond differ resource
  have swapped := applyPatch_pair readSecond
    (PatchEntry.read_of_read readFirst 1) runSecond runFirst differ' resource
  rw [inOrder, swapped]
  cases decideFirst (Members.attr resource attr) with
  | error failure =>
      cases decideSecond (Members.attr resource other) with
      | error failure =>
          constructor
          · rfl
          · intro one two applied
            cases applied
      | ok edit =>
          constructor
          · rfl
          · intro one two applied
            cases applied
  | ok edit =>
      cases decideSecond (Members.attr resource other) with
      | error failure =>
          constructor
          · rfl
          · intro one two applied
            cases applied
      | ok next =>
          constructor
          · rfl
          · intro one two applied appliedToo
            cases applied
            cases appliedToo
            exact AttrEdit.on_on_perm differ edit next resource

/-- Setting a flag and removing the elements of a list that a filter selects. -/
theorem applyPatch_comm_flag :
    let resource : Members := [("userName", .str "a"),
      ("Emails", .arr [.obj [("type", .str "work")], .obj [("type", .str "home")]])]
    let flag : PatchOperation := ⟨.replace, some "active", .str "True"⟩
    let removal : PatchOperation := ⟨.remove, some "emails[type eq \"work\"]", .null⟩
    flag.NamesAttr "active" ∧ removal.NamesAttr "emails" ∧ sameName "active" "emails" = false ∧
      ∃ one two, applyPatch resource [.ready flag, .ready removal] (some .user) = .ok one ∧
        applyPatch resource [.ready removal, .ready flag] (some .user) = .ok two ∧
        one.Perm two := by
  intro resource flag removal
  have namesFlag : flag.NamesAttr "active" := by decide +kernel
  have namesRemoval : removal.NamesAttr "emails" := by decide +kernel
  have differ : sameName "active" "emails" = false := by decide +kernel
  have readFlag : (PatchEntry.ready flag).read 0 = .ok flag := rfl
  have readRemoval : (PatchEntry.ready removal).read 0 = .ok removal := rfl
  have commute := applyPatch_comm readFlag readRemoval namesFlag namesRemoval differ .user resource
  have applies : (applyPatch resource [.ready flag, .ready removal] (some .user)).isOk = true := by
    decide +kernel
  have appliesToo := commute.1.symm.trans applies
  cases one : applyPatch resource [.ready flag, .ready removal] (some .user) with
  | error failure =>
      rw [one] at applies
      cases applies
  | ok first =>
      cases two : applyPatch resource [.ready removal, .ready flag] (some .user) with
      | error failure =>
          rw [two] at appliesToo
          cases appliesToo
      | ok last =>
          exact ⟨namesFlag, namesRemoval, differ, first, last, rfl, rfl,
            commute.2 first last one two⟩

end Scim
