import Scim.Proofs.Filter.Canonical
import Scim.Proofs.Outcome

/-!
# Rows of operands

A row of operands joined by one connective is a tree as deep as the row is long.  Its operands
are taken off it with a stack, from left to right, and the row is evaluated and printed by them
one after the other.  How the row is grouped plays no part in that: a conjunction and a
disjunction are associative, with their failures, and so is their text.
-/

namespace Scim.Filter

/-- The connectives that join operands to a row. -/
inductive Connective where
  | conjunction | disjunction
  deriving DecidableEq

/-- The connective at the root of a filter. -/
def connective? : Filter → Option Connective
  | .and _ _ => some .conjunction
  | .or _ _ => some .disjunction
  | _ => none

namespace Connective

/-- The two sides of a filter with the connective at its root. -/
def sides? : Connective → Filter → Option (Filter × Filter)
  | conjunction, .and left right | disjunction, .or left right => some (left, right)
  | _, _ => none

/-- The operands of a row, from left to right: those of both sides of each node with the
connective, down to the first nodes without it. -/
def row (connective : Connective) : Filter → List Filter
  | .and left right =>
    if connective = conjunction then row connective left ++ row connective right
    else [.and left right]
  | .or left right =>
    if connective = disjunction then row connective left ++ row connective right
    else [.or left right]
  | expr => [expr]

variable {connective : Connective} {expr operand left right : Filter}

/-! ## Sides and operands -/

theorem sides?_eq_some_iff :
    connective.sides? expr = some (left, right) ↔
      connective = conjunction ∧ expr = .and left right ∨
        connective = disjunction ∧ expr = .or left right := by
  cases connective <;> cases expr <;> simp [sides?]

theorem exists_sides (root : expr.connective? = some connective) :
    ∃ left right, connective.sides? expr = some (left, right) := by
  cases expr <;> cases root <;> exact ⟨_, _, rfl⟩

theorem row_of_sides (sides : connective.sides? expr = some (left, right)) :
    connective.row expr = connective.row left ++ connective.row right := by
  obtain ⟨rfl, rfl⟩ | ⟨rfl, rfl⟩ := sides?_eq_some_iff.mp sides
  · rw [row, if_pos rfl]
  · rw [row, if_pos rfl]

theorem row_of_no_sides (lacks : connective.sides? expr = none) : connective.row expr = [expr] := by
  cases connective <;> cases expr <;> first | rfl | cases lacks

theorem sizeOf_of_sides (sides : connective.sides? expr = some (left, right)) :
    sizeOf expr = 1 + sizeOf left + sizeOf right := by
  obtain ⟨-, rfl⟩ | ⟨-, rfl⟩ := sides?_eq_some_iff.mp sides
  · rfl
  · rfl

/-- Induction over the nodes of a row, down to its operands. -/
theorem rowInduction (connective : Connective) {motive : Filter → Prop}
    (node : ∀ expr left right, connective.sides? expr = some (left, right) →
      motive left → motive right → motive expr)
    (operand : ∀ expr, connective.sides? expr = none → motive expr) (expr : Filter) :
    motive expr :=
  match sides : connective.sides? expr with
  | some (left, right) =>
    node expr left right sides (rowInduction connective node operand left)
      (rowInduction connective node operand right)
  | none => operand expr sides
termination_by sizeOf expr
decreasing_by
  · have := sizeOf_of_sides sides
    omega
  · have := sizeOf_of_sides sides
    omega

theorem row_ne_nil (connective : Connective) (expr : Filter) : connective.row expr ≠ [] := by
  induction expr using connective.rowInduction with
  | node expr left right sides leftIh =>
      rw [row_of_sides sides]
      exact List.append_ne_nil_of_left_ne_nil leftIh _
  | operand expr lacks =>
      rw [row_of_no_sides lacks]
      exact List.cons_ne_nil _ _

/-- An operand of a row does not have the connective itself, and is a part of the row. -/
theorem of_mem_row (held : operand ∈ connective.row expr) :
    connective.sides? operand = none ∧ sizeOf operand ≤ sizeOf expr := by
  induction expr using connective.rowInduction with
  | node expr left right sides leftIh rightIh =>
      rw [row_of_sides sides] at held
      rw [sizeOf_of_sides sides]
      rcases List.mem_append.mp held with inLeft | inRight
      · exact (leftIh inLeft).imp_right fun within => by omega
      · exact (rightIh inRight).imp_right fun within => by omega
  | operand expr lacks =>
      rw [row_of_no_sides lacks] at held
      cases List.mem_singleton.mp held
      exact ⟨lacks, le_rfl⟩

/-! ## The walk with a stack -/

/-- The number of nodes of a row, its operands included. -/
def nodes (connective : Connective) (expr : Filter) : Nat := 2 * (connective.row expr).length - 1

theorem nodes_pos (connective : Connective) (expr : Filter) : 0 < connective.nodes expr := by
  have := List.length_pos_iff.mpr (connective.row_ne_nil expr)
  rw [nodes]
  omega

theorem nodes_of_sides (sides : connective.sides? expr = some (left, right)) :
    connective.nodes expr = connective.nodes left + connective.nodes right + 1 := by
  have leftPos := connective.nodes_pos left
  have rightPos := connective.nodes_pos right
  rw [nodes] at leftPos rightPos
  rw [nodes, nodes, nodes, row_of_sides sides, List.length_append]
  omega

/-- Takes the operands off the rows on a stack, behind those that were found.  A node with the
connective is replaced by its sides, of which the left one comes up next. -/
def unstack (connective : Connective) : List Filter → List Filter → List Filter
  | [], found => found
  | expr :: stack, found =>
    match _sides : connective.sides? expr with
    | some (left, right) => unstack connective (left :: right :: stack) found
    | none => unstack connective stack (found ++ [expr])
termination_by stack => (stack.map connective.nodes).sum
decreasing_by
  · have := nodes_of_sides _sides
    simp only [List.map_cons, List.sum_cons]
    omega
  · have := connective.nodes_pos expr
    simp only [List.map_cons, List.sum_cons]
    omega

/-- What was found, with the operands of what is on the stack behind it, stays the same throughout
the walk. -/
theorem unstack_eq (connective : Connective) (stack found : List Filter) :
    connective.unstack stack found = found ++ stack.flatMap connective.row := by
  fun_induction unstack connective stack found with
  | case1 found => rw [List.flatMap_nil, List.append_nil]
  | case2 found expr stack left right sides ih =>
      rw [ih, List.flatMap_cons, List.flatMap_cons, List.flatMap_cons, row_of_sides sides,
        List.append_assoc]
  | case3 found expr stack lacks ih =>
      rw [ih, List.flatMap_cons, row_of_no_sides lacks, List.append_assoc]

end Connective

/-- The operands of the row at the root of a filter, taken off with a stack. -/
def walked (expr : Filter) : List Filter :=
  match expr.connective? with
  | none => [expr]
  | some connective => connective.unstack [expr] []

theorem conjunctsOnto_eq (expr : Filter) (others : List Filter) :
    conjunctsOnto expr others = Connective.conjunction.row expr ++ others := by
  induction expr generalizing others with
  | and left right leftIh rightIh =>
      rw [conjunctsOnto, leftIh, rightIh, Connective.row, if_pos rfl, List.append_assoc]
  | _ => rfl

theorem disjunctsOnto_eq (expr : Filter) (others : List Filter) :
    disjunctsOnto expr others = Connective.disjunction.row expr ++ others := by
  induction expr generalizing others with
  | or left right leftIh rightIh =>
      rw [disjunctsOnto, leftIh, rightIh, Connective.row, if_pos rfl, List.append_assoc]
  | _ => rfl

variable {connective : Connective} {expr operand left right : Filter}

theorem operands_of_connective (root : expr.connective? = some connective) :
    operands expr = connective.row expr := by
  cases expr with
  | and left right =>
      cases root
      rw [operands, conjunctsOnto_eq, List.append_nil]
  | or left right =>
      cases root
      rw [operands, disjunctsOnto_eq, List.append_nil]
  | _ => cases root

theorem operands_of_no_connective (root : expr.connective? = none) : operands expr = [expr] := by
  cases expr <;> first | rfl | cases root

/-- The walk finds the operands of the row at the root. -/
theorem walked_eq_operands (expr : Filter) : walked expr = operands expr := by
  rw [walked]
  cases root : expr.connective? with
  | none => rw [operands_of_no_connective root]
  | some connective =>
      rw [operands_of_connective root]
      dsimp only
      rw [Connective.unstack_eq, List.nil_append, List.flatMap_singleton]

theorem sizeOf_lt_of_mem_walked (root : expr.connective? = some connective)
    (held : operand ∈ walked expr) : sizeOf operand < sizeOf expr := by
  obtain ⟨left, right, sides⟩ := Connective.exists_sides root
  rw [walked_eq_operands, operands_of_connective root, Connective.row_of_sides sides] at held
  rw [Connective.sizeOf_of_sides sides]
  rcases List.mem_append.mp held with inLeft | inRight
  · have := (Connective.of_mem_row inLeft).2
    omega
  · have := (Connective.of_mem_row inRight).2
    omega

/-! ## Evaluation by operands -/

/-- Whether a filter is satisfied, where a row is examined operand by operand. -/
def evalRows (scope : Scope) (resource : Json) : Filter → Except Failure Bool
  | .and left right =>
    (walked (.and left right)).attach.allM fun operand => evalRows scope resource operand.1
  | .or left right =>
    (walked (.or left right)).attach.anyM fun operand => evalRows scope resource operand.1
  | .not expr => return !(← evalRows scope resource expr)
  | .group expr => evalRows scope resource expr
  | .present path => return (← attributeValues resource path).any (·.hasValue)
  | .compare path op literal => evalCompare scope resource path op literal
  | .valuePath path expr => do
    let elements := (← attributeValues resource path).filter (·.isObj)
    elements.anyM fun element => evalRows (.within scope.schema path) element expr
termination_by expr => sizeOf expr
decreasing_by
  · exact sizeOf_lt_of_mem_walked rfl operand.2
  · exact sizeOf_lt_of_mem_walked rfl operand.2
  all_goals decreasing_tactic

mutual

/-- The canonical text of a filter, where a row is printed operand by operand. -/
def textRows : Filter → String
  | .compare path op value => pathTextRows path ++ " " ++ op.keyword ++ " " ++ value.compact
  | .present path => pathTextRows path ++ " pr"
  | .and left right =>
    " and ".intercalate ((walked (.and left right)).attach.map fun operand =>
      parenthesized operand.1.isOr (textRows operand.1))
  | .or left right =>
    " or ".intercalate ((walked (.or left right)).attach.map fun operand => textRows operand.1)
  | .not expr => "not " ++ parenthesized (expr.isAnd || expr.isOr) (textRows expr)
  | .group expr => "(" ++ textRows expr ++ ")"
  | .valuePath path expr => pathTextRows path ++ "[" ++ textRows expr ++ "]"
termination_by expr => sizeOf expr
decreasing_by
  · decreasing_tactic
  · decreasing_tactic
  · exact sizeOf_lt_of_mem_walked rfl operand.2
  · exact sizeOf_lt_of_mem_walked rfl operand.2
  all_goals decreasing_tactic

/-- The text of a path, with the rows of its restriction printed operand by operand. -/
def pathTextRows : PathOf Filter → String
  | ⟨uri, attr, restriction, sub⟩ =>
    let path : PathOf Unit := ⟨uri, attr, none, sub⟩
    path.head ++ (if attr.isNone then "" else
      match restriction with
      | none => ""
      | some expr => "[" ++ textRows expr ++ "]") ++ path.tail
termination_by path => sizeOf path

end

/-! ## Rows as wholes -/

namespace Connective

variable {α β : Type}

/-- The outcome of two filters joined by a connective. The second one counts only where the first
leaves the outcome open. -/
def both (connective : Connective) (first last : Except Failure Bool) : Except Failure Bool :=
  match connective with
  | conjunction => do if ← first then last else return false
  | disjunction => do if ← first then return true else last

/-- The outcome of items that are tested one after the other and joined by a connective. -/
def inTurn (connective : Connective) (test : α → Except Failure Bool) (items : List α) :
    Except Failure Bool :=
  match connective with
  | conjunction => items.allM test
  | disjunction => items.anyM test

theorem inTurn_cons (test : α → Except Failure Bool) (item : α) (rest : List α) :
    connective.inTurn test (item :: rest) =
      connective.both (test item) (connective.inTurn test rest) := by
  cases connective
  · exact List.allM_cons
  · exact List.anyM_cons

theorem inTurn_append (test : α → Except Failure Bool) (items others : List α) :
    connective.inTurn test (items ++ others) =
      connective.both (connective.inTurn test items) (connective.inTurn test others) := by
  induction items with
  | nil => cases connective <;> rfl
  | cons item rest ih =>
      rw [List.cons_append, inTurn_cons, inTurn_cons, ih]
      -- the connective is associative for each outcome of the first item, a failure included
      rcases test item with failure | outcome
      · cases connective <;> rfl
      · cases connective <;> cases outcome <;> rfl

theorem inTurn_singleton (test : α → Except Failure Bool) (item : α) :
    connective.inTurn test [item] = test item := by
  rw [inTurn_cons]
  rcases test item with failure | outcome
  · cases connective <;> rfl
  · cases connective <;> cases outcome <;> rfl

theorem inTurn_congr {test other : α → Except Failure Bool} {items : List α}
    (same : ∀ item ∈ items, test item = other item) :
    connective.inTurn test items = connective.inTurn other items := by
  induction items with
  | nil => cases connective <;> rfl
  | cons item rest ih =>
      obtain ⟨now, later⟩ := List.forall_mem_cons.mp same
      rw [inTurn_cons, inTurn_cons, now, ih later]

theorem inTurn_map (test : β → Except Failure Bool) (f : α → β) (items : List α) :
    connective.inTurn test (items.map f) = connective.inTurn (fun item => test (f item)) items := by
  induction items with
  | nil => cases connective <;> rfl
  | cons item rest ih => rw [List.map_cons, inTurn_cons, inTurn_cons, ih]

theorem inTurn_attach (test : α → Except Failure Bool) (items : List α) :
    connective.inTurn (fun item : {item // item ∈ items} => test item.1) items.attach =
      connective.inTurn test items := by
  rw [← inTurn_map test Subtype.val, List.attach_map_subtype_val]

variable {scope : Scope} {resource : Json}

theorem eval_of_sides (sides : connective.sides? expr = some (left, right)) :
    eval scope resource expr =
      connective.both (eval scope resource left) (eval scope resource right) := by
  obtain ⟨rfl, rfl⟩ | ⟨rfl, rfl⟩ := sides?_eq_some_iff.mp sides
  · rw [eval, both]
  · rw [eval, both]

/-- A filter comes out as the operands of its row do, one after the other. -/
theorem eval_row (connective : Connective) (scope : Scope) (resource : Json) (expr : Filter) :
    connective.inTurn (eval scope resource) (connective.row expr) = eval scope resource expr := by
  induction expr using connective.rowInduction with
  | node expr left right sides leftIh rightIh =>
      rw [row_of_sides sides, inTurn_append, leftIh, rightIh, eval_of_sides sides]
  | operand expr lacks => rw [row_of_no_sides lacks, inTurn_singleton]

/-! ## Text -/

/-- The word between the operands of a row. -/
def word : Connective → String
  | conjunction => " and "
  | disjunction => " or "

/-- The text of an operand of a row. A disjunction stands in parentheses in a conjunction. -/
def operandText (connective : Connective) (text : Filter → String) (expr : Filter) : String :=
  match connective with
  | conjunction => parenthesized expr.isOr (text expr)
  | disjunction => text expr

theorem operandText_of_sides (sides : connective.sides? expr = some (left, right)) :
    connective.operandText text expr = text expr := by
  obtain ⟨rfl, rfl⟩ | ⟨rfl, rfl⟩ := sides?_eq_some_iff.mp sides
  · rfl
  · rfl

theorem text_of_sides (sides : connective.sides? expr = some (left, right)) :
    text expr = connective.operandText text left ++ connective.word ++
      connective.operandText text right := by
  obtain ⟨rfl, rfl⟩ | ⟨rfl, rfl⟩ := sides?_eq_some_iff.mp sides
  · rw [text]; rfl
  · rw [text]; rfl

/-- A row is printed as its operands with the connective between them. -/
theorem text_row (connective : Connective) (expr : Filter) :
    connective.word.intercalate ((connective.row expr).map (connective.operandText text)) =
      connective.operandText text expr := by
  induction expr using connective.rowInduction with
  | node expr left right sides leftIh rightIh =>
      have nonempty (side : Filter) :
          (connective.row side).map (connective.operandText text) ≠ [] := by
        simpa using connective.row_ne_nil side
      rw [row_of_sides sides, List.map_append,
        String.intercalate_append_of_ne_nil (nonempty left) (nonempty right), leftIh, rightIh,
        operandText_of_sides sides, text_of_sides sides]
  | operand expr lacks =>
      rw [row_of_no_sides lacks, List.map_singleton, String.intercalate_singleton]

end Connective

/-! ## Row by row and side by side -/

open Connective

/-- What comes out operand by operand is the outcome of the row. -/
theorem inTurn_walked {test : Filter → Except Failure Bool} {scope : Scope} {resource : Json}
    (root : expr.connective? = some connective)
    (same : ∀ operand : {operand // operand ∈ walked expr},
      test operand.1 = eval scope resource operand.1) :
    connective.inTurn (fun operand : {operand // operand ∈ walked expr} => test operand.1)
      (walked expr).attach = eval scope resource expr := by
  rw [inTurn_attach, walked_eq_operands, operands_of_connective root, ← connective.eval_row]
  refine inTurn_congr fun operand held => same ⟨operand, ?_⟩
  rwa [walked_eq_operands, operands_of_connective root]

/-- Evaluating rows operand by operand is evaluating the two sides of each node. -/
theorem evalRows_eq (scope : Scope) (resource : Json) (expr : Filter) :
    evalRows scope resource expr = eval scope resource expr := by
  fun_induction evalRows scope resource expr with
  | case1 scope resource left right ih => exact inTurn_walked rfl ih
  | case2 scope resource left right ih => exact inTurn_walked rfl ih
  | case3 scope resource expr ih => rw [eval, ih]
  | case4 scope resource expr ih => rw [eval, ih]
  | case5 scope resource path => rw [eval]
  | case6 scope resource path op literal => rw [eval]
  | case7 scope resource path expr ih =>
      rw [eval]
      simp only [ih]

/-- What is printed operand by operand is the text of the row. -/
theorem intercalate_walked {print : Filter → String} (root : expr.connective? = some connective)
    (same : ∀ operand : {operand // operand ∈ walked expr}, print operand.1 = text operand.1) :
    connective.word.intercalate ((walked expr).attach.map fun operand =>
      connective.operandText print operand.1) = text expr := by
  obtain ⟨left, right, sides⟩ := exists_sides root
  have each : (walked expr).attach.map (fun operand => connective.operandText print operand.1) =
      (walked expr).map (connective.operandText text) := by
    rw [← List.attach_map_subtype_val (walked expr), List.map_map, List.attach_map_subtype_val]
    refine List.map_congr_left fun operand _ => ?_
    cases connective with
    | conjunction => exact congrArg (parenthesized _) (same operand)
    | disjunction => exact same operand
  rw [each, walked_eq_operands, operands_of_connective root, text_row,
    operandText_of_sides sides]

mutual

/-- Printing rows operand by operand is printing the two sides of each node. -/
theorem textRows_eq (expr : Filter) : textRows expr = text expr := by
  cases expr with
  | compare path op value => rw [textRows, text, pathTextRows_eq]
  | present path => rw [textRows, text, pathTextRows_eq]
  | and left right =>
      have root : (Filter.and left right).connective? = some .conjunction := rfl
      rw [textRows]
      exact intercalate_walked root fun operand => textRows_eq operand.1
  | or left right =>
      have root : (Filter.or left right).connective? = some .disjunction := rfl
      rw [textRows]
      exact intercalate_walked root fun operand => textRows_eq operand.1
  | not expr => rw [textRows, text, textRows_eq]
  | group expr => rw [textRows, text, textRows_eq]
  | valuePath path expr => rw [textRows, text, textRows_eq, pathTextRows_eq]
termination_by sizeOf expr
decreasing_by
  all_goals first | exact sizeOf_lt_of_mem_walked rfl operand.2 | decreasing_tactic

theorem pathTextRows_eq (path : AttributePath) : pathTextRows path = pathText path := by
  obtain ⟨uri, attr, restriction, sub⟩ := path
  cases restriction with
  | none => rw [pathTextRows, pathText, restrictionText]
  | some expr => rw [pathTextRows, pathText, restrictionText, textRows_eq expr]
termination_by sizeOf path

end

/-! ## Grouping does not matter -/

/-- Filters that differ in how their rows are grouped, anywhere in them. -/
inductive Regrouped : Filter → Filter → Prop
  | row {expr other : Filter} (root : expr.connective? = other.connective?)
      (same : operands expr = operands other) : Regrouped expr other
  | symm {expr other : Filter} (regrouped : Regrouped expr other) : Regrouped other expr
  | trans {expr other third : Filter} (regrouped : Regrouped expr other)
      (further : Regrouped other third) : Regrouped expr third
  | and {left right otherLeft otherRight : Filter} (first : Regrouped left otherLeft)
      (last : Regrouped right otherRight) :
      Regrouped (.and left right) (.and otherLeft otherRight)
  | or {left right otherLeft otherRight : Filter} (first : Regrouped left otherLeft)
      (last : Regrouped right otherRight) :
      Regrouped (.or left right) (.or otherLeft otherRight)
  | not {expr other : Filter} (inside : Regrouped expr other) : Regrouped (.not expr) (.not other)
  | group {expr other : Filter} (inside : Regrouped expr other) :
      Regrouped (.group expr) (.group other)
  | valuePath {expr other : Filter} (path : AttributePath) (inside : Regrouped expr other) :
      Regrouped (.valuePath path expr) (.valuePath path other)
  | inCompare {expr other : Filter} (uri attr sub : Option String) (op : CompareOp) (value : Json)
      (inside : Regrouped expr other) :
      Regrouped (.compare ⟨uri, attr, some expr, sub⟩ op value)
        (.compare ⟨uri, attr, some other, sub⟩ op value)
  | inPresent {expr other : Filter} (uri attr sub : Option String)
      (inside : Regrouped expr other) :
      Regrouped (.present ⟨uri, attr, some expr, sub⟩) (.present ⟨uri, attr, some other, sub⟩)
  | inValuePath {expr other : Filter} (uri attr sub : Option String) (bracketed : Filter)
      (inside : Regrouped expr other) :
      Regrouped (.valuePath ⟨uri, attr, some expr, sub⟩ bracketed)
        (.valuePath ⟨uri, attr, some other, sub⟩ bracketed)

variable {other : Filter}

theorem isAnd_eq_of_connective (root : expr.connective? = other.connective?) :
    expr.isAnd = other.isAnd ∧ expr.isOr = other.isOr := by
  cases expr <;> cases other <;> first | exact ⟨rfl, rfl⟩ | cases root

theorem eval_eq_of_operands (root : expr.connective? = other.connective?)
    (same : operands expr = operands other) (scope : Scope) (resource : Json) :
    eval scope resource expr = eval scope resource other := by
  cases exprRoot : expr.connective? with
  | none =>
      rw [operands_of_no_connective exprRoot, operands_of_no_connective (root ▸ exprRoot)] at same
      cases same
      rfl
  | some connective =>
      rw [operands_of_connective exprRoot, operands_of_connective (root ▸ exprRoot)] at same
      rw [← connective.eval_row, same, connective.eval_row]

theorem text_eq_of_operands (root : expr.connective? = other.connective?)
    (same : operands expr = operands other) : text expr = text other := by
  cases exprRoot : expr.connective? with
  | none =>
      rw [operands_of_no_connective exprRoot, operands_of_no_connective (root ▸ exprRoot)] at same
      cases same
      rfl
  | some connective =>
      have otherRoot : other.connective? = some connective := root ▸ exprRoot
      rw [operands_of_connective exprRoot, operands_of_connective otherRoot] at same
      obtain ⟨_, _, sides⟩ := exists_sides exprRoot
      obtain ⟨_, _, otherSides⟩ := exists_sides otherRoot
      rw [← operandText_of_sides sides, ← operandText_of_sides otherSides, ← text_row, same,
        text_row]

namespace Regrouped

theorem refl (expr : Filter) : Regrouped expr expr := .row rfl rfl

theorem connective?_eq (regrouped : Regrouped expr other) :
    expr.connective? = other.connective? := by
  induction regrouped with
  | row root _ => exact root
  | symm _ ih => exact ih.symm
  | trans _ _ ih further => exact ih.trans further
  | _ => rfl

theorem eval_eq (regrouped : Regrouped expr other) (scope : Scope) (resource : Json) :
    eval scope resource expr = eval scope resource other := by
  induction regrouped generalizing scope resource with
  | row root same => exact eval_eq_of_operands root same scope resource
  | symm _ ih => exact (ih scope resource).symm
  | trans _ _ ih further => exact (ih scope resource).trans (further scope resource)
  | and _ _ first last => rw [eval, eval, first, last]
  | or _ _ first last => rw [eval, eval, first, last]
  | not _ ih => rw [eval, eval, ih]
  | group _ ih => rw [eval, eval, ih]
  | valuePath path _ ih =>
      rw [eval, eval]
      simp only [ih]
  -- evaluation passes over the restriction of a path
  | inCompare => rfl
  | inPresent => rfl
  | inValuePath => rfl

theorem text_eq (regrouped : Regrouped expr other) : text expr = text other := by
  induction regrouped with
  | row root same => exact text_eq_of_operands root same
  | symm _ ih => exact ih.symm
  | trans _ _ ih further => exact ih.trans further
  | and left right first last =>
      rw [text, text, first, last, (isAnd_eq_of_connective left.connective?_eq).2,
        (isAnd_eq_of_connective right.connective?_eq).2]
  | or _ _ first last => rw [text, text, first, last]
  | not inside ih =>
      obtain ⟨isAnd, isOr⟩ := isAnd_eq_of_connective inside.connective?_eq
      rw [text, text, ih, isAnd, isOr]
  | group _ ih => rw [text, text, ih]
  | valuePath path _ ih => rw [text, text, ih]
  | inCompare uri attr sub op value _ ih =>
      rw [text, text, pathText, pathText, restrictionText, restrictionText, ih]
  | inPresent uri attr sub _ ih =>
      rw [text, text, pathText, pathText, restrictionText, restrictionText, ih]
  | inValuePath uri attr sub bracketed _ ih =>
      rw [text, text, pathText, pathText, restrictionText, restrictionText, ih]

theorem and_assoc (first second third : Filter) :
    Regrouped (.and (.and first second) third) (.and first (.and second third)) :=
  .row rfl rfl

theorem or_assoc (first second third : Filter) :
    Regrouped (.or (.or first second) third) (.or first (.or second third)) :=
  .row rfl rfl

end Regrouped

/-- The operands that are taken off with a stack are those of the whole row at the root, in order.
Evaluating and printing a filter by them is evaluating and printing the two sides of each node, and
neither depends on how rows are grouped. -/
theorem operands_in_rows :
    (∀ expr, walked expr = operands expr) ∧
    (∀ expr connective, expr.connective? = some connective →
      operands expr = connective.row expr ∧
        ∀ operand ∈ operands expr, operand.connective? ≠ some connective) ∧
    (∀ expr, expr.connective? = none → operands expr = [expr]) ∧
    (∀ scope resource left right,
      evalRows scope resource (.and left right) =
          (do if ← evalRows scope resource left then evalRows scope resource right
              else return false) ∧
        evalRows scope resource (.or left right) =
          (do if ← evalRows scope resource left then return true
              else evalRows scope resource right)) ∧
    (∀ scope resource expr, evalRows scope resource expr = eval scope resource expr) ∧
    (∀ expr, textRows expr = text expr) ∧
    ∀ expr other, Regrouped expr other →
      (∀ resource schema, expr.holds resource schema = other.holds resource schema) ∧
        expr.text = other.text := by
  refine ⟨walked_eq_operands, fun expr connective root => ?_, fun _ => operands_of_no_connective,
    fun scope resource left right => ?_, evalRows_eq, textRows_eq, fun expr other regrouped => ?_⟩
  · refine ⟨operands_of_connective root, fun operand held same => ?_⟩
    rw [operands_of_connective root] at held
    obtain ⟨_, _, sides⟩ := exists_sides same
    rw [(of_mem_row held).1] at sides
    cases sides
  · simp only [evalRows_eq]
    exact ⟨by rw [eval], by rw [eval]⟩
  · exact ⟨fun resource schema => regrouped.eval_eq (.top schema) resource, regrouped.text_eq⟩

/-- A row of three, with its last two operands grouped or its first two. -/
theorem operands_in_rows_three :
    let present (attr : String) : Filter := .present (.plain attr)
    let left : Filter := .or (.or (present "a") (present "b")) (present "c")
    let right : Filter := .or (present "a") (.or (present "b") (present "c"))
    Regrouped left right ∧
      (∀ resource schema, left.holds resource schema = right.holds resource schema) ∧
      left.text = right.text := by
  intro present left right
  have regrouped : Regrouped left right := Regrouped.or_assoc _ _ _
  exact ⟨regrouped, operands_in_rows.2.2.2.2.2.2 left right regrouped⟩

end Scim.Filter
