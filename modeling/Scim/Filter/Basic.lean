import Scim.Json.Equality

/-!
# Filter trees

A filter compares attributes of a resource with literals, combined by connectives. A path names an
attribute, optionally of an extension, and optionally one of its sub-attributes; in a change request
it may also restrict the elements of a list by a filter of its own.
-/

namespace Scim

/-- The operators that compare an attribute with a literal. -/
inductive CompareOp where
  | eq | ne | co | sw | ew | gt | ge | lt | le
  deriving DecidableEq

namespace CompareOp

/-- The keyword of an operator. -/
def keyword : CompareOp → String
  | .eq => "eq"
  | .ne => "ne"
  | .co => "co"
  | .sw => "sw"
  | .ew => "ew"
  | .gt => "gt"
  | .ge => "ge"
  | .lt => "lt"
  | .le => "le"

/-- All operators. -/
def all : List CompareOp := [.eq, .ne, .co, .sw, .ew, .gt, .ge, .lt, .le]

/-- The operator of a keyword in lower case. -/
def ofKeyword? (word : String) : Option CompareOp := all.find? (·.keyword = word)

theorem ofKeyword?_keyword (op : CompareOp) : ofKeyword? op.keyword = some op := by
  cases op <;> decide

end CompareOp

/-- A path with a restriction of type `φ`. The attribute is absent only in a path that names a whole
extension by its URN. -/
structure PathOf (φ : Type) where
  uri : Option String
  attr : Option String
  restriction : Option φ
  sub : Option String
  deriving Inhabited

/-- A filter. -/
inductive Filter where
  /-- An attribute compared with a literal. -/
  | compare (path : PathOf Filter) (op : CompareOp) (value : Json)
  /-- An attribute that has a value. -/
  | present (path : PathOf Filter)
  | and (left right : Filter)
  | or (left right : Filter)
  | not (expr : Filter)
  /-- A filter in parentheses. -/
  | group (expr : Filter)
  /-- A list of which some element satisfies a filter. -/
  | valuePath (path : PathOf Filter) (expr : Filter)
  deriving Inhabited

/-- A path to an attribute. -/
abbrev AttributePath := PathOf Filter

namespace PathOf

/-- The path of an attribute without a prefix. -/
def plain {φ : Type} (attr : String) : PathOf φ := ⟨none, some attr, none, none⟩

/-- A path without its restriction and sub-attribute. -/
def whole {φ : Type} (path : PathOf φ) : PathOf φ := ⟨path.uri, path.attr, none, none⟩

end PathOf

namespace Filter

/-- The operands of a run of conjunctions, from left to right, in front of some others. -/
def conjunctsOnto : Filter → List Filter → List Filter
  | .and left right, others => conjunctsOnto left (conjunctsOnto right others)
  | expr, others => expr :: others

/-- The operands of a run of disjunctions, from left to right, in front of some others. -/
def disjunctsOnto : Filter → List Filter → List Filter
  | .or left right, others => disjunctsOnto left (disjunctsOnto right others)
  | expr, others => expr :: others

/-- The operands of the run of equal connectives at the root of a filter, from left to right. Any
other filter is its own single operand. -/
def operands (expr : Filter) : List Filter :=
  match expr with
  | .and _ _ => conjunctsOnto expr []
  | .or _ _ => disjunctsOnto expr []
  | _ => [expr]

/-- Whether the root is a conjunction. -/
def isAnd : Filter → Bool
  | .and _ _ => true
  | _ => false

/-- Whether the root is a disjunction. -/
def isOr : Filter → Bool
  | .or _ _ => true
  | _ => false

mutual

/-- Whether two filters are the same tree, with literals compared as data. -/
def same : Filter → Filter → Bool
  | .compare p op v, .compare q oq w => samePath p q && op == oq && v.same w
  | .present p, .present q => samePath p q
  | .and a b, .and c d => same a c && same b d
  | .or a b, .or c d => same a c && same b d
  | .not a, .not b => same a b
  | .group a, .group b => same a b
  | .valuePath p a, .valuePath q b => samePath p q && same a b
  | _, _ => false

/-- Whether two paths are the same. -/
def samePath : PathOf Filter → PathOf Filter → Bool
  | ⟨uri, attr, restriction, sub⟩, q =>
    uri == q.uri && attr == q.attr && sub == q.sub && sameRestriction restriction q.restriction

/-- Whether two restrictions are the same. -/
def sameRestriction : Option Filter → Option Filter → Bool
  | none, none => true
  | some a, some b => same a b
  | _, _ => false

end

end Filter

end Scim
