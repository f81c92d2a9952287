import Scim.Filter.Evaluation
import Scim.Proofs.Filter.Paths

/-!
# The tree that the text of a filter describes

The text of a filter does not show how rows of equal connectives are nested, and it has
parentheses where the tree may have none.  The canonical tree has rows that combine from
the left and a group for every pair of parentheses.  It is true where the filter is.
-/

namespace Scim

/-! ## Expressible filters -/

/-- A path that can be read in a filter: it is read from a word, names an attribute, and
is not the word for a negation. -/
structure PathOf.Readable (path : AttributePath) : Prop where
  fromWord : path.FromWord
  hasAttr : path.attr.isSome
  notReserved : path.uri = none → path.sub = none →
    ∀ attr, path.attr = some attr → Text.lower attr ≠ "not"

/-- A literal that can be read in a filter: a scalar, but no integer of too many digits
and no double whose text is read as another one. -/
def Json.Readable : Json → Prop
  | .null | .bool _ | .str _ => True
  | .int n => (Nat.toDigits 10 n.natAbs).length ≤ Number.maxIntegerDigits
  | .double (.finite x) => Number.readDouble? x.text = some (.finite x)
  | _ => False

namespace Filter

/-- Induction over the nodes of a filter, which does not enter the paths. -/
@[elab_as_elim, induction_eliminator]
theorem nodeInduction {motive : Filter → Prop}
    (compare : ∀ path op value, motive (.compare path op value))
    (present : ∀ path, motive (.present path))
    (and : ∀ left right, motive left → motive right → motive (.and left right))
    (or : ∀ left right, motive left → motive right → motive (.or left right))
    (not : ∀ expr, motive expr → motive (.not expr))
    (group : ∀ expr, motive expr → motive (.group expr))
    (valuePath : ∀ path expr, motive expr → motive (.valuePath path expr)) :
    ∀ expr, motive expr
  | .compare path op value => compare path op value
  | .present path => present path
  | .and left right =>
    and left right (nodeInduction compare present and or not group valuePath left)
      (nodeInduction compare present and or not group valuePath right)
  | .or left right =>
    or left right (nodeInduction compare present and or not group valuePath left)
      (nodeInduction compare present and or not group valuePath right)
  | .not expr => not expr (nodeInduction compare present and or not group valuePath expr)
  | .group expr => group expr (nodeInduction compare present and or not group valuePath expr)
  | .valuePath path expr =>
    valuePath path expr (nodeInduction compare present and or not group valuePath expr)

/-- Filters that have a text, inside brackets or outside: their paths and literals can be
read, and brackets stand behind an attribute and hold no further brackets. -/
def Expressible (bracketed : Bool) : Filter → Prop
  | .compare path _ value => path.Readable ∧ value.Readable
  | .present path => path.Readable
  | .and left right | .or left right => Expressible bracketed left ∧ Expressible bracketed right
  | .not expr | .group expr => Expressible bracketed expr
  | .valuePath path expr =>
    bracketed = false ∧ path.Readable ∧ path.sub = none ∧ Expressible true expr

/-! ## Canonical trees -/

/-- A filter, in a group if the condition holds. -/
def grouped (condition : Bool) (expr : Filter) : Filter :=
  if condition then .group expr else expr

/-- Two rows of conjunctions as one that combines from the left. -/
def conjoin (left : Filter) : Filter → Filter
  | .and first last => .and (conjoin left first) last
  | expr => .and left expr

/-- Two rows of disjunctions as one that combines from the left. -/
def disjoin (left : Filter) : Filter → Filter
  | .or first last => .or (disjoin left first) last
  | expr => .or left expr

theorem conjoin_operand (left : Filter) {right : Filter} (notAnd : right.isAnd = false) :
    conjoin left right = .and left right := by
  cases right with
  | and => cases notAnd
  | _ => rfl

theorem disjoin_conjunction (left : Filter) {right : Filter} (notOr : right.isOr = false) :
    disjoin left right = .or left right := by
  cases right with
  | or => cases notOr
  | _ => rfl

/-- The tree that the text of a filter describes. -/
def canonical : Filter → Filter
  | .and left right =>
    conjoin (grouped left.isOr (canonical left)) (grouped right.isOr (canonical right))
  | .or left right => disjoin (canonical left) (canonical right)
  | .not expr => .not (grouped (expr.isAnd || expr.isOr) (canonical expr))
  | .group expr => .group (canonical expr)
  | .valuePath path expr => .valuePath path (canonical expr)
  | expr => expr

/-- How deep a canonical tree nests: a negation counts one level, parentheses and
brackets count two. -/
def nesting : Filter → Nat
  | .compare _ _ _ | .present _ => 1
  | .and left right | .or left right => max (nesting left) (nesting right)
  | .not expr => nesting expr + 1
  | .group expr | .valuePath _ expr => nesting expr + 2

/-! ## Evaluation -/

section

variable (scope : Scope) (resource : Json)

end

/-! ## Lexemes -/

open Token (Lexeme Yields Closed IsWord)

/-- The lexeme of a literal. -/
def literalLexeme (value : Json) : Lexeme :=
  match value with
  | .str _ => (.string, value.compact)
  | .int _ | .double _ => (.number, value.compact)
  | _ => (.word, value.compact)

/-- Lexemes, in parentheses if the condition holds. -/
def parenthesizedLexemes (condition : Bool) (lexemes : List Lexeme) : List Lexeme :=
  if condition then (.lparen, "(") :: (lexemes ++ [(.rparen, ")")]) else lexemes

/-- The lexemes of a filter. -/
def lexemes : Filter → List Lexeme
  | .compare path op value =>
    [(.word, pathText path), (.word, op.keyword), literalLexeme value]
  | .present path => [(.word, pathText path), (.word, "pr")]
  | .and left right =>
    parenthesizedLexemes left.isOr (lexemes left) ++ (.word, "and") ::
      parenthesizedLexemes right.isOr (lexemes right)
  | .or left right => lexemes left ++ (.word, "or") :: lexemes right
  | .not expr => (.word, "not") :: parenthesizedLexemes (expr.isAnd || expr.isOr) (lexemes expr)
  | .group expr => (.lparen, "(") :: (lexemes expr ++ [(.rparen, ")")])
  | .valuePath path expr =>
    (.word, pathText path) :: (.lbracket, "[") :: (lexemes expr ++ [(.rbracket, "]")])

end Filter

/-! ## Words of paths -/

open Token (Yields IsWord)

/-- A character that ends no name does not occur in the word for a negation. -/
theorem Text.lower_ne_not {word : String} (held : ':' ∈ word.toList ∨ '.' ∈ word.toList) :
    lower word ≠ "not" := by
  intro same
  cases held with
  | inl colon =>
      have kept := mem_lower (c := ':') (by decide) (by decide) colon
      rw [same] at kept
      exact absurd kept (by decide)
  | inr point =>
      have kept := mem_lower (c := '.') (by decide) (by decide) point
      rw [same] at kept
      exact absurd kept (by decide)

/-- The text of a readable path is the word that the path is read from. -/
structure PathOf.WordOf (path : AttributePath) (word : String) : Prop where
  text : Filter.pathText path = word
  isWord : IsWord word
  split : PathOf.split? word = some path

/-- The text of a path that is read from a word is that word. -/
theorem PathOf.FromWord.wordOf {path : AttributePath} (fromWord : path.FromWord) :
    path.WordOf (Filter.pathText path) := by
  obtain ⟨word, isWord, split⟩ := fromWord
  have text : Filter.pathText path = word := by
    obtain rfl | ⟨uri, attr, sub, rfl, names⟩ := split?_cases isWord split
    · simp [Filter.pathText, head, tail]
    · have joined := names.head_tail (φ := Unit) isWord
      simpa [Filter.pathText, Filter.restrictionText] using joined
  rw [text]
  exact ⟨text, isWord, split⟩

theorem PathOf.Readable.lower_ne {path : AttributePath} (readable : path.Readable) :
    Text.lower (Filter.pathText path) ≠ "not" := by
  obtain ⟨_, isWord, split⟩ := readable.fromWord.wordOf
  generalize Filter.pathText path = word at isWord split
  obtain rfl | ⟨uri, attr, sub, rfl, names⟩ := split?_cases isWord split
  · exact absurd readable.hasAttr Bool.false_ne_true
  · by_cases prefixed : uri = none
    · by_cases dotted : sub = none
      · rw [← names.bare prefixed dotted]
        exact readable.notReserved prefixed dotted attr rfl
      · exact Text.lower_ne_not (.inr (names.point dotted))
    · exact Text.lower_ne_not (.inl (names.colon prefixed))

namespace Filter

open Token (Closed)

/-! ## Cutting the text -/

theorem isWord_keyword (op : CompareOp) : IsWord op.keyword := by
  cases op <;> decide

theorem yields_literal {value : Json} (readable : value.Readable) :
    Yields value.compact.toList [literalLexeme value] := by
  cases value with
  | null => exact Yields.word (show IsWord "null" by decide)
  | bool b =>
      cases b with
      | true => exact Yields.word (show IsWord "true" by decide)
      | false => exact Yields.word (show IsWord "false" by decide)
  | int n => exact .int n
  | double d =>
      cases d with
      | finite x => exact .double x
      | infinite => cases readable
      | nan => cases readable
  | str s => exact .string s
  | arr => cases readable
  | obj => cases readable

theorem yields_parenthesized (condition : Bool) {text : String} {lexemes : List Token.Lexeme}
    (yields : Yields text.toList lexemes) :
    Yields (parenthesized condition text).toList (parenthesizedLexemes condition lexemes) := by
  cases condition with
  | false => exact yields
  | true =>
      have closing := Yields.nil.rparen
      have whole := (yields.append closing rfl).lparen
      simpa [parenthesized, parenthesizedLexemes] using whole

/-- A keyword between blanks. -/
theorem yields_between {left right : List Char} {leftLexemes rightLexemes : List Token.Lexeme}
    {keyword : String} (isWord : IsWord keyword) (leftYields : Yields left leftLexemes)
    (rightYields : Yields right rightLexemes) :
    Yields (left ++ ' ' :: (keyword.toList ++ ' ' :: right))
      (leftLexemes ++ (.word, keyword) :: rightLexemes) :=
  leftYields.append ((Yields.word isWord).append rightYields.blank rfl).blank rfl

theorem yields_compare {path : AttributePath} (fromWord : path.FromWord) (op : CompareOp)
    {value : Json} (valueYields : Yields value.compact.toList [literalLexeme value]) :
    Yields (compare path op value).text.toList (compare path op value).lexemes := by
  have pathYields := Yields.word fromWord.wordOf.isWord
  have yields := yields_between (isWord_keyword op) pathYields valueYields
  simpa [text, lexemes] using yields

/-- The text of a filter is cut into its lexemes. -/
theorem yields_text {bracketed : Bool} {expr : Filter} (expressible : expr.Expressible bracketed) :
    Yields expr.text.toList expr.lexemes := by
  induction expr generalizing bracketed with
  | compare path op value =>
      exact yields_compare expressible.1.fromWord op (yields_literal expressible.2)
  | present path =>
      have pathYields := Yields.word expressible.fromWord.wordOf.isWord
      have keyword : Yields "pr".toList [(.word, "pr")] := .word (by decide)
      have yields := pathYields.append keyword.blank rfl
      simpa [text, lexemes] using yields
  | and left right leftIh rightIh =>
      have yields := yields_between (show IsWord "and" by decide)
        (yields_parenthesized left.isOr (leftIh expressible.1))
        (yields_parenthesized right.isOr (rightIh expressible.2))
      simpa [text, lexemes] using yields
  | or left right leftIh rightIh =>
      have yields := yields_between (show IsWord "or" by decide) (leftIh expressible.1)
        (rightIh expressible.2)
      simpa [text, lexemes] using yields
  | not expr ih =>
      have keyword : Yields "not".toList [(.word, "not")] := .word (by decide)
      have operand := yields_parenthesized (expr.isAnd || expr.isOr) (ih expressible)
      have yields := keyword.append operand.blank rfl
      simpa [text, lexemes] using yields
  | group expr ih =>
      have yields := ((ih expressible).append Yields.nil.rparen rfl).lparen
      simpa [text, lexemes] using yields
  | valuePath path expr ih =>
      obtain ⟨_, readable, _, inner⟩ := expressible
      have pathYields := Yields.word readable.fromWord.wordOf.isWord
      have brackets := ((ih inner).append Yields.nil.rbracket rfl).lbracket
      have yields := pathYields.append brackets rfl
      simpa [text, lexemes] using yields

end Filter

end Scim
