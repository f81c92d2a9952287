import Scim.Proofs.Filter.Reading

/-!
# The text of a filter keeps its meaning

The text of an expressible filter reads back as its canonical tree, which is true where
the filter is.  What is not expressible need not read back: a URN by itself is a path
but no attribute, and an integer may have too many digits.
-/

namespace Scim.Filter

open Token (Lexeme lexeme)

/-! ## Literals -/

/-- The text of a readable literal is a literal with its value. -/
theorem literal_literalLexeme {value : Json} (readable : value.Readable) :
    Literal (literalLexeme value) value := by
  cases value with
  | null => exact .null (by decide)
  | bool b =>
      refine .bool b ?_
      cases b <;> decide
  | int n =>
      have isLiteral := Literal.integer (Number.isNumeral_toString n)
      rwa [Number.digitsValue_natAbs] at isLiteral
  | double d =>
      cases d with
      | finite x =>
          obtain ⟨whole, fraction, exponent, power, parts, numeral⟩ := x.isNumeral_text
          have value := numeral.readDouble? parts.reads
          rw [show Number.readDouble? x.text = some (.finite x) from readable] at value
          have isLiteral := Literal.double numeral parts.notInteger parts.reads
          rw [← Option.some.inj value] at isLiteral
          exact isLiteral
      | infinite => cases readable
      | nan => cases readable
  | str s => exact .string (Json.read_stringText s)
  | arr => cases readable
  | obj => cases readable

/-- A readable literal is no integer of too many digits. -/
theorem not_tooLong_literalLexeme {value : Json} (readable : value.Readable) :
    ¬ TooLong (literalLexeme value) := by
  intro tooLong
  cases value with
  | int n =>
      have unread : numberValue? (toString n) = none := tooLong.numberValue?
      rw [numberValue?_numeral (Number.isNumeral_toString n), if_pos ⟨rfl, rfl⟩,
        Number.readInt?_toString, if_neg (Nat.not_lt.mpr readable)] at unread
      cases unread
  | double d =>
      cases d with
      | finite x =>
          have unread : numberValue? x.text = none := tooLong.numberValue?
          obtain ⟨whole, fraction, exponent, power, parts, numeral⟩ := x.isNumeral_text
          rw [numberValue?_numeral numeral,
            if_neg (Decidable.not_and_iff_or_not.mpr parts.notInteger),
            show Number.readDouble? x.text = some (.finite x) from readable] at unread
          cases unread
      | _ => cases readable
  | arr | obj => cases readable
  | _ => cases tooLong.1

/-! ## Reading back -/

/-- What the grammar makes of the lexemes of a filter, as a whole and as an operand. -/
structure Derived (bracketed : Bool) (expr : Filter) : Prop where
  disjunction : Phrase .disjunction bracketed expr.lexemes expr.canonical
  conjunction : expr.isOr = false → Phrase .conjunction bracketed expr.lexemes expr.canonical
  operand : expr.isAnd = false → expr.isOr = false →
    Phrase .operand bracketed expr.lexemes expr.canonical

theorem Derived.of_operand {bracketed : Bool} {expr : Filter}
    (operand : Phrase .operand bracketed expr.lexemes expr.canonical) :
    Derived bracketed expr where
  disjunction := .conjunction (.operand operand)
  conjunction _ := .operand operand
  operand _ _ := operand

/-- A part of a conjunction has parentheses if it is a disjunction. -/
theorem Derived.conjunct {bracketed : Bool} {expr : Filter} (derived : Derived bracketed expr) :
    Phrase .conjunction bracketed (parenthesizedLexemes expr.isOr expr.lexemes)
      (grouped expr.isOr expr.canonical) := by
  cases isOr : expr.isOr with
  | true => exact .operand (.group derived.disjunction)
  | false => exact derived.conjunction isOr

/-- What is negated has parentheses if it is a conjunction or a disjunction. -/
theorem Derived.negated {bracketed : Bool} {expr : Filter} (derived : Derived bracketed expr) :
    Phrase .operand bracketed (parenthesizedLexemes (expr.isAnd || expr.isOr) expr.lexemes)
      (grouped (expr.isAnd || expr.isOr) expr.canonical) := by
  cases wrapped : expr.isAnd || expr.isOr with
  | true => exact .group derived.disjunction
  | false =>
      rw [Bool.or_eq_false_iff] at wrapped
      exact derived.operand wrapped.1 wrapped.2

/-- The lexemes of an expressible filter are those of its canonical tree. -/
theorem derived {bracketed : Bool} {expr : Filter} (expressible : expr.Expressible bracketed) :
    Derived bracketed expr := by
  induction expr generalizing bracketed with
  | compare path op value =>
      exact .of_operand (.compare (.of_readable expressible.1) op (by cases op <;> decide)
        (literal_literalLexeme expressible.2))
  | present path => exact .of_operand (.present (.of_readable expressible) (by decide))
  | and left right leftIh rightIh =>
      have row := (leftIh expressible.1).conjunct.conjoin (rightIh expressible.2).conjunct
      refine ⟨.conjunction row, fun _ => row, ?_⟩
      intro notAnd
      cases notAnd
  | or left right leftIh rightIh =>
      have row := (leftIh expressible.1).disjunction.disjoin (rightIh expressible.2).disjunction
      refine ⟨row, ?_, ?_⟩
      · intro notOr
        cases notOr
      · intro _ notOr
        cases notOr
  | not expr ih => exact .of_operand (.not (by decide) (ih expressible).negated)
  | group expr ih => exact .of_operand (.group (ih expressible).disjunction)
  | valuePath path expr ih =>
      obtain ⟨rfl, readable, noSub, inner⟩ := expressible
      exact .of_operand (.valuePath (.of_readable readable) noSub (ih inner).disjunction)

theorem short_parenthesized {lexemes : List Lexeme} (short : Short lexemes) (condition : Bool) :
    Short (parenthesizedLexemes condition lexemes) := by
  cases condition with
  | false => exact short
  | true =>
      exact short_cons.mpr ⟨not_tooLong (by simp) "(",
        short_append.mpr ⟨short, short_singleton.mpr (not_tooLong (by simp) ")")⟩⟩

/-- No integer of an expressible filter has too many digits. -/
theorem short_lexemes {bracketed : Bool} {expr : Filter}
    (expressible : expr.Expressible bracketed) : Short expr.lexemes := by
  have word {text : String} {others : List Lexeme} (short : Short others) :
      Short ((.word, text) :: others) := short_cons.mpr ⟨not_tooLong_word text, short⟩
  induction expr generalizing bracketed with
  | compare path op value =>
      exact word (word (short_singleton.mpr (not_tooLong_literalLexeme expressible.2)))
  | present path => exact word (short_singleton.mpr (not_tooLong_word "pr"))
  | and left right leftIh rightIh =>
      exact short_append.mpr ⟨short_parenthesized (leftIh expressible.1) left.isOr,
        word (short_parenthesized (rightIh expressible.2) right.isOr)⟩
  | or left right leftIh rightIh =>
      exact short_append.mpr ⟨leftIh expressible.1, word (rightIh expressible.2)⟩
  | not expr ih => exact word (short_parenthesized (ih expressible) _)
  | group expr ih => exact short_parenthesized (ih expressible) true
  | valuePath path expr ih =>
      refine word (short_cons.mpr ⟨not_tooLong (by simp) "[", ?_⟩)
      exact short_append.mpr
        ⟨ih expressible.2.2.2, short_singleton.mpr (not_tooLong (by simp) "]")⟩

/-- The text of a filter reads back as its canonical tree. -/
theorem read_text {expr : Filter} (expressible : expr.Expressible false)
    (shallow : expr.canonical.nesting < maxNesting) : read expr.text = .ok expr.canonical := by
  obtain ⟨tokens, last, cut, tokensEq, ends⟩ := (yields_text expressible).tokenize
  have phrase := (derived expressible).disjunction
  have short := short_lexemes expressible
  rw [← tokensEq] at phrase short
  exact read_of_phrase cut ends phrase short shallow

/-- A filter whose text has a row under a negation, a disjunction under a conjunction,
brackets, an extension and every kind of literal. -/
def sample : Filter :=
  .and (.not (.or (.compare (.plain "a") .eq (.str "x\n\"y")) (.present (.plain "b"))))
    (.or (.valuePath (.plain "emails") (.and (.compare (.plain "n") .gt (.int (-7)))
        (.and (.compare (.plain "t") .ne .null) (.compare (.plain "p") .eq (.bool true)))))
      (.compare ⟨some enterpriseUserUrn, some "manager", none, some "value"⟩ .le
        (.double (.finite ⟨false, 6755399441055744, -52, by decide⟩))))

theorem expressible_sample : sample.Expressible false := by
  have plain {attr : String} (isWord : Token.IsWord attr)
      (split : (PathOf.split? attr : Option AttributePath) = some (.plain attr))
      (notReserved : Text.lower attr ≠ "not") : (.plain attr : AttributePath).Readable :=
    ⟨⟨attr, isWord, split⟩, rfl, fun _ _ _ same => Option.some.inj same ▸ notReserved⟩
  have manager : (⟨some enterpriseUserUrn, some "manager", none, some "value"⟩ :
      AttributePath).Readable :=
    ⟨⟨enterpriseUserUrn ++ ":manager.value", by decide +kernel, rfl⟩, rfl, by simp⟩
  have seven : (Json.int (-7)).Readable :=
    show (Nat.toDigits 10 7).length ≤ Number.maxIntegerDigits by decide
  have half : (Json.double (.finite ⟨false, 6755399441055744, -52, by decide⟩)).Readable :=
    show Number.readDouble? (Number.Finite.text _) = some _ by decide +kernel
  refine ⟨⟨⟨plain ?_ rfl ?_, trivial⟩, plain ?_ rfl ?_⟩, ⟨rfl, plain ?_ rfl ?_, rfl,
    ⟨plain ?_ rfl ?_, seven⟩, ⟨plain ?_ rfl ?_, trivial⟩, plain ?_ rfl ?_, trivial⟩, manager, half⟩
  all_goals decide +kernel

end Scim.Filter
