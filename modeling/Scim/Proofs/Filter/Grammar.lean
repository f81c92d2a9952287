import Scim.Proofs.Filter.Canonical
import Scim.Proofs.Filter.Tokens

/-!
# The grammar of filters

The grammar derives filters from lexemes, level by level:

* a disjunction consists of conjunctions with `or` between them,
* a conjunction consists of operands with `and` between them,
* an operand is a negated operand, a filter in parentheses, an attribute with a filter in
  brackets, an attribute with `pr`, or an attribute, an operator and a literal.

Rows combine from the left.  Nothing here refers to how a filter is read.
-/

namespace Scim.Filter

open Token (Lexeme)

/-! ## Attributes and literals -/

/-- A word that names an attribute and is not the word for a negation. -/
inductive Attribute : String → AttributePath → Prop where
  | named {word attr : String} {uri sub : Option String}
      (names : PathOf.Names word uri attr sub) (notReserved : Text.lower word ≠ "not") :
      Attribute word ⟨uri, some attr, none, sub⟩

/-- The text of a readable path is a word that names an attribute. -/
theorem Attribute.of_readable {path : AttributePath} (readable : path.Readable) :
    Attribute (pathText path) path := by
  obtain ⟨_, isWord, split⟩ := readable.fromWord.wordOf
  have notReserved := readable.lower_ne
  generalize pathText path = word at isWord split notReserved
  obtain rfl | ⟨uri, attr, sub, rfl, names⟩ := PathOf.split?_cases isWord split
  · exact absurd readable.hasAttr Bool.false_ne_true
  · exact .named names notReserved

/-- A literal and its value.  A string is written as in JSON, words may be written in any letter
case, and digits in any script. -/
inductive Literal : Lexeme → Json → Prop where
  | string {text s : String} (reads : Json.read text = .ok (.str s)) :
      Literal (.string, text) (.str s)
  | integer {text : String} {negative : Bool} {digits : List Char}
      (numeral : Number.IsNumeral text negative digits [] []) :
      Literal (.number, text) (.int (if negative then -(Number.digitsValue digits : Int)
        else Number.digitsValue digits))
  | double {text : String} {negative : Bool} {whole fraction exponent : List Char} {power : Int}
      (numeral : Number.IsNumeral text negative whole fraction exponent)
      (notInteger : fraction ≠ [] ∨ exponent ≠ [])
      (reads : Number.readExponent? exponent = some power) :
      Literal (.number, text) (.double (.ofDecimal negative
        (Number.digitsValue (whole ++ fraction.tail)) (power - fraction.tail.length)))
  | bool {word : String} (value : Bool) (isValue : Text.lower word = toString value) :
      Literal (.word, word) (.bool value)
  | null {word : String} (isNull : Text.lower word = "null") : Literal (.word, word) .null

/-- An integer of more digits than can be read. -/
def TooLong (lexeme : Lexeme) : Prop :=
  lexeme.1 = .number ∧ ∃ negative digits,
    Number.IsNumeral lexeme.2 negative digits [] [] ∧ Number.maxIntegerDigits < digits.length

/-- An integer that is too long has a value all the same. -/
theorem TooLong.hasValue {lexeme : Lexeme} (tooLong : TooLong lexeme) :
    ∃ value, Literal lexeme value := by
  obtain ⟨kind, text⟩ := lexeme
  obtain ⟨rfl, negative, digits, numeral, _⟩ := tooLong
  exact ⟨_, .integer numeral⟩

theorem not_tooLong {kind : TokenKind} (other : kind ≠ .number) (text : String) :
    ¬ TooLong (kind, text) := fun tooLong => other tooLong.1

theorem not_tooLong_word (word : String) : ¬ TooLong (.word, word) := not_tooLong (by simp) word

/-! ## Phrases -/

/-- The levels of the grammar. -/
inductive Level where
  | disjunction | conjunction | operand

/-- Lexemes that form a filter on a level, inside brackets or outside. -/
inductive Phrase : Level → Bool → List Lexeme → Filter → Prop where
  | conjunction {bracketed : Bool} {lexemes : List Lexeme} {expr : Filter}
      (phrase : Phrase .conjunction bracketed lexemes expr) :
      Phrase .disjunction bracketed lexemes expr
  | or {bracketed : Bool} {first last : List Lexeme} {left right : Filter} {word : String}
      (isOr : Text.lower word = "or") (leftPhrase : Phrase .disjunction bracketed first left)
      (rightPhrase : Phrase .conjunction bracketed last right) :
      Phrase .disjunction bracketed (first ++ (.word, word) :: last) (.or left right)
  | operand {bracketed : Bool} {lexemes : List Lexeme} {expr : Filter}
      (phrase : Phrase .operand bracketed lexemes expr) :
      Phrase .conjunction bracketed lexemes expr
  | and {bracketed : Bool} {first last : List Lexeme} {left right : Filter} {word : String}
      (isAnd : Text.lower word = "and") (leftPhrase : Phrase .conjunction bracketed first left)
      (rightPhrase : Phrase .operand bracketed last right) :
      Phrase .conjunction bracketed (first ++ (.word, word) :: last) (.and left right)
  | not {bracketed : Bool} {lexemes : List Lexeme} {expr : Filter} {word : String}
      (isNot : Text.lower word = "not") (phrase : Phrase .operand bracketed lexemes expr) :
      Phrase .operand bracketed ((.word, word) :: lexemes) (.not expr)
  | group {bracketed : Bool} {lexemes : List Lexeme} {expr : Filter}
      (phrase : Phrase .disjunction bracketed lexemes expr) :
      Phrase .operand bracketed ((.lparen, "(") :: (lexemes ++ [(.rparen, ")")])) (.group expr)
  | valuePath {word : String} {path : AttributePath} {lexemes : List Lexeme} {expr : Filter}
      (named : Attribute word path) (noSub : path.sub = none)
      (phrase : Phrase .disjunction true lexemes expr) :
      Phrase .operand false
        ((.word, word) :: (.lbracket, "[") :: (lexemes ++ [(.rbracket, "]")]))
        (.valuePath path expr)
  | present {bracketed : Bool} {word keyword : String} {path : AttributePath}
      (named : Attribute word path) (isPresent : Text.lower keyword = "pr") :
      Phrase .operand bracketed [(.word, word), (.word, keyword)] (.present path)
  | compare {bracketed : Bool} {word keyword : String} {path : AttributePath} {lexeme : Lexeme}
      {value : Json} (named : Attribute word path) (op : CompareOp)
      (isOp : Text.lower keyword = op.keyword) (literal : Literal lexeme value) :
      Phrase .operand bracketed [(.word, word), (.word, keyword), lexeme] (.compare path op value)

namespace Phrase

variable {level : Level} {bracketed : Bool} {lexemes first last : List Lexeme}
  {expr left right : Filter}

/-- A phrase starts with a word or an opening parenthesis. -/
theorem starts (phrase : Phrase level bracketed lexemes expr) :
    ∃ kind text more, lexemes = (kind, text) :: more ∧ (kind = .word ∨ kind = .lparen) := by
  induction phrase with
  | conjunction _ ih | operand _ ih => exact ih
  | or _ _ _ ih _ | and _ _ _ ih _ =>
      obtain ⟨kind, text, more, rfl, starts⟩ := ih
      exact ⟨kind, text, _, rfl, starts⟩
  | group => exact ⟨_, _, _, rfl, .inr rfl⟩
  | not | valuePath | present | compare => exact ⟨_, _, _, rfl, .inl rfl⟩

theorem notOr (phrase : Phrase .conjunction bracketed lexemes expr) : expr.isOr = false := by
  cases phrase with
  | operand operand => cases operand <;> rfl
  | and => rfl

theorem notAnd (phrase : Phrase .operand bracketed lexemes expr) : expr.isAnd = false := by
  cases phrase <;> rfl

/-- Two conjunctions with `and` between them are one. -/
theorem conjoin (leftPhrase : Phrase .conjunction bracketed first left)
    (rightPhrase : Phrase .conjunction bracketed last right) :
    Phrase .conjunction bracketed (first ++ (.word, "and") :: last) (conjoin left right) := by
  generalize same : Level.conjunction = level at rightPhrase
  induction rightPhrase with
  | operand operand =>
      rw [conjoin_operand left operand.notAnd]
      exact .and (by decide) leftPhrase operand
  | and isAnd _ operand ih _ =>
      have row := Phrase.and isAnd (ih leftPhrase same) operand
      rw [List.append_assoc] at row
      exact row
  | _ => cases same

/-- Two disjunctions with `or` between them are one. -/
theorem disjoin (leftPhrase : Phrase .disjunction bracketed first left)
    (rightPhrase : Phrase .disjunction bracketed last right) :
    Phrase .disjunction bracketed (first ++ (.word, "or") :: last) (disjoin left right) := by
  generalize same : Level.disjunction = level at rightPhrase
  induction rightPhrase with
  | conjunction conjunction =>
      rw [disjoin_conjunction left conjunction.notOr]
      exact .or (by decide) leftPhrase conjunction
  | or isOr _ conjunction ih _ =>
      have row := Phrase.or isOr (ih leftPhrase same) conjunction
      rw [List.append_assoc] at row
      exact row
  | _ => cases same

end Phrase

end Scim.Filter
