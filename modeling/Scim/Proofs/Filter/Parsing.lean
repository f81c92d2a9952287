import Scim.Proofs.Filter.Grammar

/-!
# Reading goes by the grammar

The parser takes a phrase of the grammar as the filter that the phrase forms, whatever
tokens follow that do not continue it, and what it takes is always a phrase.  Rows of
operands are taken from the left, so a row is followed up to where the parser looks for
its keyword once more.  An integer of too many digits is the only thing that the grammar
derives and that the parser gives up at; it gives up exactly where the grammar gets there.
-/

namespace Scim.Filter

open Token (Lexeme lexeme WellFormed)

/-! ## Tokens and their lexemes -/

/-- The tokens of a front lexeme and those behind it. -/
theorem map_lexeme_eq_cons {tokens : List Token} {kind : TokenKind} {text : String}
    {lexemes : List Lexeme} (eq : tokens.map lexeme = (kind, text) :: lexemes) :
    ∃ position rest, tokens = ⟨kind, text, position⟩ :: rest ∧ rest.map lexeme = lexemes := by
  obtain ⟨token, rest, rfl, tokenEq, restEq⟩ := List.map_eq_cons_iff.mp eq
  obtain ⟨_, _, position⟩ := token
  cases tokenEq
  exact ⟨position, rest, rfl, restEq⟩

theorem map_lexeme_eq_append {tokens : List Token} {first last : List Lexeme}
    (eq : tokens.map lexeme = first ++ last) :
    ∃ front back, tokens = front ++ back ∧ front.map lexeme = first ∧ back.map lexeme = last := by
  obtain ⟨front, back, rfl, frontEq, backEq⟩ := List.map_eq_append_iff.mp eq
  exact ⟨front, back, rfl, frontEq, backEq⟩

/-- The first token of a phrase, which may be its only one, is a word or opens a group. -/
theorem Phrase.current_starts {level : Level} {bracketed : Bool} {front : List Token}
    {token : Token} {more : List Lexeme} {expr : Filter}
    (phrase : Phrase level bracketed (front.map lexeme ++ token.lexeme :: more) expr)
    (rest : List Token) :
    (current (front ++ token :: rest)).kind = .word ∨
      (current (front ++ token :: rest)).kind = .lparen := by
  obtain ⟨kind, text, others, eq, starts⟩ := phrase.starts
  have same : (current (front ++ token :: rest)).kind = kind := by
    cases front with
    | nil => exact congrArg Prod.fst (List.cons.inj eq).1
    | cons first front => exact congrArg Prod.fst (List.cons.inj eq).1
  rwa [same]

/-- Lexemes none of which is an integer of too many digits. -/
def Short (lexemes : List Lexeme) : Prop := ∀ lexeme ∈ lexemes, ¬ TooLong lexeme

theorem short_append {first last : List Lexeme} :
    Short (first ++ last) ↔ Short first ∧ Short last := List.forall_mem_append

theorem short_cons {lexeme : Lexeme} {lexemes : List Lexeme} :
    Short (lexeme :: lexemes) ↔ ¬ TooLong lexeme ∧ Short lexemes := List.forall_mem_cons

theorem short_singleton {lexeme : Lexeme} : Short [lexeme] ↔ ¬ TooLong lexeme :=
  List.forall_mem_singleton

/-! ## Literals -/

/-- An integer of too many digits has no value that can be read. -/
theorem TooLong.numberValue? {text : String} (tooLong : TooLong (.number, text)) :
    numberValue? text = none := by
  obtain ⟨-, negative, digits, numeral, long⟩ := tooLong
  rw [numberValue?_numeral numeral, if_pos ⟨rfl, rfl⟩, numeral.readInt?, if_pos long]
  rfl

theorem TooLong.refused {token : Token} (tooLong : TooLong token.lexeme) (rest : List Token) :
    literal (token :: rest) = .error .integerTooLong := by
  obtain ⟨kind, text, position⟩ := token
  obtain rfl : kind = .number := tooLong.1
  simp [literal, tooLong.numberValue?]

/-- The words that are literals are those that have a value. -/
theorem wordValue?_eq_some_iff {word : String} {value : Json} :
    wordValue? word = some value ↔ Literal (.word, word) value := by
  constructor
  · intro found
    unfold wordValue? at found
    split at found
    · next isTrue =>
      cases found
      exact .bool true isTrue
    · next isFalse =>
      cases found
      exact .bool false isFalse
    · next isNull =>
      cases found
      exact .null isNull
    · cases found
  · intro isLiteral
    cases isLiteral with
    | bool b isValue =>
        rw [wordValue?, isValue]
        cases b <;> rfl
    | null isNull => simp [wordValue?, isNull]

/-- A literal is taken as its value. -/
theorem Literal.taken {token : Token} {value : Json} (isLiteral : Literal token.lexeme value)
    (short : ¬ TooLong token.lexeme) (rest : List Token) :
    literal (token :: rest) = .ok (value, rest) := by
  obtain ⟨kind, text, position⟩ := token
  simp only [lexeme] at isLiteral short
  cases kind with
  | word => simp [literal, wordValue?_eq_some_iff.mpr isLiteral]
  | string =>
      obtain ⟨reads⟩ := isLiteral
      simp [literal, reads]
  | number =>
      cases isLiteral with
      | @integer _ negative digits numeral =>
          have bounded : ¬ Number.maxIntegerDigits < digits.length := by
            intro long
            exact short ⟨rfl, negative, digits, numeral, long⟩
          have found := numberValue?_numeral numeral
          rw [if_pos ⟨rfl, rfl⟩, numeral.readInt?, if_neg bounded] at found
          simp [literal, found]
      | double numeral notInteger reads =>
          have found := numberValue?_numeral numeral
          rw [if_neg (Decidable.not_and_iff_or_not.mpr notInteger),
            numeral.readDouble? reads] at found
          simp [literal, found]
  | _ => cases isLiteral

/-- What stands behind a quote is read as a string. -/
theorem read_quoted {text : String} {more : List Char} (quoted : text.toList = '"' :: more)
    {value : Json} (reads : Json.read text = .ok value) : ∃ s, value = .str s := by
  rw [Json.read, quoted] at reads
  split at reads
  · next result found =>
    cases reads
    rw [Json.Reader.document, if_neg (by simp)] at found
    have unspaced : Json.Reader.skip ('"' :: more) = '"' :: more :=
      List.dropWhile_cons_of_neg (by decide)
    rw [unspaced, Json.Reader.value] at found
    cases body : Json.Reader.string more with
    | error refusal => simp [body, bind, Except.bind] at found
    | ok parts =>
        obtain ⟨s, rest⟩ := parts
        simp only [body, bind, Except.bind, pure, Except.pure] at found
        split at found
        · cases found
          exact ⟨s, rfl⟩
        · cases found
  · cases reads
  · cases reads

/-- A numeral is a literal, and it is read unless it is an integer of too many digits. -/
theorem numberValue?_cases {text : String} (wellFormed : WellFormed (.number, text)) :
    (∃ value, numberValue? text = some value ∧ Literal (.number, text) value ∧
      ¬ TooLong (.number, text)) ∨
    (numberValue? text = none ∧ TooLong (.number, text)) := by
  obtain ⟨negative, whole, fraction, exponent, numeral⟩ := wellFormed
  have readable {value : Json} (found : numberValue? text = some value) :
      ¬ TooLong (.number, text) := by
    intro tooLong
    rw [tooLong.numberValue?] at found
    cases found
  have found := numberValue?_numeral numeral
  by_cases integer : fraction = [] ∧ exponent = []
  · obtain ⟨rfl, rfl⟩ := integer
    rw [if_pos ⟨rfl, rfl⟩, numeral.readInt?] at found
    by_cases long : Number.maxIntegerDigits < whole.length
    · rw [if_pos long] at found
      exact .inr ⟨found, rfl, negative, whole, numeral, long⟩
    · rw [if_neg long] at found
      exact .inl ⟨_, found, .integer numeral, readable found⟩
  · obtain ⟨power, reads⟩ := numeral.parts.isExponent.read
    rw [if_neg integer, numeral.readDouble? reads] at found
    exact .inl ⟨_, found, .double numeral (Decidable.not_and_iff_or_not.mp integer) reads,
      readable found⟩

/-- What is taken as a literal is one, or else an integer of too many digits stands there. -/
theorem literal_sound {tokens : List Token}
    (wellFormed : ∀ token ∈ tokens, WellFormed token.lexeme) :
    match literal tokens with
    | .ok (value, rest) =>
      ∃ token, tokens = token :: rest ∧ Literal token.lexeme value ∧ ¬ TooLong token.lexeme
    | .error .integerTooLong => ∃ token rest, tokens = token :: rest ∧ TooLong token.lexeme
    | .error _ => True := by
  cases tokens with
  | nil => trivial
  | cons token rest =>
      have formed := wellFormed token List.mem_cons_self
      obtain ⟨kind, text, position⟩ := token
      cases kind with
      | string =>
          obtain ⟨more, quoted⟩ := formed
          simp only [literal]
          cases reads : Json.read text with
          | error => trivial
          | ok value =>
              obtain ⟨s, rfl⟩ := read_quoted quoted reads
              refine ⟨_, rfl, .string reads, ?_⟩
              rintro ⟨⟨⟩, _⟩
      | number =>
          simp only [literal]
          obtain ⟨value, found, isLiteral, short⟩ | ⟨found, tooLong⟩ := numberValue?_cases formed
          · rw [found]
            exact ⟨_, rfl, isLiteral, short⟩
          · rw [found]
            exact ⟨_, _, rfl, tooLong⟩
      | word =>
          simp only [literal]
          cases found : wordValue? text with
          | none => trivial
          | some value =>
              exact ⟨_, rfl, wordValue?_eq_some_iff.mp found, not_tooLong_word text⟩
      | _ => trivial

/-! ## Rows -/

/-- Something that takes a filter from the front of some tokens. -/
abbrev Parser := List Token → Except Refusal (Filter × List Token)

/-- A parser takes lexemes as a filter, whatever tokens of a kind follow. -/
def Takes (parser : Parser) (follow : List Token → Prop) (lexemes : List Lexeme)
    (expr : Filter) : Prop :=
  ∀ tokens rest, tokens.map lexeme = lexemes → follow rest →
    parser (tokens ++ rest) = .ok (expr, rest)

/-- Tokens that do not go on with a keyword. -/
def EndsBefore (keyword : String) (rest : List Token) : Prop :=
  isKeyword keyword (current rest) = false

theorem isKeyword_word {keyword word : String} (isKey : Text.lower word = keyword)
    (position : Nat) : isKeyword keyword ⟨.word, word, position⟩ = true := by
  simp [isKeyword, isKey]

section

variable {keyword : String} {combine : Filter → Filter → Filter} {operand : Parser}
  {follow : List Token → Prop} {lexemes first last : List Lexeme} {expr left right : Filter}

theorem chain_stop {rest : List Token} (ends : EndsBefore keyword rest) (rounds : Nat) :
    chain keyword combine operand rounds left rest = .ok (left, rest) := by
  cases rounds with
  | zero => rfl
  | succ rounds => rw [chain, ends, if_neg Bool.false_ne_true]

theorem row_eq_chain {tokens rest : List Token} (taken : operand tokens = .ok (expr, rest)) :
    row keyword combine operand tokens = chain keyword combine operand rest.length expr rest := by
  simp only [row, taken, bind, Except.bind]
  split
  · rfl
  · next ends =>
    rw [chain_stop (by simpa [EndsBefore] using ends)]
    rfl

/-- Lexemes of a row: they are taken as a filter, and the parser looks for its keyword behind
them. -/
def Runs (keyword : String) (combine : Filter → Filter → Filter) (operand : Parser)
    (follow : List Token → Prop) (lexemes : List Lexeme) (expr : Filter) : Prop :=
  ∀ tokens rest, tokens.map lexeme = lexemes → follow rest → ∃ rounds, rest.length ≤ rounds ∧
    row keyword combine operand (tokens ++ rest) = chain keyword combine operand rounds expr rest

theorem Takes.runs (takes : Takes operand follow lexemes expr) :
    Runs keyword combine operand follow lexemes expr := by
  intro tokens rest eq followRest
  exact ⟨rest.length, le_rfl, row_eq_chain (takes tokens rest eq followRest)⟩

theorem Runs.takes (runs : Runs keyword combine operand follow lexemes expr) :
    Takes (row keyword combine operand) (fun rest => follow rest ∧ EndsBefore keyword rest)
      lexemes expr := by
  intro tokens rest eq ends
  obtain ⟨rounds, _, ran⟩ := runs tokens rest eq ends.1
  rw [ran, chain_stop ends.2]

/-- Behind a row and its keyword, the parser takes an operand. -/
theorem Runs.next (runs : Runs keyword combine operand follow first left) {word : String}
    (isKey : Text.lower word = keyword)
    (follows : ∀ position rest, follow (⟨.word, word, position⟩ :: rest))
    {tokens : List Token} (eq : tokens.map lexeme = first ++ [(.word, word)])
    (rest : List Token) : ∃ rounds, rest.length ≤ rounds ∧
      row keyword combine operand (tokens ++ rest) = (operand rest >>= fun (right, rest) =>
        chain keyword combine operand rounds (combine left right) rest) := by
  obtain ⟨front, back, rfl, frontEq, backEq⟩ := map_lexeme_eq_append eq
  obtain ⟨position, none, rfl, noneEq⟩ := map_lexeme_eq_cons backEq
  obtain rfl : none = [] := List.map_eq_nil_iff.mp noneEq
  obtain ⟨rounds, enough, ran⟩ := runs front (⟨.word, word, position⟩ :: rest) frontEq
    (follows position rest)
  cases rounds with
  | zero => simp at enough
  | succ rounds =>
      refine ⟨rounds, by simpa using enough, ?_⟩
      rw [List.append_assoc, List.singleton_append, ran, chain, current, isKeyword_word isKey,
        if_pos rfl, List.tail_cons]

theorem Runs.snoc (runs : Runs keyword combine operand follow first left) {word : String}
    (isKey : Text.lower word = keyword)
    (follows : ∀ position rest, follow (⟨.word, word, position⟩ :: rest))
    (takes : Takes operand follow last right) :
    Runs keyword combine operand follow (first ++ (.word, word) :: last) (combine left right) := by
  intro tokens rest eq followRest
  rw [← List.singleton_append, ← List.append_assoc] at eq
  obtain ⟨front, back, rfl, frontEq, backEq⟩ := map_lexeme_eq_append eq
  obtain ⟨rounds, enough, ran⟩ := runs.next isKey follows frontEq (back ++ rest)
  refine ⟨rounds, by simp at enough; omega, ?_⟩
  rw [List.append_assoc, ran, takes back rest backEq followRest]
  rfl

end

/-! ## Operands -/

/-- Tokens that start with a word which is no negation are an operand without one. -/
theorem negation_eq_atom {token : Token} (notNot : isKeyword "not" token = false) (depth : Nat)
    (bracketed : Bool) (rest : List Token) :
    negation (depth + 1) bracketed (token :: rest) =
      atom (expression depth) bracketed (token :: rest) := by
  rw [negation, current, notNot, if_neg Bool.false_ne_true]

/-- Behind the word for a negation, the parser takes an operand. -/
theorem negation_not {word : String} (isNot : Text.lower word = "not") (position depth : Nat)
    (bracketed : Bool) (rest : List Token) :
    negation (depth + 1) bracketed (⟨.word, word, position⟩ :: rest) =
      (negation depth bracketed rest >>= fun (expr, rest) => .ok (.not expr, rest)) := by
  rw [negation, current, isKeyword_word isNot, if_pos rfl, List.tail_cons]
  rfl

/-- A filter and what closes it. -/
def closed (kind : TokenKind) (what : String) (nested : Parser) : Parser := fun tokens => do
  let (expr, rest) ← nested tokens
  let (_, rest) ← expect kind what rest
  return (expr, rest)

/-- Behind a path, the parser takes a filter in brackets or an operator. -/
theorem atom_word (nested : Bool → Parser) (bracketed : Bool) {word : String} {position : Nat}
    {tokens : List Token} {path : AttributePath}
    (taken : attributePath (⟨.word, word, position⟩ :: tokens) = .ok (path, tokens)) :
    atom nested bracketed (⟨.word, word, position⟩ :: tokens) =
      if (current tokens).kind = .lbracket then
        if bracketed then .error (.at .nestedRestriction (current tokens))
        else if path.sub.isSome || path.attr.isNone then
          .error (.at .misplacedRestriction (current tokens))
        else
          restriction (nested true) tokens >>= fun (expr, rest) => .ok (.valuePath path expr, rest)
      else if path.attr.isNone then .error (.at .uriIsNoAttribute ⟨.word, word, position⟩)
      else condition path tokens := by
  unfold atom
  rw [taken]
  rfl

/-- Behind an opening bracket, the parser takes a filter and the closing bracket. -/
theorem restriction_eq (nested : Parser) (text : String) (position : Nat) (tokens : List Token) :
    restriction nested (⟨.lbracket, text, position⟩ :: tokens) =
      if (current tokens).kind = .rbracket then .error (.at .emptyRestriction (current tokens))
      else closed .rbracket "']'" nested tokens := by
  unfold restriction
  rfl

section

variable {word : String} {path : AttributePath} (named : Attribute word path)
include named

/-- A word that names an attribute is taken as its path. -/
theorem Attribute.taken (position : Nat) (rest : List Token) :
    attributePath (⟨.word, word, position⟩ :: rest) = .ok (path, rest) := by
  obtain ⟨names, _⟩ := named
  simp [attributePath, expect, names.split, bind, Except.bind, pure, Except.pure]

theorem Attribute.hasAttr : path.attr.isNone = false := by
  cases named
  rfl

theorem Attribute.negation_eq_atom (position depth : Nat) (bracketed : Bool)
    (rest : List Token) :
    negation (depth + 1) bracketed (⟨.word, word, position⟩ :: rest) =
      atom (expression depth) bracketed (⟨.word, word, position⟩ :: rest) := by
  obtain ⟨_, notReserved⟩ := named
  exact Filter.negation_eq_atom (by simp [isKeyword, notReserved]) depth bracketed rest

/-- Where no bracket follows an attribute, an operator has to. -/
theorem Attribute.negation_eq_condition {token : Token} (noBracket : token.kind ≠ .lbracket)
    (position depth : Nat) (bracketed : Bool) (rest : List Token) :
    negation (depth + 1) bracketed (⟨.word, word, position⟩ :: token :: rest) =
      condition path (token :: rest) := by
  rw [named.negation_eq_atom]
  simp [atom, current, named.taken, noBracket, named.hasAttr, bind, Except.bind]

end

theorem keyword_ne_present (op : CompareOp) : op.keyword ≠ "pr" := by
  cases op <;> decide

theorem condition_present (path : AttributePath) {keyword : String}
    (isPresent : Text.lower keyword = "pr") (position : Nat) (rest : List Token) :
    condition path (⟨.word, keyword, position⟩ :: rest) = .ok (.present path, rest) := by
  simp [condition, current, isPresent]

/-- Behind an operator, the condition depends on the literal. -/
theorem condition_operator (path : AttributePath) {keyword : String} {op : CompareOp}
    (isOp : Text.lower keyword = op.keyword) (position : Nat) (rest : List Token) :
    condition path (⟨.word, keyword, position⟩ :: rest) =
      (literal rest >>= fun (value, rest) => .ok (.compare path op value, rest)) := by
  simp only [condition, current, isOp, if_neg (keyword_ne_present op), ne_eq, not_true_eq_false,
    if_false, CompareOp.ofKeyword?_keyword, List.tail_cons]
  rfl

/-! ## Every phrase is taken -/

/-- Tokens that do not go on with a connective. -/
def Ends (rest : List Token) : Prop := EndsBefore "and" rest ∧ EndsBefore "or" rest

theorem ends_of_kind {token : Token} (kind : token.kind ≠ .word) (rest : List Token) :
    Ends (token :: rest) := by
  simp [Ends, EndsBefore, isKeyword, current, kind]

theorem ends_before_or {word : String} (isOr : Text.lower word = "or") (position : Nat)
    (rest : List Token) : EndsBefore "and" (⟨.word, word, position⟩ :: rest) := by
  simp [EndsBefore, isKeyword, current, isOr]

/-- What takes a filter on a level, nested at most so many levels deep. -/
def levelParser (depth : Nat) : Level → Bool → Parser
  | .operand, bracketed => negation depth bracketed
  | .conjunction, bracketed => row "and" .and (negation depth bracketed)
  | .disjunction, bracketed => row "or" .or (row "and" .and (negation depth bracketed))

theorem expression_eq (depth : Nat) (bracketed : Bool) (tokens : List Token) :
    expression (depth + 1) bracketed tokens = levelParser depth .disjunction bracketed tokens := by
  rw [expression]
  rfl

/-- What the parser does with the lexemes of a phrase: it takes an operand as such, and goes along
a row. -/
def Followed (depth : Nat) : Level → Bool → List Lexeme → Filter → Prop
  | .operand, bracketed => Takes (levelParser depth .operand bracketed) fun _ => True
  | .conjunction, bracketed =>
    Runs "and" .and (levelParser depth .operand bracketed) fun _ => True
  | .disjunction, bracketed =>
    Runs "or" .or (levelParser depth .conjunction bracketed) (EndsBefore "and")

theorem Followed.conjunction {depth : Nat} {bracketed : Bool} {lexemes : List Lexeme}
    {expr : Filter} (followed : Followed depth .conjunction bracketed lexemes expr) :
    Takes (levelParser depth .conjunction bracketed) (EndsBefore "and") lexemes expr := by
  intro tokens rest eq ends
  exact Runs.takes followed tokens rest eq ⟨trivial, ends⟩

/-- A filter is taken where no connective follows. -/
theorem Followed.taken {depth : Nat} {bracketed : Bool} {lexemes : List Lexeme} {expr : Filter}
    (followed : Followed depth .disjunction bracketed lexemes expr) :
    Takes (expression (depth + 1) bracketed) Ends lexemes expr := by
  intro tokens rest eq ends
  rw [expression_eq]
  exact Runs.takes followed tokens rest eq ends

/-- What stands in parentheses or brackets is taken up to where they close. -/
theorem Followed.enclosed {depth : Nat} {bracketed : Bool} {lexemes : List Lexeme} {expr : Filter}
    (followed : Followed depth .disjunction bracketed lexemes expr) {kind : TokenKind}
    {closing : String} (closes : kind ≠ .word) {tokens : List Token}
    (eq : tokens.map lexeme = lexemes ++ [(kind, closing)]) (rest : List Token) :
    ∃ position, expression (depth + 1) bracketed (tokens ++ rest) =
      .ok (expr, ⟨kind, closing, position⟩ :: rest) := by
  obtain ⟨front, back, rfl, frontEq, backEq⟩ := map_lexeme_eq_append eq
  obtain ⟨position, none, rfl, noneEq⟩ := map_lexeme_eq_cons backEq
  obtain rfl : none = [] := List.map_eq_nil_iff.mp noneEq
  refine ⟨position, ?_⟩
  rw [List.append_assoc, List.singleton_append]
  exact followed.taken front _ frontEq (ends_of_kind closes rest)

/-- A phrase without integers of too many digits is followed, if it is not nested too deeply. -/
theorem Phrase.followed {level : Level} {bracketed : Bool} {lexemes : List Lexeme} {expr : Filter}
    (phrase : Phrase level bracketed lexemes expr) (short : Short lexemes) {depth : Nat}
    (shallow : expr.nesting ≤ depth) : Followed depth level bracketed lexemes expr := by
  induction phrase generalizing depth with
  | conjunction _ ih => exact (ih short shallow).conjunction.runs
  | or isOr _ _ leftIh rightIh =>
      rw [short_append, short_cons] at short
      rw [nesting, Nat.max_le] at shallow
      exact Runs.snoc (leftIh short.1 shallow.1) isOr (ends_before_or isOr)
        (rightIh short.2.2 shallow.2).conjunction
  | operand _ ih => exact Takes.runs (ih short shallow)
  | and isAnd _ _ leftIh rightIh =>
      rw [short_append, short_cons] at short
      rw [nesting, Nat.max_le] at shallow
      exact Runs.snoc (leftIh short.1 shallow.1) isAnd (fun _ _ => trivial)
        (rightIh short.2.2 shallow.2)
  | not isNot _ ih =>
      rw [nesting] at shallow
      obtain ⟨level, rfl⟩ : ∃ level, depth = level + 1 := ⟨depth - 1, by omega⟩
      intro tokens rest eq _
      obtain ⟨position, inner, rfl, innerEq⟩ := map_lexeme_eq_cons eq
      have taken := ih (short_cons.mp short).2 (Nat.le_of_succ_le_succ shallow) inner rest innerEq
        trivial
      rw [levelParser] at taken
      rw [List.cons_append, levelParser, negation_not isNot, taken]
      rfl
  | group _ ih =>
      rw [nesting] at shallow
      obtain ⟨level, rfl⟩ : ∃ level, depth = level + 2 := ⟨depth - 2, by omega⟩
      intro tokens rest eq _
      obtain ⟨position, inner, rfl, innerEq⟩ := map_lexeme_eq_cons eq
      have inside := ih (short_append.mp (short_cons.mp short).2).1
        (show _ ≤ level by omega)
      obtain ⟨closing, taken⟩ := inside.enclosed (by simp) innerEq rest
      rw [List.cons_append, levelParser, negation_eq_atom (by simp [isKeyword])]
      simp [atom, current, taken, expect, bind, Except.bind, pure, Except.pure]
  | @valuePath _ path _ expr named noSub phrase ih =>
      rw [nesting] at shallow
      obtain ⟨level, rfl⟩ : ∃ level, depth = level + 2 := ⟨depth - 2, by omega⟩
      intro tokens rest eq _
      obtain ⟨position, more, rfl, moreEq⟩ := map_lexeme_eq_cons eq
      obtain ⟨opening, inner, rfl, innerEq⟩ := map_lexeme_eq_cons moreEq
      have inside := ih (short_append.mp (short_cons.mp (short_cons.mp short).2).2).1
        (show _ ≤ level by omega)
      obtain ⟨closing, taken⟩ := inside.enclosed (by simp) innerEq rest
      have notEmpty : (current (inner ++ rest)).kind ≠ .rbracket := by
        obtain ⟨kind, text, others, rfl, starts⟩ := phrase.starts
        obtain ⟨place, behind, rfl, _⟩ := map_lexeme_eq_cons innerEq
        obtain rfl | rfl := starts <;> simp [current]
      have restricted : restriction (expression (level + 1) true)
          (⟨.lbracket, "[", opening⟩ :: (inner ++ rest)) = .ok (expr, rest) := by
        simp [restriction, expect, notEmpty, taken, bind, Except.bind, pure, Except.pure]
      rw [List.cons_append, List.cons_append, levelParser, named.negation_eq_atom]
      simp [atom, current, named.taken, named.hasAttr, noSub, restricted, bind, Except.bind, pure,
        Except.pure]
  | @present _ _ _ path named isPresent =>
      rw [nesting] at shallow
      obtain ⟨level, rfl⟩ : ∃ level, depth = level + 1 := ⟨depth - 1, by omega⟩
      intro tokens rest eq _
      obtain ⟨position, more, rfl, moreEq⟩ := map_lexeme_eq_cons eq
      obtain ⟨place, none, rfl, noneEq⟩ := map_lexeme_eq_cons moreEq
      obtain rfl : none = [] := List.map_eq_nil_iff.mp noneEq
      rw [List.cons_append, List.cons_append, levelParser,
        named.negation_eq_condition (by simp), condition_present path isPresent]
      rfl
  | @compare _ _ _ path _ _ named op isOp isLiteral =>
      rw [nesting] at shallow
      obtain ⟨level, rfl⟩ : ∃ level, depth = level + 1 := ⟨depth - 1, by omega⟩
      intro tokens rest eq _
      obtain ⟨position, more, rfl, moreEq⟩ := map_lexeme_eq_cons eq
      obtain ⟨place, last, rfl, lastEq⟩ := map_lexeme_eq_cons moreEq
      obtain ⟨token, rfl, rfl⟩ := List.map_eq_singleton_iff.mp lastEq
      have notLong := (short_cons.mp (short_cons.mp (short_cons.mp short).2).2).1
      rw [List.cons_append, List.cons_append, List.singleton_append, levelParser,
        named.negation_eq_condition (by simp), condition_operator path isOp,
        isLiteral.taken notLong]
      rfl

/-! ## Integers of too many digits -/

section

variable {first last front more : List Lexeme} {mark long : Lexeme}

/-- A lexeme that is none of the marks of a phrase stands before or behind the mark. -/
theorem append_mark_eq (differ : mark.1 ≠ long.1)
    (eq : first ++ mark :: last = front ++ long :: more) :
    (∃ behind, first = front ++ long :: behind) ∨
      ∃ before, front = first ++ mark :: before ∧ last = before ++ long :: more := by
  rcases List.append_eq_append_iff.mp eq with ⟨back, rfl, backEq⟩ | ⟨back, rfl, backEq⟩
  · cases back with
    | nil =>
        cases backEq
        exact absurd rfl differ
    | cons _ before =>
        cases backEq
        exact .inr ⟨before, rfl, rfl⟩
  · cases back with
    | nil =>
        cases backEq
        exact absurd rfl differ
    | cons _ behind =>
        cases backEq
        exact .inl ⟨behind, rfl⟩

theorem mark_cons_eq (differ : mark.1 ≠ long.1) (eq : mark :: last = front ++ long :: more) :
    ∃ before, front = mark :: before ∧ last = before ++ long :: more := by
  obtain ⟨_, impossible⟩ | behind := append_mark_eq differ (show [] ++ mark :: last = _ from eq)
  · simp at impossible
  · exact behind

end

theorem row_error {keyword : String} {combine : Filter → Filter → Filter} {operand : Parser}
    {tokens : List Token} {refusal : Refusal} (failed : operand tokens = .error refusal) :
    row keyword combine operand tokens = .error refusal := by
  simp [row, failed, bind, Except.bind]

/-- Behind the front of a row, the parser gives up where it does so in an operand. -/
theorem Runs.interrupted {keyword : String} {combine : Filter → Filter → Filter}
    {operand : Parser} {follow : List Token → Prop} {first : List Lexeme} {left : Filter}
    (runs : Runs keyword combine operand follow first left) {word : String}
    (isKey : Text.lower word = keyword)
    (follows : ∀ position rest, follow (⟨.word, word, position⟩ :: rest))
    {before : List Lexeme} {tokens rest : List Token} {refusal : Refusal}
    (failed : ∀ back, back.map lexeme = before → operand (back ++ rest) = .error refusal)
    (eq : tokens.map lexeme = first ++ (.word, word) :: before) :
    row keyword combine operand (tokens ++ rest) = .error refusal := by
  rw [← List.singleton_append, ← List.append_assoc] at eq
  obtain ⟨front, back, rfl, frontEq, backEq⟩ := map_lexeme_eq_append eq
  obtain ⟨rounds, _, ran⟩ := runs.next isKey follows frontEq (back ++ rest)
  rw [List.append_assoc, ran, failed back backEq]
  rfl

/-- Where an integer of too many digits stands in a phrase, the parser gives up. -/
theorem Phrase.interrupted {level : Level} {bracketed : Bool} {lexemes : List Lexeme}
    {expr : Filter} (phrase : Phrase level bracketed lexemes expr) {depth : Nat}
    (shallow : expr.nesting ≤ depth) {long : Token} (tooLong : TooLong long.lexeme)
    {front more : List Lexeme} (short : Short front) (eq : lexemes = front ++ long.lexeme :: more)
    (tokens : List Token) (tokensEq : tokens.map lexeme = front) (rest : List Token) :
    levelParser depth level bracketed (tokens ++ long :: rest) = .error .integerTooLong := by
  have differ {kind : TokenKind} {text : String} (other : kind ≠ .number) :
      ((kind, text) : Lexeme).1 ≠ long.lexeme.1 := fun same => other (same.trans tooLong.1)
  induction phrase generalizing depth front more tokens with
  | conjunction _ ih => exact row_error (ih shallow short eq tokens tokensEq)
  | or isOr leftPhrase _ leftIh rightIh =>
      rw [nesting, Nat.max_le] at shallow
      obtain ⟨behind, firstEq⟩ | ⟨before, rfl, lastEq⟩ := append_mark_eq (differ (by simp)) eq
      · exact leftIh shallow.1 short firstEq tokens tokensEq
      · rw [short_append, short_cons] at short
        exact (leftPhrase.followed short.1 shallow.1).interrupted isOr (ends_before_or isOr)
          (rightIh shallow.2 short.2.2 lastEq) tokensEq
  | operand _ ih => exact row_error (ih shallow short eq tokens tokensEq)
  | and isAnd leftPhrase _ leftIh rightIh =>
      rw [nesting, Nat.max_le] at shallow
      obtain ⟨behind, firstEq⟩ | ⟨before, rfl, lastEq⟩ := append_mark_eq (differ (by simp)) eq
      · exact leftIh shallow.1 short firstEq tokens tokensEq
      · rw [short_append, short_cons] at short
        exact (leftPhrase.followed short.1 shallow.1).interrupted isAnd (fun _ _ => trivial)
          (rightIh shallow.2 short.2.2 lastEq) tokensEq
  | not isNot _ ih =>
      rw [nesting] at shallow
      obtain ⟨level, rfl⟩ : ∃ level, depth = level + 1 := ⟨depth - 1, by omega⟩
      obtain ⟨before, rfl, lastEq⟩ := mark_cons_eq (differ (by simp)) eq
      obtain ⟨position, inner, rfl, innerEq⟩ := map_lexeme_eq_cons tokensEq
      have failed :=
        ih (Nat.le_of_succ_le_succ shallow) (short_cons.mp short).2 lastEq inner innerEq
      rw [levelParser] at failed
      rw [List.cons_append, levelParser, negation_not isNot, failed]
      rfl
  | group _ ih =>
      rw [nesting] at shallow
      obtain ⟨level, rfl⟩ : ∃ level, depth = level + 2 := ⟨depth - 2, by omega⟩
      obtain ⟨before, rfl, lastEq⟩ := mark_cons_eq (differ (by simp)) eq
      obtain ⟨position, inner, rfl, innerEq⟩ := map_lexeme_eq_cons tokensEq
      obtain ⟨behind, insideEq⟩ | ⟨_, _, impossible⟩ := append_mark_eq (differ (by simp)) lastEq
      · have failed := ih (show _ ≤ level by omega) (short_cons.mp short).2 insideEq inner innerEq
        rw [← expression_eq] at failed
        rw [List.cons_append, levelParser, negation_eq_atom (by simp [isKeyword])]
        simp [atom, current, failed, bind, Except.bind]
      · simp at impossible
  | valuePath named noSub phrase ih =>
      rw [nesting] at shallow
      obtain ⟨level, rfl⟩ : ∃ level, depth = level + 2 := ⟨depth - 2, by omega⟩
      obtain ⟨before, rfl, lastEq⟩ := mark_cons_eq (differ (by simp)) eq
      obtain ⟨within, rfl, withinEq⟩ := mark_cons_eq (differ (by simp)) lastEq
      obtain ⟨position, others, rfl, othersEq⟩ := map_lexeme_eq_cons tokensEq
      obtain ⟨opening, inner, rfl, innerEq⟩ := map_lexeme_eq_cons othersEq
      obtain ⟨behind, insideEq⟩ | ⟨_, _, impossible⟩ := append_mark_eq (differ (by simp)) withinEq
      · have failed := ih (show _ ≤ level by omega) (short_cons.mp (short_cons.mp short).2).2
          insideEq inner innerEq
        rw [← expression_eq] at failed
        have notEmpty : (current (inner ++ long :: rest)).kind ≠ .rbracket := by
          rw [insideEq, ← innerEq] at phrase
          obtain starts | starts := phrase.current_starts rest <;> simp [starts]
        have restricted : restriction (expression (level + 1) true)
            (⟨.lbracket, "[", opening⟩ :: (inner ++ long :: rest)) = .error .integerTooLong := by
          simp [restriction, expect, notEmpty, failed, bind, Except.bind]
        rw [List.cons_append, List.cons_append, levelParser, named.negation_eq_atom]
        simp [atom, current, named.taken, named.hasAttr, noSub, restricted, bind, Except.bind]
      · simp at impossible
  | present named isPresent =>
      obtain ⟨before, rfl, lastEq⟩ := mark_cons_eq (differ (by simp)) eq
      obtain ⟨_, _, impossible⟩ := mark_cons_eq (differ (by simp)) lastEq
      simp at impossible
  | @compare _ _ _ path _ _ named op isOp isLiteral =>
      rw [nesting] at shallow
      obtain ⟨level, rfl⟩ : ∃ level, depth = level + 1 := ⟨depth - 1, by omega⟩
      obtain ⟨before, rfl, lastEq⟩ := mark_cons_eq (differ (by simp)) eq
      obtain ⟨within, rfl, withinEq⟩ := mark_cons_eq (differ (by simp)) lastEq
      obtain ⟨position, others, rfl, othersEq⟩ := map_lexeme_eq_cons tokensEq
      obtain ⟨place, none, rfl, noneEq⟩ := map_lexeme_eq_cons othersEq
      obtain rfl : within = [] := by
        cases within with
        | nil => rfl
        | cons => simp at withinEq
      obtain rfl : none = [] := List.map_eq_nil_iff.mp noneEq
      rw [List.cons_append, List.cons_append, List.nil_append, levelParser,
        named.negation_eq_condition (by simp), condition_operator path isOp, tooLong.refused]
      rfl

/-! ## What is taken is a phrase -/

/-- What the outcome of a parser tells about the tokens: those in front of the rest form a phrase,
or else those in front of an integer of too many digits start one that goes on with it. -/
def Explained (depth : Nat) (level : Level) (bracketed : Bool) (tokens : List Token) :
    Except Refusal (Filter × List Token) → Prop
  | .ok (expr, rest) => ∃ front, tokens = front ++ rest ∧ Short (front.map lexeme) ∧
      Phrase level bracketed (front.map lexeme) expr ∧ expr.nesting ≤ depth
  | .error .integerTooLong => ∃ front long rest more expr, tokens = front ++ long :: rest ∧
      Short (front.map lexeme) ∧ TooLong long.lexeme ∧
      Phrase level bracketed (front.map lexeme ++ long.lexeme :: more) expr ∧
      expr.nesting ≤ depth
  | .error _ => True

/-- A parser whose outcomes are explained for the tokens of a text. -/
def Sound (depth : Nat) (level : Level) (bracketed : Bool) (parser : Parser) : Prop :=
  ∀ tokens, (∀ token ∈ tokens, WellFormed token.lexeme) →
    Explained depth level bracketed tokens (parser tokens)

theorem isKeyword_current {keyword : String} {tokens : List Token}
    (found : isKeyword keyword (current tokens) = true) :
    ∃ word position rest, tokens = ⟨.word, word, position⟩ :: rest ∧
      Text.lower word = keyword := by
  cases tokens with
  | nil => simp [isKeyword, current] at found
  | cons token rest =>
      obtain ⟨kind, word, position⟩ := token
      rw [isKeyword, Bool.and_eq_true] at found
      obtain rfl : kind = .word := of_decide_eq_true found.1
      exact ⟨word, position, rest, rfl, of_decide_eq_true found.2⟩

section

variable {depth : Nat} {bracketed : Bool} {operandLevel rowLevel : Level} {keyword : String}
  {combine : Filter → Filter → Filter} {operand : Parser}
  (join : ∀ {first last left right word}, Text.lower word = keyword →
    Phrase rowLevel bracketed first left → Phrase operandLevel bracketed last right →
    Phrase rowLevel bracketed (first ++ (.word, word) :: last) (combine left right))
  (nests : ∀ left right, (combine left right).nesting = max left.nesting right.nesting)
  (sound : Sound depth operandLevel bracketed operand)
include join nests sound

/-- What is taken behind the front of a row goes on with it. -/
theorem chain_sound (rounds : Nat) {front rest : List Token} {left : Filter}
    (wellFormed : ∀ token ∈ rest, WellFormed token.lexeme) (short : Short (front.map lexeme))
    (phrase : Phrase rowLevel bracketed (front.map lexeme) left)
    (shallow : left.nesting ≤ depth) :
    Explained depth rowLevel bracketed (front ++ rest)
      (chain keyword combine operand rounds left rest) := by
  induction rounds generalizing front rest left with
  | zero => exact ⟨front, rfl, short, phrase, shallow⟩
  | succ rounds ih =>
      rw [chain]
      split
      · next found =>
        obtain ⟨word, position, others, rfl, isKey⟩ := isKeyword_current found
        rw [List.tail_cons]
        have formed := (List.forall_mem_cons.mp wellFormed).2
        have explained := sound others formed
        cases outcome : operand others with
        | error refusal =>
            rw [outcome] at explained
            cases refusal with
            | integerTooLong =>
                obtain ⟨inner, long, behind, more, right, rfl, innerShort, tooLong, rightPhrase,
                  rightShallow⟩ := explained
                refine ⟨front ++ ⟨.word, word, position⟩ :: inner, long, behind, more,
                  combine left right, by simp, ?_, tooLong, ?_, ?_⟩
                · simpa [short_append, short_cons, lexeme, not_tooLong_word] using
                    ⟨short, innerShort⟩
                · simpa [lexeme] using join isKey phrase rightPhrase
                · rw [nests]
                  exact Nat.max_le.mpr ⟨shallow, rightShallow⟩
            | _ => trivial
        | ok result =>
            obtain ⟨right, behind⟩ := result
            rw [outcome] at explained
            obtain ⟨inner, rfl, innerShort, rightPhrase, rightShallow⟩ := explained
            have longer : Short ((front ++ ⟨.word, word, position⟩ :: inner).map lexeme) := by
              simpa [short_append, short_cons, lexeme, not_tooLong_word] using ⟨short, innerShort⟩
            have further := ih (List.forall_mem_append.mp formed).2 longer
              (by simpa [lexeme] using join isKey phrase rightPhrase)
              (by rw [nests]; exact Nat.max_le.mpr ⟨shallow, rightShallow⟩)
            rw [List.append_assoc] at further
            exact further
      · exact ⟨front, rfl, short, phrase, shallow⟩

theorem row_sound
    (lift : ∀ {lexemes expr}, Phrase operandLevel bracketed lexemes expr →
      Phrase rowLevel bracketed lexemes expr) :
    Sound depth rowLevel bracketed (row keyword combine operand) := by
  intro tokens wellFormed
  have explained := sound tokens wellFormed
  cases outcome : operand tokens with
  | error refusal =>
      rw [outcome] at explained
      rw [row_error outcome]
      cases refusal with
      | integerTooLong =>
          obtain ⟨front, long, behind, more, expr, eq, short, tooLong, phrase, shallow⟩ := explained
          exact ⟨front, long, behind, more, expr, eq, short, tooLong, lift phrase, shallow⟩
      | _ => trivial
  | ok result =>
      obtain ⟨expr, rest⟩ := result
      rw [outcome] at explained
      obtain ⟨front, rfl, short, phrase, shallow⟩ := explained
      rw [row_eq_chain outcome]
      exact chain_sound join nests sound rest.length (List.forall_mem_append.mp wellFormed).2 short
        (lift phrase) shallow

end

/-- A filter is explained if the operands nested as deeply are. -/
theorem expression_sound {depth : Nat} {bracketed : Bool}
    (sound : Sound depth .operand bracketed (negation depth bracketed)) :
    Sound depth .disjunction bracketed (expression (depth + 1) bracketed) := by
  intro tokens wellFormed
  rw [expression_eq]
  exact row_sound .or (fun _ _ => rfl) (row_sound .and (fun _ _ => rfl) sound .operand)
    .conjunction tokens wellFormed

/-- A word that is taken as a path is a URN of the registry or names an attribute. -/
theorem attribute_of_split {word : String} (isWord : Token.IsWord word) {path : AttributePath}
    (split : PathOf.split? word = some path) (notReserved : Text.lower word ≠ "not")
    (hasAttr : path.attr.isNone = false) : Attribute word path := by
  obtain rfl | ⟨uri, attr, sub, rfl, names⟩ := PathOf.split?_cases isWord split
  · cases hasAttr
  · exact .named names notReserved

theorem ofKeyword?_eq_some {word : String} {op : CompareOp}
    (found : CompareOp.ofKeyword? word = some op) : word = op.keyword := by
  have same := List.find?_some found
  simpa using (of_decide_eq_true same).symm

/-- Behind an attribute, an operator with its literal is taken. -/
theorem condition_sound {word : String} {path : AttributePath} (named : Attribute word path)
    (position depth : Nat) (bracketed : Bool) {tokens : List Token}
    (wellFormed : ∀ token ∈ tokens, WellFormed token.lexeme) :
    Explained (depth + 1) .operand bracketed (⟨.word, word, position⟩ :: tokens)
      (condition path tokens) := by
  cases tokens with
  | nil => trivial
  | cons token rest =>
      obtain ⟨kind, keyword, place⟩ := token
      by_cases isWord : kind = .word
      · subst isWord
        have short : Short [(.word, word), (.word, keyword)] :=
          short_cons.mpr ⟨not_tooLong_word word, short_singleton.mpr (not_tooLong_word keyword)⟩
        by_cases isPresent : Text.lower keyword = "pr"
        · rw [condition_present path isPresent]
          exact ⟨[⟨.word, word, position⟩, ⟨.word, keyword, place⟩], rfl, short,
            .present named isPresent, by simp [nesting]⟩
        · cases found : CompareOp.ofKeyword? (Text.lower keyword) with
          | none =>
              simp only [condition, current, found, isPresent]
              trivial
          | some op =>
              have isOp := ofKeyword?_eq_some found
              rw [condition_operator path isOp]
              have explained := literal_sound (List.forall_mem_cons.mp wellFormed).2
              cases outcome : literal rest with
              | error refusal =>
                  rw [outcome] at explained
                  cases refusal with
                  | integerTooLong =>
                      obtain ⟨long, behind, rfl, tooLong⟩ := explained
                      obtain ⟨value, isLiteral⟩ := tooLong.hasValue
                      exact ⟨[⟨.word, word, position⟩, ⟨.word, keyword, place⟩], long, behind, [],
                        .compare path op value, rfl, short, tooLong,
                        .compare named op isOp isLiteral, by simp [nesting]⟩
                  | _ => trivial
              | ok result =>
                  obtain ⟨value, behind⟩ := result
                  rw [outcome] at explained
                  obtain ⟨token, rfl, isLiteral, notLong⟩ := explained
                  exact ⟨[⟨.word, word, position⟩, ⟨.word, keyword, place⟩, token], rfl,
                    short_append.mpr ⟨short, short_singleton.mpr notLong⟩,
                    .compare named op isOp isLiteral, by simp [nesting]⟩
      · have refused : condition path (⟨kind, keyword, place⟩ :: rest) =
            .error (.at (.expected "operator") ⟨kind, keyword, place⟩) := by
          simp [condition, current, isWord]
        rw [refused]
        trivial

/-- Behind the word for a negation, an operand is taken. -/
theorem not_sound {word : String} (isNot : Text.lower word = "not") {depth : Nat} {bracketed : Bool}
    (sound : Sound depth .operand bracketed (negation depth bracketed)) (position : Nat)
    {tokens : List Token} (wellFormed : ∀ token ∈ tokens, WellFormed token.lexeme) :
    Explained (depth + 1) .operand bracketed (⟨.word, word, position⟩ :: tokens)
      (negation depth bracketed tokens >>= fun (expr, rest) => .ok (.not expr, rest)) := by
  have explained := sound tokens wellFormed
  cases outcome : negation depth bracketed tokens with
  | error refusal =>
      rw [outcome] at explained
      cases refusal with
      | integerTooLong =>
          obtain ⟨front, long, behind, more, expr, rfl, short, tooLong, phrase, shallow⟩ :=
            explained
          exact ⟨⟨.word, word, position⟩ :: front, long, behind, more, .not expr, rfl,
            short_cons.mpr ⟨not_tooLong_word word, short⟩, tooLong, .not isNot phrase,
            Nat.succ_le_succ shallow⟩
      | _ => trivial
  | ok result =>
      obtain ⟨expr, behind⟩ := result
      rw [outcome] at explained
      obtain ⟨front, rfl, short, phrase, shallow⟩ := explained
      exact ⟨⟨.word, word, position⟩ :: front, rfl,
        short_cons.mpr ⟨not_tooLong_word word, short⟩, .not isNot phrase,
        Nat.succ_le_succ shallow⟩

/-- A filter between marks that open and close it makes an operand. -/
theorem closed_sound (opening : List Token) (closing : String) (wrap : Filter → Filter)
    {kind : TokenKind} {what : String} {depth : Nat} {bracketed within : Bool}
    (sound : ∀ inner, depth = inner + 1 →
      Sound inner .disjunction within (expression depth within))
    (closes : ∀ text, WellFormed (kind, text) → text = closing) (other : kind ≠ .number)
    (opens : Short (opening.map lexeme))
    (wraps : ∀ {lexemes expr}, Phrase .disjunction within lexemes expr →
      Phrase .operand bracketed (opening.map lexeme ++ (lexemes ++ [(kind, closing)])) (wrap expr))
    (nests : ∀ expr, (wrap expr).nesting = expr.nesting + 2) {tokens : List Token}
    (wellFormed : ∀ token ∈ tokens, WellFormed token.lexeme) :
    Explained (depth + 1) .operand bracketed (opening ++ tokens)
      (closed kind what (expression depth within) tokens >>= fun (expr, rest) =>
        .ok (wrap expr, rest)) := by
  rw [closed]
  cases depth with
  | zero => trivial
  | succ inner =>
      have explained := sound inner rfl tokens wellFormed
      cases outcome : expression (inner + 1) within tokens with
      | error refusal =>
          rw [outcome] at explained
          cases refusal with
          | integerTooLong =>
              obtain ⟨front, long, behind, more, expr, rfl, short, tooLong, phrase, shallow⟩ :=
                explained
              refine ⟨opening ++ front, long, behind, more ++ [(kind, closing)], wrap expr,
                by simp, ?_, tooLong, ?_, ?_⟩
              · rw [List.map_append]
                exact short_append.mpr ⟨opens, short⟩
              · simpa using wraps phrase
              · rw [nests]
                exact Nat.add_le_add_right shallow 2
          | _ => trivial
      | ok result =>
          obtain ⟨expr, behind⟩ := result
          rw [outcome] at explained
          obtain ⟨front, rfl, short, phrase, shallow⟩ := explained
          cases behind with
          | nil => trivial
          | cons token rest =>
              obtain ⟨found, text, position⟩ := token
              by_cases same : found = kind
              · subst same
                have formed := wellFormed _ (List.mem_append_right front List.mem_cons_self)
                obtain rfl := closes text formed
                have ended : expect found what (⟨found, text, position⟩ :: rest) =
                    .ok (⟨found, text, position⟩, rest) := by
                  rw [expect, if_pos rfl]
                have notLong : ¬ TooLong (found, text) := not_tooLong other text
                simp only [bind, Except.bind, ended, pure, Except.pure]
                refine ⟨opening ++ (front ++ [⟨found, text, position⟩]), by simp, ?_, ?_, ?_⟩
                · rw [List.map_append, List.map_append]
                  exact short_append.mpr
                    ⟨opens, short_append.mpr ⟨short, short_singleton.mpr notLong⟩⟩
                · simpa [lexeme] using wraps phrase
                · rw [nests]
                  exact Nat.add_le_add_right shallow 2
              · have refused : expect kind what (⟨found, text, position⟩ :: rest) =
                    .error (.at (.expected what) ⟨found, text, position⟩) := by
                  rw [expect, if_neg same]
                simp only [bind, Except.bind, refused]
                trivial

section

variable {depth : Nat}
  (sound : ∀ inner, depth = inner + 1 → ∀ within,
    Sound inner .disjunction within (expression depth within))
include sound

/-- Behind an attribute, a filter in brackets or an operator is taken. -/
theorem attribute_sound {word : String} {bracketed : Bool} (notReserved : Text.lower word ≠ "not")
    (position : Nat) {tokens : List Token} (isWord : Token.IsWord word)
    (wellFormed : ∀ token ∈ tokens, WellFormed token.lexeme) :
    Explained (depth + 1) .operand bracketed (⟨.word, word, position⟩ :: tokens)
      (atom (expression depth) bracketed (⟨.word, word, position⟩ :: tokens)) := by
  cases split : (PathOf.split? word : Option AttributePath) with
  | none =>
      simp only [atom, current, attributePath, expect, split, if_true, bind, Except.bind]
      trivial
  | some path =>
      have taken : attributePath (⟨.word, word, position⟩ :: tokens) = .ok (path, tokens) := by
        simp [attributePath, expect, split, bind, Except.bind, pure, Except.pure]
      rw [atom_word (expression depth) bracketed taken]
      split
      · split
        · trivial
        · split
          · trivial
          · next bracket outside placed =>
            obtain rfl : bracketed = false := by simpa using outside
            obtain ⟨noSub, hasAttr⟩ : path.sub = none ∧ path.attr.isNone = false := by
              simpa [Option.isSome_iff_ne_none] using placed
            have named := attribute_of_split isWord split notReserved hasAttr
            cases tokens with
            | nil => cases bracket
            | cons token inner =>
                obtain ⟨kind, text, opening⟩ := token
                obtain rfl : kind = .lbracket := bracket
                obtain ⟨formed, behind⟩ := List.forall_mem_cons.mp wellFormed
                obtain rfl : text = "[" := formed
                rw [restriction_eq]
                split
                · trivial
                · refine closed_sound [⟨.word, word, position⟩, ⟨.lbracket, "[", opening⟩] "]"
                    (.valuePath path) (fun inner same => sound inner same true) (fun _ => id)
                    (by simp) ?_ (.valuePath named noSub) (fun _ => rfl) behind
                  exact short_cons.mpr ⟨not_tooLong_word word,
                    short_singleton.mpr (not_tooLong (by simp) "[")⟩
      · split
        · trivial
        · next hasAttr =>
          have named := attribute_of_split isWord split notReserved (Bool.eq_false_iff.mpr hasAttr)
          exact condition_sound named position depth bracketed wellFormed

/-- What is taken as an operand without a negation is one. -/
theorem atom_sound {token : Token} {bracketed : Bool} (notNot : isKeyword "not" token = false)
    {tokens : List Token} (wellFormed : ∀ item ∈ token :: tokens, WellFormed item.lexeme) :
    Explained (depth + 1) .operand bracketed (token :: tokens)
      (atom (expression depth) bracketed (token :: tokens)) := by
  obtain ⟨formed, behind⟩ := List.forall_mem_cons.mp wellFormed
  obtain ⟨kind, text, position⟩ := token
  cases kind with
  | lparen =>
      have opens : text = "(" := formed
      subst opens
      have eq : atom (expression depth) bracketed (⟨.lparen, "(", position⟩ :: tokens) =
          (closed .rparen "')'" (expression depth bracketed) tokens >>= fun (expr, rest) =>
            .ok (.group expr, rest)) := by
        simp [atom, current, closed]
        rfl
      rw [eq]
      exact closed_sound [⟨.lparen, "(", position⟩] ")" .group
        (fun inner same => sound inner same bracketed) (fun _ => id) (by simp)
        (short_singleton.mpr (not_tooLong (by simp) "(")) .group (fun _ => rfl) behind
  | word =>
      refine attribute_sound sound ?_ position formed behind
      simpa [isKeyword] using notNot
  | _ =>
      simp only [atom, current]
      trivial

end

/-- What is taken as an operand is one. -/
theorem negation_sound (depth : Nat) (bracketed : Bool) :
    Sound depth .operand bracketed (negation depth bracketed) := by
  induction depth using Nat.strong_induction_on generalizing bracketed with
  | _ depth ih =>
      intro tokens wellFormed
      cases depth with
      | zero => trivial
      | succ depth =>
          by_cases negated : isKeyword "not" (current tokens) = true
          · obtain ⟨word, position, rest, rfl, isNot⟩ := isKeyword_current negated
            rw [negation_not isNot]
            exact not_sound isNot (ih depth (Nat.lt_succ_self depth) bracketed) position
              (List.forall_mem_cons.mp wellFormed).2
          · rw [Bool.not_eq_true] at negated
            have sound : ∀ inner, depth = inner + 1 → ∀ within,
                Sound inner .disjunction within (expression depth within) := by
              rintro inner rfl within
              exact expression_sound (ih inner (by omega) within)
            cases tokens with
            | nil => trivial
            | cons token rest =>
                rw [current] at negated
                rw [negation_eq_atom negated]
                exact atom_sound sound negated wellFormed

end Scim.Filter
