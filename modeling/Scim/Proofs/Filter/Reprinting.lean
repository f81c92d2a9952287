import Scim.Proofs.Filter.RoundTrip

/-!
# The text of what was read

A filter that was read from a text is its own canonical tree, so its text reads back as
the very same tree.  The exception are numbers beyond the range of doubles, which are
read as infinities: an infinity is written as a word, or as something that is no token.
Neither is a number, so the text has fewer numbers than the filter has.
-/

namespace Scim

/-! ## Literals -/

/-- Whether a value is a number. -/
def Json.isNumber : Json → Bool
  | .int _ | .double _ => true
  | _ => false

/-- Whether a value is a number and neither an infinity nor a NaN. -/
def Json.isFiniteNumber : Json → Bool
  | .int _ | .double (.finite _) => true
  | _ => false

namespace Filter

open Token (Lexeme lexeme WellFormed Closed Yields)

/-- The literals of a filter, from left to right. -/
def literals : Filter → List Json
  | .compare _ _ value => [value]
  | .present _ => []
  | .and left right | .or left right => literals left ++ literals right
  | .not expr | .group expr | .valuePath _ expr => literals expr

/-- A filter whose numbers are finite. -/
def FiniteNumbers (expr : Filter) : Prop :=
  ∀ value ∈ expr.literals, value.isNumber → value.isFiniteNumber

/-! ## Phrases are canonical -/

theorem Phrase.operand_notOr {bracketed : Bool} {lexemes : List Lexeme} {expr : Filter}
    (phrase : Phrase .operand bracketed lexemes expr) : expr.isOr = false :=
  (Phrase.operand phrase).notOr

/-- The grammar derives canonical trees only. -/
theorem Phrase.canonical_eq {level : Level} {bracketed : Bool} {lexemes : List Lexeme}
    {expr : Filter} (phrase : Phrase level bracketed lexemes expr) : expr.canonical = expr := by
  induction phrase with
  | conjunction _ ih | operand _ ih => exact ih
  | or _ _ right leftIh rightIh =>
      rw [canonical, leftIh, rightIh, disjoin_conjunction _ right.notOr]
  | and _ left right leftIh rightIh =>
      rw [canonical, leftIh, rightIh, left.notOr, right.operand_notOr, grouped, grouped,
        conjoin_operand _ (by simpa using right.notAnd)]
      rfl
  | not _ operand ih =>
      rw [canonical, ih, operand.notAnd, operand.operand_notOr]
      rfl
  | group _ ih => rw [canonical, ih]
  | valuePath _ _ _ ih => rw [canonical, ih]
  | present | compare => rfl

/-! ## Phrases are expressible -/

theorem Attribute.readable {word : String} {path : AttributePath} (named : Attribute word path)
    (isWord : Token.IsWord word) : path.Readable := by
  obtain ⟨names, notReserved⟩ := named
  refine ⟨⟨word, isWord, names.split⟩, rfl, ?_⟩
  rintro rfl rfl attr ⟨⟩
  rw [names.bare rfl rfl]
  exact notReserved

/-- A literal that is no infinity is readable, unless it is an integer of too many digits. -/
theorem Literal.readable {lexeme : Lexeme} {value : Json} (isLiteral : Literal lexeme value)
    (short : ¬ TooLong lexeme) (finite : value.isNumber → value.isFiniteNumber) :
    value.Readable := by
  cases isLiteral with
  | string | bool | null => trivial
  | @integer _ negative digits numeral =>
      have bounded : digits.length ≤ Number.maxIntegerDigits := by
        by_contra long
        exact short ⟨rfl, negative, digits, numeral, Nat.lt_of_not_le long⟩
      exact Number.length_toDigits_natAbs numeral.parts.isWhole.2 bounded negative
  | double numeral notInteger reads =>
      generalize Number.Double.ofDecimal _ _ _ = d at finite ⊢
      cases d with
      | finite x => exact x.readDouble?_text
      | infinite => exact absurd (finite rfl) Bool.false_ne_true
      | nan => exact absurd (finite rfl) Bool.false_ne_true

/-- A filter that the grammar derives is expressible if its numbers are finite. -/
theorem Phrase.expressible {level : Level} {bracketed : Bool} {lexemes : List Lexeme}
    {expr : Filter} (phrase : Phrase level bracketed lexemes expr)
    (wellFormed : ∀ lexeme ∈ lexemes, WellFormed lexeme) (short : Short lexemes)
    (finite : expr.FiniteNumbers) : expr.Expressible bracketed := by
  induction phrase with
  | conjunction _ ih | operand _ ih => exact ih wellFormed short finite
  | or _ _ _ leftIh rightIh | and _ _ _ leftIh rightIh =>
      rw [List.forall_mem_append, List.forall_mem_cons] at wellFormed
      rw [short_append, short_cons] at short
      obtain ⟨leftFinite, rightFinite⟩ := List.forall_mem_append.mp finite
      exact ⟨leftIh wellFormed.1 short.1 leftFinite,
        rightIh wellFormed.2.2 short.2.2 rightFinite⟩
  | not _ _ ih =>
      exact ih (List.forall_mem_cons.mp wellFormed).2 (short_cons.mp short).2 finite
  | group _ ih =>
      rw [List.forall_mem_cons, List.forall_mem_append] at wellFormed
      rw [short_cons, short_append] at short
      exact ih wellFormed.2.1 short.2.1 finite
  | valuePath named noSub _ ih =>
      rw [List.forall_mem_cons, List.forall_mem_cons, List.forall_mem_append] at wellFormed
      rw [short_cons, short_cons, short_append] at short
      exact ⟨rfl, named.readable wellFormed.1, noSub, ih wellFormed.2.2.1 short.2.2.1 finite⟩
  | present named _ => exact named.readable (List.forall_mem_cons.mp wellFormed).1
  | compare named _ _ isLiteral =>
      rw [short_cons, short_cons, short_singleton] at short
      exact ⟨named.readable (List.forall_mem_cons.mp wellFormed).1,
        isLiteral.readable short.2.2 (List.forall_mem_singleton.mp finite)⟩

/-! ## Counting numbers -/

/-- How many lexemes are numbers. -/
def numberCount (lexemes : List Lexeme) : Nat := lexemes.countP (·.1 = .number)

theorem numberCount_append (first last : List Lexeme) :
    numberCount (first ++ last) = numberCount first + numberCount last := List.countP_append

theorem numberCount_cons {kind : TokenKind} (other : kind ≠ .number) (text : String)
    (lexemes : List Lexeme) : numberCount ((kind, text) :: lexemes) = numberCount lexemes :=
  List.countP_cons_of_neg (by simpa using other)

/-- A phrase has as many numbers as the filter that it forms. -/
theorem Phrase.numberCount {level : Level} {bracketed : Bool} {lexemes : List Lexeme}
    {expr : Filter} (phrase : Phrase level bracketed lexemes expr) :
    numberCount lexemes = expr.literals.countP Json.isNumber := by
  have word {text : String} {others : List Lexeme} :
      Filter.numberCount ((.word, text) :: others) = Filter.numberCount others :=
    numberCount_cons (by simp) text others
  induction phrase with
  | conjunction _ ih | operand _ ih => exact ih
  | or _ _ _ leftIh rightIh | and _ _ _ leftIh rightIh =>
      rw [numberCount_append, word, leftIh, rightIh, literals, List.countP_append]
  | not _ _ ih => rw [word, ih, literals]
  | group _ ih =>
      rw [numberCount_cons (by simp), numberCount_append, ih, literals,
        numberCount_cons (by simp)]
      rfl
  | valuePath _ _ _ ih =>
      rw [word, numberCount_cons (by simp), numberCount_append, ih, literals,
        numberCount_cons (by simp)]
      rfl
  | present => rfl
  | compare _ _ _ isLiteral => cases isLiteral <;> rfl

/-- A text that has so many numbers among its tokens, if it can be cut into tokens at all. -/
def Counts (text : List Char) (count : Nat) : Prop :=
  ∀ position rest tokens, Closed rest → Token.scan position 0 (text ++ rest) = .ok tokens →
    ∃ later, Token.scan (position + text.length) 0 rest = .ok later ∧
      numberCount (tokens.map lexeme) = count + numberCount (later.map lexeme)

theorem counts_of_yields {text : List Char} {lexemes : List Lexeme} (yields : Yields text lexemes) :
    Counts text (numberCount lexemes) := by
  intro position rest tokens closed cut
  obtain ⟨front, frontEq, scanned⟩ := yields position rest closed
  rw [cut] at scanned
  cases behind : Token.scan (position + text.length) 0 rest with
  | error refusal => simp [behind, Except.map] at scanned
  | ok later =>
      rw [behind] at scanned
      cases scanned
      exact ⟨later, rfl, by rw [List.map_append, numberCount_append, frontEq]⟩

theorem Counts.append {text more : List Char} {count others : Nat} (counts : Counts text count)
    (moreCounts : Counts more others) (closed : Closed more) :
    Counts (text ++ more) (count + others) := by
  intro position rest tokens restClosed cut
  rw [List.append_assoc] at cut
  obtain ⟨later, laterCut, laterCount⟩ := counts position _ tokens (closed.append restClosed) cut
  obtain ⟨last, lastCut, lastCount⟩ := moreCounts _ rest later restClosed laterCut
  refine ⟨last, ?_, by omega⟩
  rw [List.length_append, ← Nat.add_assoc]
  exact lastCut

theorem Counts.blank {text : List Char} {count : Nat} (counts : Counts text count) :
    Counts (' ' :: text) count := by
  intro position rest tokens closed cut
  rw [List.cons_append, Token.scan, if_pos (by decide)] at cut
  obtain ⟨later, laterCut, laterCount⟩ := counts _ rest tokens closed cut
  refine ⟨later, ?_, laterCount⟩
  rwa [List.length_cons, Nat.add_comm text.length, ← Nat.add_assoc]

/-- A mark in front of a text is no number. -/
theorem Counts.mark {text : List Char} {count : Nat} (counts : Counts text count) {c : Char}
    {kind : TokenKind} (found : ∀ rest, Token.lexeme? (c :: rest) = some (kind, [c]))
    (visible : Text.isBlank c = false) (other : kind ≠ .number) : Counts (c :: text) count := by
  intro position rest tokens closed cut
  have first : Token.scan position 0 (c :: [] ++ (text ++ rest)) = _ :=
    Token.scan_token visible (found _) position
  rw [List.cons_append, List.nil_append, List.length_singleton] at first
  rw [List.cons_append, first] at cut
  cases inner : Token.scan (position + 1) 0 (text ++ rest) with
  | error refusal => simp [inner, Except.map] at cut
  | ok behind =>
      rw [inner] at cut
      cases cut
      obtain ⟨later, laterCut, laterCount⟩ := counts _ rest behind closed inner
      refine ⟨later, ?_, ?_⟩
      · rwa [List.length_cons, Nat.add_comm text.length, ← Nat.add_assoc]
      · rw [List.map_cons, lexeme, numberCount_cons other, laterCount]

theorem lexeme?_lparen (rest : List Char) : Token.lexeme? ('(' :: rest) = some (.lparen, ['(']) :=
  rfl

theorem lexeme?_lbracket (rest : List Char) :
    Token.lexeme? ('[' :: rest) = some (.lbracket, ['[']) := rfl

/-- A keyword between two texts is no number. -/
theorem Counts.between {left right : List Char} {count others : Nat} {keyword : String}
    (isWord : Token.IsWord keyword) (leftCounts : Counts left count)
    (rightCounts : Counts right others) :
    Counts (left ++ ' ' :: (keyword.toList ++ ' ' :: right)) (count + others) := by
  have word : Counts keyword.toList 0 := counts_of_yields (.word isWord)
  have behind := (word.append rightCounts.blank rfl).blank
  rw [Nat.zero_add] at behind
  exact leftCounts.append behind rfl

/-- The text of a literal has one number if that is finite, and else none. -/
theorem Literal.counts {lexeme : Lexeme} {value : Json} (isLiteral : Literal lexeme value) :
    Counts value.compact.toList ([value].countP Json.isFiniteNumber) := by
  cases isLiteral with
  | @string _ s => exact counts_of_yields (yields_literal (show (Json.str s).Readable from trivial))
  | integer => exact counts_of_yields (.int _)
  | double =>
      generalize Number.Double.ofDecimal _ _ _ = d
      cases d with
      | finite x => exact counts_of_yields (.double x)
      | infinite negative =>
          cases negative with
          | true =>
              intro position rest tokens _ cut
              have none : Token.lexeme? ('-' :: ("Infinity".toList ++ rest)) = none := by
                have letter : Text.isDigit 'I' = false := by decide
                simp [Token.lexeme?, Token.magnitude, Token.digits, letter]
              change Token.scan position 0 ('-' :: ("Infinity".toList ++ rest)) = .ok tokens at cut
              rw [Token.scan, if_neg (by decide), none] at cut
              cases cut
          | false => exact counts_of_yields (.word (show Token.IsWord "Infinity" by decide))
      | nan => exact counts_of_yields (.word (show Token.IsWord "NaN" by decide))
  | bool b => exact counts_of_yields (yields_literal (show (Json.bool b).Readable from trivial))
  | null => exact counts_of_yields (yields_literal (show Json.null.Readable from trivial))

theorem Attribute.counts {word : String} {path : AttributePath} (named : Attribute word path)
    (isWord : Token.IsWord word) : Counts (pathText path).toList 0 :=
  counts_of_yields (.word (named.readable isWord).fromWord.wordOf.isWord)

/-- The text of a filter that the grammar derives has as many numbers as the filter has finite
ones. -/
theorem Phrase.counts {level : Level} {bracketed : Bool} {lexemes : List Lexeme} {expr : Filter}
    (phrase : Phrase level bracketed lexemes expr)
    (wellFormed : ∀ lexeme ∈ lexemes, WellFormed lexeme) (short : Short lexemes) :
    Counts expr.text.toList (expr.literals.countP Json.isFiniteNumber) := by
  induction phrase with
  | conjunction _ ih | operand _ ih => exact ih wellFormed short
  | or _ _ _ leftIh rightIh =>
      rw [List.forall_mem_append, List.forall_mem_cons] at wellFormed
      rw [short_append, short_cons] at short
      have counts := (leftIh wellFormed.1 short.1).between (show Token.IsWord "or" by decide)
        (rightIh wellFormed.2.2 short.2.2)
      simpa [text, literals] using counts
  | and _ left right leftIh rightIh =>
      rw [List.forall_mem_append, List.forall_mem_cons] at wellFormed
      rw [short_append, short_cons] at short
      have counts := (leftIh wellFormed.1 short.1).between (show Token.IsWord "and" by decide)
        (rightIh wellFormed.2.2 short.2.2)
      simpa [text, literals, left.notOr, right.operand_notOr, parenthesized] using counts
  | not _ operand ih =>
      have word : Counts "not".toList 0 := counts_of_yields (.word (by decide))
      have counts := word.append
        (ih (List.forall_mem_cons.mp wellFormed).2 (short_cons.mp short).2).blank rfl
      simpa [text, literals, operand.notAnd, operand.operand_notOr, parenthesized] using counts
  | group _ ih =>
      rw [List.forall_mem_cons, List.forall_mem_append] at wellFormed
      rw [short_cons, short_append] at short
      have inside := ih wellFormed.2.1 short.2.1
      have closing : Counts [')'] 0 := counts_of_yields Yields.nil.rparen
      have counts := (inside.append closing rfl).mark (fun rest => lexeme?_lparen rest)
        (by decide) (by simp)
      simpa [text, literals] using counts
  | valuePath named noSub _ ih =>
      rw [List.forall_mem_cons, List.forall_mem_cons, List.forall_mem_append] at wellFormed
      rw [short_cons, short_cons, short_append] at short
      have inside := ih wellFormed.2.2.1 short.2.2.1
      have closing : Counts [']'] 0 := counts_of_yields Yields.nil.rbracket
      have brackets := (inside.append closing rfl).mark (fun rest => lexeme?_lbracket rest)
        (by decide) (by simp)
      have counts := (named.counts wellFormed.1).append brackets rfl
      simpa [text, literals] using counts
  | present named _ =>
      have word : Counts "pr".toList 0 := counts_of_yields (.word (by decide))
      have counts := (named.counts (List.forall_mem_cons.mp wellFormed).1).append word.blank rfl
      simpa [text, literals] using counts
  | compare named op _ isLiteral =>
      rw [short_cons, short_cons, short_singleton] at short
      have counts := (named.counts (List.forall_mem_cons.mp wellFormed).1).between
        (isWord_keyword op) isLiteral.counts
      simpa [text, literals] using counts

/-! ## Reading back -/

theorem isFiniteNumber_isNumber {value : Json} (finite : value.isFiniteNumber = true) :
    value.isNumber = true := by
  cases value with
  | int | double => rfl
  | _ => cases finite

/-- A filter has as many finite numbers as numbers only if its numbers are finite. -/
theorem finiteNumbers_of_count {values : List Json}
    (same : values.countP Json.isNumber = values.countP Json.isFiniteNumber) :
    ∀ value ∈ values, value.isNumber → value.isFiniteNumber := by
  induction values with
  | nil => nofun
  | cons value rest ih =>
      have fewer : rest.countP Json.isFiniteNumber ≤ rest.countP Json.isNumber :=
        List.countP_mono_left fun value _ => isFiniteNumber_isNumber
      rw [List.countP_cons, List.countP_cons] at same
      have first : value.isNumber → value.isFiniteNumber := by
        intro number
        by_contra infinite
        rw [if_pos number, if_neg infinite] at same
        omega
      refine List.forall_mem_cons.mpr ⟨first, ih ?_⟩
      by_cases number : value.isNumber = true
      · rw [if_pos number, if_pos (first number)] at same
        omega
      · rw [if_neg number, if_neg (mt isFiniteNumber_isNumber number)] at same
        omega

/-- What was read comes from well-formed lexemes of which no integer is too long. -/
theorem phrase_of_parse {text : String} {expr : Filter} (parsed : parse text = .ok expr) :
    ∃ lexemes, (∀ lexeme ∈ lexemes, WellFormed lexeme) ∧ Short lexemes ∧
      Phrase .disjunction false lexemes expr ∧ expr.nesting < maxNesting := by
  obtain ⟨tokens, _, _, _, wellFormed, short, phrase, shallow⟩ :=
    read_sound (parse_eq_ok_iff.mp parsed)
  exact ⟨tokens.map lexeme, List.forall_mem_map.mpr wellFormed, short, phrase, shallow⟩

/-- A filter that was read is expressible if its numbers are finite. -/
theorem expressible_of_parse {text : String} {expr : Filter} (parsed : parse text = .ok expr)
    (finite : expr.FiniteNumbers) : expr.Expressible false := by
  obtain ⟨_, wellFormed, short, phrase, _⟩ := phrase_of_parse parsed
  exact phrase.expressible wellFormed short finite

/-- The text of a filter that was read reads back if the numbers of the filter are finite. -/
theorem parse_text_of_finite {text : String} {expr : Filter} (parsed : parse text = .ok expr)
    (finite : expr.FiniteNumbers) : parse expr.text = .ok expr := by
  obtain ⟨_, _, _, phrase, shallow⟩ := phrase_of_parse parsed
  have canonical := phrase.canonical_eq
  have found := read_text (expressible_of_parse parsed finite) (by rwa [canonical])
  rw [canonical] at found
  exact parse_eq_ok_iff.mpr found

/-- The text of a filter that was read reads back as the same tree exactly if the numbers of the
filter are finite. -/
theorem parse_text_eq_iff {text : String} {expr : Filter} (parsed : parse text = .ok expr) :
    parse expr.text = .ok expr ↔ expr.FiniteNumbers := by
  constructor
  · intro again
    obtain ⟨lexemes, wellFormed, short, phrase, _⟩ := phrase_of_parse parsed
    obtain ⟨others, ending, cut, ends, _, _, phraseAgain, _⟩ :=
      read_sound (parse_eq_ok_iff.mp again)
    have counts := phrase.counts wellFormed short 0 [] (others ++ [ending]) trivial
    rw [List.append_nil] at counts
    obtain ⟨later, laterCut, count⟩ := counts cut
    cases laterCut
    refine finiteNumbers_of_count ?_
    rw [← phraseAgain.numberCount]
    rw [List.map_append, numberCount_append] at count
    have last : numberCount ([ending].map lexeme) = 0 := by simp [numberCount, lexeme, ends]
    have eof (position : Nat) : numberCount ([⟨.eof, "", position⟩].map lexeme) = 0 := rfl
    rw [last, eof] at count
    simpa using count
  · exact parse_text_of_finite parsed

theorem finiteNumbers_sample : sample.canonical.FiniteNumbers := by
  simp [FiniteNumbers, sample, canonical, literals, Json.isFiniteNumber, Json.isNumber, grouped,
    conjoin, disjoin, isOr, isAnd]

/-- The canonical tree of a filter with every kind of literal reads back from its text. -/
theorem parse_text_eq_iff_sample :
    parse sample.text = .ok sample.canonical ∧ sample.canonical.FiniteNumbers ∧
      parse sample.canonical.text = .ok sample.canonical := by
  have parsed : parse sample.text = .ok sample.canonical :=
    parse_eq_ok_iff.mpr (read_text expressible_sample (by decide))
  exact ⟨parsed, finiteNumbers_sample, (parse_text_eq_iff parsed).mpr finiteNumbers_sample⟩

/-- A number beyond the range of doubles is read, but its text is refused. -/
theorem not_parse_text_infinity :
    ∃ expr, parse "a gt 1e400" = .ok expr ∧ (parse expr.text).isOk = false := by
  have evaluated : ((parse "a gt 1e400").toOption.all fun expr =>
      (parse expr.text).isOk) = false := by
    decide +kernel
  cases parsed : parse "a gt 1e400" with
  | error failure => simp [parsed, Except.toOption] at evaluated
  | ok expr => exact ⟨expr, rfl, by simpa [parsed, Except.toOption] using evaluated⟩

/-! ## The ends of the text -/

end Filter

end Scim
