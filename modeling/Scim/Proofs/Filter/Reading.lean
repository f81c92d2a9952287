import Mathlib.Algebra.Group.Int.Defs
import Scim.Proofs.Filter.Parsing

/-!
# Texts that are filters

A text is read as a filter exactly if the grammar derives the filter from its tokens, and
any other text is refused as an invalid filter.  There is one exception: an integer may
have more digits than the reader can convert.  Where the grammar gets to such an integer
the reader breaks down instead, whatever stands behind it.
-/

namespace Scim.Filter

open Token (Lexeme lexeme WellFormed)

/-! ## Texts and phrases -/

/-- The grammar derives a filter from the tokens of a text. -/
def Derives (text : String) (expr : Filter) : Prop :=
  ∃ tokens last, Token.tokenize text = .ok (tokens ++ [last]) ∧ last.kind = .eof ∧
    Phrase .disjunction false (tokens.map lexeme) expr

/-- The tokens of a text, up to an integer of too many digits, start a filter of the grammar. -/
def Overruns (text : String) : Prop :=
  ∃ front long rest more expr, Token.tokenize text = .ok (front ++ long :: rest) ∧
    Short (front.map lexeme) ∧ TooLong long.lexeme ∧
    Phrase .disjunction false (front.map lexeme ++ long.lexeme :: more) expr ∧
    expr.nesting < maxNesting

/-- The end of a text is no part of a phrase. -/
theorem Phrase.noEnd {level : Level} {bracketed : Bool} {lexemes : List Lexeme} {expr : Filter}
    (phrase : Phrase level bracketed lexemes expr) : ∀ lexeme ∈ lexemes, lexeme.1 ≠ .eof := by
  induction phrase with
  | conjunction _ ih | operand _ ih => exact ih
  | or _ _ _ leftIh rightIh | and _ _ _ leftIh rightIh =>
      exact List.forall_mem_append.mpr ⟨leftIh, List.forall_mem_cons.mpr ⟨nofun, rightIh⟩⟩
  | not _ _ ih => exact List.forall_mem_cons.mpr ⟨nofun, ih⟩
  | group _ ih =>
      exact List.forall_mem_cons.mpr ⟨nofun, List.forall_mem_append.mpr ⟨ih, by simp⟩⟩
  | valuePath _ _ _ ih =>
      exact List.forall_mem_cons.mpr ⟨nofun, List.forall_mem_cons.mpr ⟨nofun,
        List.forall_mem_append.mpr ⟨ih, by simp⟩⟩⟩
  | present => simp
  | compare _ _ _ isLiteral => cases isLiteral <;> simp

theorem current_ne_eof {level : Level} {bracketed : Bool} {lexemes : List Lexeme} {expr : Filter}
    (phrase : Phrase level bracketed lexemes expr) {tokens : List Token}
    (eq : tokens.map lexeme = lexemes) (rest : List Token) :
    (current (tokens ++ rest)).kind ≠ .eof := by
  obtain ⟨kind, text, more, rfl, starts⟩ := phrase.starts
  obtain ⟨position, others, rfl, _⟩ := map_lexeme_eq_cons eq
  obtain rfl | rfl := starts <;> simp [current]

theorem expression_maxNesting (bracketed : Bool) (tokens : List Token) :
    expression maxNesting bracketed tokens =
      levelParser (maxNesting - 1) .disjunction bracketed tokens :=
  expression_eq (maxNesting - 1) bracketed tokens

/-! ## What is read -/

/-- A filter that the grammar derives is read, if it has no integer of too many digits and is not
nested too deeply. -/
theorem read_of_phrase {text : String} {tokens : List Token} {last : Token} {expr : Filter}
    (cut : Token.tokenize text = .ok (tokens ++ [last])) (ends : last.kind = .eof)
    (phrase : Phrase .disjunction false (tokens.map lexeme) expr)
    (short : Short (tokens.map lexeme)) (shallow : expr.nesting < maxNesting) :
    read text = .ok expr := by
  have atEnd : (current [last]).kind = .eof := ends
  have stops : Ends [last] := ends_of_kind (by rw [ends]; decide) []
  have taken : expression maxNesting false (tokens ++ [last]) = .ok (expr, [last]) :=
    (phrase.followed short (show _ ≤ maxNesting - 1 by omega)).taken tokens [last] rfl stops
  have first := current_ne_eof phrase rfl [last]
  simp [read, cut, ofTokens, first, taken, atEnd, bind, Except.bind, pure, Except.pure]

/-- Where the grammar gets to an integer of too many digits, the reader breaks down. -/
theorem read_of_overruns {text : String} (overruns : Overruns text) :
    read text = .error .integerTooLong := by
  obtain ⟨front, long, rest, more, expr, cut, short, tooLong, phrase, shallow⟩ := overruns
  have failed := phrase.interrupted (show _ ≤ maxNesting - 1 by omega) tooLong short rfl front rfl
    rest
  have first : (current (front ++ long :: rest)).kind ≠ .eof := by
    cases front with
    | nil =>
        have number : long.kind = .number := tooLong.1
        simp [current, number]
    | cons token others => exact phrase.noEnd token.lexeme (by simp)
  rw [← expression_maxNesting] at failed
  simp [read, cut, ofTokens, first, failed, bind, Except.bind]

theorem read_eq_ok {text : String} {expr : Filter} (found : read text = .ok expr) :
    ∃ tokens rest, Token.tokenize text = .ok tokens ∧
      expression maxNesting false tokens = .ok (expr, rest) ∧ (current rest).kind = .eof := by
  rw [read] at found
  cases cut : Token.tokenize text with
  | error refusal => simp [cut] at found
  | ok tokens =>
      simp only [cut, ofTokens] at found
      split at found
      · cases found
      · cases outcome : expression maxNesting false tokens with
        | error refusal => simp [outcome, bind, Except.bind] at found
        | ok result =>
            obtain ⟨taken, rest⟩ := result
            simp only [outcome, bind, Except.bind] at found
            split at found
            · next atEnd =>
              cases found
              exact ⟨tokens, rest, rfl, outcome, atEnd⟩
            · cases found

theorem read_eq_tooLong {text : String} (found : read text = .error .integerTooLong) :
    ∃ tokens, Token.tokenize text = .ok tokens ∧
      expression maxNesting false tokens = .error .integerTooLong := by
  rw [read] at found
  cases cut : Token.tokenize text with
  | error refusal => cases refusal <;> simp [cut, Refusal.ofToken] at found
  | ok tokens =>
      simp only [cut, ofTokens] at found
      split at found
      · cases found
      · cases outcome : expression maxNesting false tokens with
        | error refusal =>
            simp only [outcome, bind, Except.bind, Except.error.injEq] at found
            exact ⟨tokens, rfl, found ▸ outcome⟩
        | ok result =>
            simp only [outcome, bind, Except.bind] at found
            split at found <;> cases found

/-- What a text is read as is explained by its tokens. -/
theorem explained_read {text : String} {tokens : List Token}
    (cut : Token.tokenize text = .ok tokens) :
    Explained (maxNesting - 1) .disjunction false tokens (expression maxNesting false tokens) :=
  expression_sound (negation_sound (maxNesting - 1) false) tokens (Token.wellFormed_of_scan cut)

/-- What is read of a text is derived from its tokens by the grammar. -/
theorem read_sound {text : String} {expr : Filter} (found : read text = .ok expr) :
    ∃ tokens last, Token.tokenize text = .ok (tokens ++ [last]) ∧ last.kind = .eof ∧
      (∀ token ∈ tokens, WellFormed token.lexeme) ∧ Short (tokens.map lexeme) ∧
      Phrase .disjunction false (tokens.map lexeme) expr ∧ expr.nesting < maxNesting := by
  obtain ⟨tokens, rest, cut, taken, atEnd⟩ := read_eq_ok found
  have explained := explained_read cut
  obtain ⟨items, last, rfl, ends, formed⟩ := Token.tokenize_wellFormed cut
  rw [taken] at explained
  obtain ⟨front, eq, short, phrase, shallow⟩ := explained
  -- the only end of the text stands behind all of its tokens
  obtain ⟨rfl, rfl⟩ : items = front ∧ rest = [last] := by
    have inner : ∀ token ∈ front, token.kind ≠ .eof := by
      intro token held
      exact phrase.noEnd token.lexeme (List.mem_map_of_mem held)
    rcases List.append_eq_append_iff.mp eq with ⟨behind, rfl, lastEq⟩ | ⟨behind, rfl, restEq⟩
    · cases behind with
      | nil => exact ⟨by simp, by simpa using lastEq.symm⟩
      | cons token others =>
          obtain ⟨rfl, _⟩ := List.cons.inj lastEq
          exact absurd ends (inner last (by simp))
    · cases behind with
      | nil => exact ⟨by simp, restEq⟩
      | cons token others =>
          rw [restEq] at atEnd
          exact absurd atEnd (formed token (by simp)).1
  exact ⟨items, last, cut, ends, fun token held => (formed token held).2, short, phrase,
    Nat.lt_of_le_of_lt shallow (by decide)⟩

/-- Where the reader breaks down, the grammar gets to an integer of too many digits. -/
theorem overruns_of_read {text : String} (found : read text = .error .integerTooLong) :
    Overruns text := by
  obtain ⟨tokens, cut, failed⟩ := read_eq_tooLong found
  have explained := explained_read cut
  rw [failed] at explained
  obtain ⟨front, long, rest, more, expr, rfl, short, tooLong, phrase, shallow⟩ := explained
  exact ⟨front, long, rest, more, expr, cut, short, tooLong, phrase,
    Nat.lt_of_le_of_lt shallow (by decide)⟩

/-! ## Reading by the grammar -/

/-- The first integer of too many digits. -/
theorem exists_tooLong {tokens : List Token} (long : ¬ Short (tokens.map lexeme)) :
    ∃ front token rest, tokens = front ++ token :: rest ∧ Short (front.map lexeme) ∧
      TooLong token.lexeme := by
  induction tokens with
  | nil => exact absurd (by simp [Short]) long
  | cons first others ih =>
      by_cases tooLong : TooLong first.lexeme
      · exact ⟨[], first, others, rfl, by simp [Short], tooLong⟩
      · have later : ¬ Short (others.map lexeme) := by
          intro short
          exact long (short_cons.mpr ⟨tooLong, short⟩)
        obtain ⟨front, token, rest, rfl, short, found⟩ := ih later
        exact ⟨first :: front, token, rest, rfl, short_cons.mpr ⟨tooLong, short⟩, found⟩

/-- A text is read as the filter that the grammar derives from it, if that is not nested too
deeply, and any other text is refused as an invalid filter. -/
structure GoesByGrammar (text : String) : Prop where
  accepts : ∀ expr, parse text = .ok expr ↔ Derives text expr ∧ expr.nesting < maxNesting
  refuses : ∀ failure, parse text = .error failure →
    ∃ reason position fragment, failure = .scim (.invalidFilter reason position fragment)

theorem parse_eq_ok_iff {text : String} {expr : Filter} :
    parse text = .ok expr ↔ read text = .ok expr := by
  rw [parse]
  cases read text with
  | error refusal => simp [Except.mapError]
  | ok result => simp [Except.mapError]

theorem Overruns.not_goesByGrammar {text : String} (overruns : Overruns text) :
    ¬ GoesByGrammar text := by
  intro goes
  have broken : parse text = .error (.fault .badArgument) := by
    rw [parse, read_of_overruns overruns]
    rfl
  obtain ⟨_, _, _, refused⟩ := goes.refuses _ broken
  cases refused

/-- Reading goes by the grammar except where that gets to an integer of too many digits. -/
theorem goesByGrammar_iff (text : String) : GoesByGrammar text ↔ ¬ Overruns text := by
  constructor
  · exact fun goes overruns => overruns.not_goesByGrammar goes
  · intro fits
    refine ⟨fun expr => ⟨?_, ?_⟩, ?_⟩
    · intro parsed
      obtain ⟨tokens, last, cut, ends, _, _, phrase, shallow⟩ :=
        read_sound (parse_eq_ok_iff.mp parsed)
      exact ⟨⟨tokens, last, cut, ends, phrase⟩, shallow⟩
    · rintro ⟨⟨tokens, last, cut, ends, phrase⟩, shallow⟩
      by_cases short : Short (tokens.map lexeme)
      · exact parse_eq_ok_iff.mpr (read_of_phrase cut ends phrase short shallow)
      · obtain ⟨front, long, rest, rfl, shortFront, tooLong⟩ := exists_tooLong short
        refine absurd ⟨front, long, rest ++ [last], rest.map lexeme, expr, ?_, shortFront, tooLong,
          ?_, shallow⟩ fits
        · rw [cut, List.append_assoc, List.cons_append]
        · simpa using phrase
    · intro failure refused
      rw [parse] at refused
      cases found : read text with
      | ok expr => simp [found, Except.mapError] at refused
      | error refusal =>
          rw [found] at refused
          cases refused
          cases refusal with
          | malformed => exact ⟨_, _, _, rfl⟩
          | tooDeep => exact ⟨_, _, _, rfl⟩
          | integerTooLong => exact absurd (overruns_of_read found) fits

/-! ## A text that breaks the reader -/

/-- An integer that is too long is too long as a token. -/
theorem tooLong_toString {n : Int}
    (long : Number.maxIntegerDigits < (Nat.toDigits 10 n.natAbs).length) :
    TooLong (.number, toString n) := ⟨rfl, _, _, Number.isNumeral_toString n, long⟩

/-- The grammar derives a comparison with an integer, however long that is. -/
theorem phrase_compare_long {path : AttributePath} (readable : path.Readable) (op : CompareOp)
    {long : Lexeme} (tooLong : TooLong long) (bracketed : Bool) :
    ∃ expr, Phrase .disjunction bracketed [(.word, pathText path), (.word, op.keyword), long] expr ∧
      expr.nesting < maxNesting := by
  obtain ⟨value, isLiteral⟩ := tooLong.hasValue
  have lower : Text.lower op.keyword = op.keyword := by cases op <;> decide
  exact ⟨.compare path op value,
    .conjunction (.operand (.compare (.of_readable readable) op lower isLiteral)),
    show 1 < maxNesting by decide⟩

theorem short_words (first second : String) : Short [(.word, first), (.word, second)] :=
  short_cons.mpr ⟨not_tooLong_word first, short_singleton.mpr (not_tooLong_word second)⟩

/-- A comparison with an integer of too many digits breaks the reader, whatever stands behind. -/
theorem overruns_compare_append {path : AttributePath} (readable : path.Readable) (op : CompareOp)
    {n : Int} (long : Number.maxIntegerDigits < (Nat.toDigits 10 n.natAbs).length) {text : String}
    {more : List Char} (chars : text.toList = (compare path op (.int n)).text.toList ++ more)
    {others : List Lexeme} (yields : Token.Yields more others) (closed : Token.Closed more) :
    Overruns text := by
  have valueYields : Token.Yields (Json.compact (.int n)).toList [literalLexeme (.int n)] := .int n
  have whole := (yields_compare readable.fromWord op valueYields).append yields closed
  rw [← chars] at whole
  obtain ⟨tokens, last, cut, tokensEq, _⟩ := whole.tokenize
  obtain ⟨position, words, rfl, wordsEq⟩ := map_lexeme_eq_cons tokensEq
  obtain ⟨place, values, rfl, valuesEq⟩ := map_lexeme_eq_cons wordsEq
  obtain ⟨value, rest, rfl, numeral, _⟩ := List.map_eq_cons_iff.mp valuesEq
  have tooLong : TooLong value.lexeme := numeral ▸ tooLong_toString long
  obtain ⟨expr, phrase, shallow⟩ := phrase_compare_long readable op tooLong false
  refine ⟨[⟨.word, pathText path, position⟩, ⟨.word, op.keyword, place⟩], value, rest ++ [last], [],
    expr, ?_, short_words _ _, tooLong, phrase, shallow⟩
  rw [cut]
  simp

/-- A comparison with an integer of too many digits breaks the reader. -/
theorem overruns_compare {path : AttributePath} (readable : path.Readable) (op : CompareOp)
    {n : Int} (long : Number.maxIntegerDigits < (Nat.toDigits 10 n.natAbs).length) :
    Overruns (compare path op (.int n)).text :=
  overruns_compare_append readable op long (List.append_nil _).symm .nil trivial

theorem readable_a : (.plain "a" : AttributePath).Readable :=
  ⟨⟨"a", by decide, rfl⟩, rfl, fun _ _ _ same => Option.some.inj same ▸ by decide⟩

/-- The least power of ten that is too long to be read. -/
theorem long_tenTo : Number.maxIntegerDigits <
    (Nat.toDigits 10 ((10 : Int) ^ Number.maxIntegerDigits).natAbs).length := by
  rw [Int.natAbs_pow, show (10 : Int).natAbs = 10 from rfl, ← Nat.not_le,
    Nat.length_toDigits_le_iff (by decide) (by decide), Nat.not_lt]

/-- A comparison with an integer of 4301 digits is a filter of the grammar, but reading it fails
with an error that is no refusal. -/
theorem not_goesByGrammar_long :
    ¬ GoesByGrammar ("a eq " ++ toString ((10 : Int) ^ Number.maxIntegerDigits)) := by
  have front : pathText (.plain "a") ++ " " ++ CompareOp.eq.keyword ++ " " = "a eq " := by decide
  have overruns := overruns_compare readable_a .eq long_tenTo
  rw [text, front] at overruns
  exact overruns.not_goesByGrammar

end Scim.Filter
