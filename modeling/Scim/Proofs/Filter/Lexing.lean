import Mathlib.Data.List.TakeWhile
import Scim.Filter.Printer
import Scim.Proofs.Json.Strings
import Scim.Proofs.Number.Numerals

/-!
# Cutting the text of a filter

What a text is cut into does not depend on where it stands, as long as a token does not
go on in what follows.  A text that yields some lexemes keeps doing so in front of any
text that closes them, so the lexemes of a filter are put together like its text.
-/

namespace Scim.Token

/-! ## Lexemes -/

/-- A token without its position. -/
abbrev Lexeme := TokenKind × String

/-- The kind and the text of a token. -/
def lexeme (token : Token) : Lexeme := (token.kind, token.text)

/-- A character that ends the word or number before it. -/
def isCloser (c : Char) : Bool := c == ' ' || c == ')' || c == '[' || c == ']'

/-- A text at whose start no word or number goes on. -/
def Closed : List Char → Prop
  | [] => True
  | c :: _ => isCloser c = true

theorem Closed.append {text rest : List Char} (closed : Closed text) (restClosed : Closed rest) :
    Closed (text ++ rest) := by
  cases text with
  | nil => exact restClosed
  | cons c more => exact closed

/-- What closers are not, no closed text starts with. -/
theorem Closed.takeWhile_append {rest : List Char} (closed : Closed rest) {p : Char → Bool}
    (stops : ∀ c, isCloser c = true → p c = false) {text : List Char}
    (all : ∀ c ∈ text, p c = true) : (text ++ rest).takeWhile p = text := by
  rw [List.takeWhile_append_of_pos all]
  cases rest with
  | nil => simp
  | cons c more => rw [List.takeWhile_cons_of_neg (by simp [stops c closed]), List.append_nil]

theorem isCloser_cases {c : Char} (closer : isCloser c = true) :
    c = ' ' ∨ c = ')' ∨ c = '[' ∨ c = ']' := by
  simpa [isCloser, or_assoc] using closer

/-- A text that yields some lexemes in front of any closed text. -/
def Yields (text : List Char) (lexemes : List Lexeme) : Prop :=
  ∀ position rest, Closed rest → ∃ tokens, tokens.map lexeme = lexemes ∧
    scan position 0 (text ++ rest) =
      (scan (position + text.length) 0 rest).map (tokens ++ ·)

/-! ## Scanning -/

theorem scan_skip (position : Nat) (text rest : List Char) :
    scan position text.length (text ++ rest) = scan (position + text.length) 0 rest := by
  induction text generalizing position with
  | nil => rfl
  | cons c more ih =>
      rw [List.length_cons, List.cons_append, scan, ih]
      congr 1
      omega

/-- The token at the start of a text comes first, and the scan goes on behind it. -/
theorem scan_token {kind : TokenKind} {c : Char} {chars rest : List Char}
    (visible : Text.isBlank c = false)
    (found : lexeme? (c :: chars ++ rest) = some (kind, c :: chars)) (position : Nat) :
    scan position 0 (c :: chars ++ rest) =
      (scan (position + (c :: chars).length) 0 rest).map
        (⟨kind, String.ofList (c :: chars), position⟩ :: ·) := by
  rw [List.cons_append] at found ⊢
  rw [scan, visible, if_neg Bool.false_ne_true, found]
  dsimp only
  rw [List.length_cons, Nat.add_sub_cancel, scan_skip, Nat.add_right_comm, Nat.add_assoc]
  cases scan (position + (chars.length + 1)) 0 rest <;> rfl

variable {text more : List Char} {lexemes others : List Lexeme}

theorem Yields.nil : Yields [] [] := by
  intro position rest _
  refine ⟨[], rfl, ?_⟩
  rw [List.nil_append, List.length_nil, Nat.add_zero]
  cases scan position 0 rest <;> rfl

theorem Yields.append (yields : Yields text lexemes) (moreYields : Yields more others)
    (closed : Closed more) : Yields (text ++ more) (lexemes ++ others) := by
  intro position rest restClosed
  obtain ⟨first, firstEq, firstScan⟩ := yields position (more ++ rest) (closed.append restClosed)
  obtain ⟨later, laterEq, laterScan⟩ := moreYields (position + text.length) rest restClosed
  refine ⟨first ++ later, by rw [List.map_append, firstEq, laterEq], ?_⟩
  rw [List.append_assoc, firstScan, laterScan, List.length_append, Nat.add_assoc]
  cases scan (position + (text.length + more.length)) 0 rest with
  | error refusal => rfl
  | ok tokens => simp [Except.map]

/-- A blank yields nothing. -/
theorem Yields.blank (yields : Yields text lexemes) : Yields (' ' :: text) lexemes := by
  intro position rest closed
  obtain ⟨tokens, tokensEq, scanEq⟩ := yields (position + 1) rest closed
  refine ⟨tokens, tokensEq, ?_⟩
  rw [List.cons_append, scan, if_pos (by decide), scanEq, List.length_cons]
  congr 2
  omega

/-- A single token. -/
theorem Yields.token {kind : TokenKind} {c : Char} {chars : List Char}
    (visible : Text.isBlank c = false)
    (found : ∀ rest, Closed rest → lexeme? (c :: chars ++ rest) = some (kind, c :: chars)) :
    Yields (c :: chars) [(kind, String.ofList (c :: chars))] := by
  intro position rest closed
  exact ⟨[⟨kind, String.ofList (c :: chars), position⟩], rfl,
    scan_token visible (found rest closed) position⟩

/-- A token that ends with its first character, whatever follows. -/
theorem Yields.single {kind : TokenKind} {c : Char} (visible : Text.isBlank c = false)
    (found : ∀ rest, lexeme? (c :: rest) = some (kind, [c])) (yields : Yields text lexemes) :
    Yields (c :: text) ((kind, String.singleton c) :: lexemes) := by
  intro position rest closed
  obtain ⟨tokens, tokensEq, scanEq⟩ := yields (position + 1) rest closed
  refine ⟨⟨kind, String.singleton c, position⟩ :: tokens, by rw [List.map_cons, tokensEq]; rfl, ?_⟩
  have first : scan position 0 (c :: [] ++ (text ++ rest)) = _ :=
    scan_token visible (found _) position
  rw [List.cons_append, List.nil_append, List.length_singleton] at first
  rw [List.cons_append, first, scanEq, List.length_cons, Nat.add_assoc, Nat.add_comm text.length]
  cases scan (position + (1 + text.length)) 0 rest with
  | error refusal => rfl
  | ok later => simp [Except.map]

theorem Yields.lparen (yields : Yields text lexemes) :
    Yields ('(' :: text) ((.lparen, "(") :: lexemes) :=
  yields.single (by decide) fun _ => rfl

theorem Yields.rparen (yields : Yields text lexemes) :
    Yields (')' :: text) ((.rparen, ")") :: lexemes) :=
  yields.single (by decide) fun _ => rfl

theorem Yields.lbracket (yields : Yields text lexemes) :
    Yields ('[' :: text) ((.lbracket, "[") :: lexemes) :=
  yields.single (by decide) fun _ => rfl

theorem Yields.rbracket (yields : Yields text lexemes) :
    Yields (']' :: text) ((.rbracket, "]") :: lexemes) :=
  yields.single (by decide) fun _ => rfl

/-- A whole text that yields some lexemes is cut into these and the end. -/
theorem Yields.tokenize {text : String} (yields : Yields text.toList lexemes) :
    ∃ tokens last, tokenize text = .ok (tokens ++ [last]) ∧ tokens.map lexeme = lexemes ∧
      last.kind = .eof := by
  obtain ⟨tokens, tokensEq, scanEq⟩ := yields 0 [] trivial
  rw [List.append_nil] at scanEq
  exact ⟨tokens, _, scanEq, tokensEq, rfl⟩

/-! ## Words -/

/-- A text that is one word. -/
def IsWord (text : String) : Prop := lexeme? text.toList = some (.word, text.toList)

instance (text : String) : Decidable (IsWord text) :=
  inferInstanceAs (Decidable (_ = _))

theorem not_isWordChar_of_isCloser {c : Char} (closer : isCloser c = true) :
    isWordChar c = false := by
  obtain rfl | rfl | rfl | rfl := isCloser_cases closer <;> decide

theorem lexeme?_nameStart {c : Char} (start : isNameStart c = true) (rest : List Char) :
    lexeme? (c :: rest) = some (.word, c :: rest.takeWhile isWordChar) := by
  have differs {d : Char} (notStart : isNameStart d = false) : c ≠ d := by
    rintro rfl
    rw [start] at notStart
    cases notStart
  have noDigit : Text.isDigit c = false := by
    have code := (isNameStart_iff c).mp start
    have below : ¬ ('0' ≤ c ∧ c ≤ '9') := by
      rintro ⟨low, high⟩
      have digit := (Number.isPlainDigit_iff c).mp (by simp [Number.isPlainDigit, low, high])
      omega
    rw [Text.isDigit, Text.digitValue?, if_pos (by omega), if_neg below]
    rfl
  simp only [lexeme?, if_neg (differs (d := '(') (by decide)),
    if_neg (differs (d := ')') (by decide)), if_neg (differs (d := '[') (by decide)),
    if_neg (differs (d := ']') (by decide)), if_neg (differs (d := '"') (by decide)),
    if_neg (differs (d := '-') (by decide)), if_neg (differs (d := '.') (by decide)), noDigit,
    if_neg Bool.false_ne_true, if_pos start]

theorem isNameStart_of_word {c : Char} {rest chars : List Char}
    (found : lexeme? (c :: rest) = some (.word, chars)) : isNameStart c = true := by
  unfold lexeme? at found
  dsimp only at found
  split_ifs at found with opening closing left right quote minus digit point start
  · cases found
  · cases found
  · cases found
  · cases found
  · cases tail : stringTail? rest <;> simp [tail] at found
  · cases text : magnitude rest <;> simp [text] at found
  · cases found
  · split at found
    · split at found <;> cases found
    · cases found
  · exact start

theorem isWord_iff (text : String) :
    IsWord text ↔ ∃ c rest, text.toList = c :: rest ∧ isNameStart c = true ∧
      ∀ d ∈ rest, isWordChar d = true := by
  unfold IsWord
  constructor
  · intro found
    cases chars : text.toList with
    | nil =>
        rw [chars] at found
        cases found
    | cons c rest =>
        rw [chars] at found
        have start := isNameStart_of_word found
        rw [lexeme?_nameStart start] at found
        simp only [Option.some.injEq, Prod.mk.injEq, List.cons.injEq, true_and] at found
        exact ⟨c, rest, rfl, start, List.takeWhile_eq_self_iff.mp found⟩
  · rintro ⟨c, rest, chars, start, all⟩
    rw [chars, lexeme?_nameStart start, List.takeWhile_eq_self_iff.mpr all]

/-- A word is one token. -/
theorem Yields.word {word : String} (isWord : IsWord word) :
    Yields word.toList [(.word, word)] := by
  obtain ⟨c, rest, chars, start, all⟩ := (isWord_iff word).mp isWord
  have code := (isNameStart_iff c).mp start
  have yields : Yields (c :: rest) [(.word, String.ofList (c :: rest))] := by
    refine .token (Text.isBlank_of_ascii (by omega) (by omega)) fun more closed => ?_
    rw [List.cons_append, lexeme?_nameStart start,
      closed.takeWhile_append (fun _ => not_isWordChar_of_isCloser) all]
  rwa [← chars, String.ofList_toList] at yields

/-! ## Strings and numbers -/

theorem Yields.string (s : String) :
    Yields (Json.stringText s).toList [(.string, Json.stringText s)] := by
  have yields : Yields ('"' :: (s.toList.flatMap Json.escapeChar ++ ['"']))
      [(.string, String.ofList ('"' :: (s.toList.flatMap Json.escapeChar ++ ['"'])))] := by
    refine .token (by decide) fun rest _ => ?_
    simp [lexeme?, Json.stringTail?_escaped]
  rw [Json.stringText, String.toList_ofList]
  exact yields

/-- Digits end where something closed follows, or a point or an `e`. -/
theorem digits_append {whole rest : List Char} (areDigits : Number.AreDigits whole)
    (stops : ∀ c more, rest = c :: more → Text.isDigit c = false) :
    digits (whole ++ rest) = whole := by
  rw [digits, List.takeWhile_append_of_pos fun c held =>
    Text.isDigit_of_isPlainDigit (areDigits.2 c held)]
  cases rest with
  | nil => simp
  | cons c more => rw [List.takeWhile_cons_of_neg (by simp [stops c more rfl]), List.append_nil]

theorem Closed.not_isDigit {rest : List Char} (closed : Closed rest) :
    ∀ c more, rest = c :: more → Text.isDigit c = false := by
  rintro c more rfl
  obtain rfl | rfl | rfl | rfl := isCloser_cases closed <;> decide

theorem exponent_append {part rest : List Char} (isExponent : Number.IsExponent part)
    (closed : Closed rest) : exponent (part ++ rest) = part := by
  cases isExponent with
  | none =>
      cases rest with
      | nil => rfl
      | cons c more =>
          obtain rfl | rfl | rfl | rfl := isCloser_cases closed <;> rfl
  | unsigned isLetter areDigits =>
      have taken := digits_append areDigits closed.not_isDigit
      obtain ⟨d, more, rfl⟩ := List.exists_cons_of_ne_nil areDigits.1
      have notSign : ¬ (d = '+' ∨ d = '-') := by
        rintro (rfl | rfl)
        · exact absurd (areDigits.2 _ List.mem_cons_self) (by decide)
        · exact absurd (areDigits.2 _ List.mem_cons_self) (by decide)
      rw [List.cons_append] at taken
      rw [List.cons_append, List.cons_append, exponent, if_pos isLetter]
      simp only [if_neg notSign, taken]
  | signed isLetter isSign areDigits =>
      have taken := digits_append areDigits closed.not_isDigit
      obtain ⟨d, more, rfl⟩ := List.exists_cons_of_ne_nil areDigits.1
      rw [List.cons_append, List.cons_append, exponent, if_pos isLetter]
      simp only [if_pos isSign, taken]

theorem fraction_append {part rest : List Char} (isFraction : Number.IsFraction part)
    (stops : ∀ c more, rest = c :: more → Text.isDigit c = false ∧ c ≠ '.') :
    fraction (part ++ rest) = part := by
  cases isFraction with
  | none =>
      cases rest with
      | nil => rfl
      | cons c more =>
          rw [List.nil_append, fraction]
          intro later same
          cases same
          exact (stops '.' more rfl).2 rfl
  | some areDigits =>
      obtain ⟨d, more, rfl⟩ := List.exists_cons_of_ne_nil areDigits.1
      rw [List.cons_append, fraction, digits_append areDigits fun c later same =>
        (stops c later same).1]

/-- What is behind a fraction does not start with a digit or a point. -/
theorem stops_exponent {part rest : List Char} (isExponent : Number.IsExponent part)
    (closed : Closed rest) :
    ∀ c more, part ++ rest = c :: more → Text.isDigit c = false ∧ c ≠ '.' := by
  cases isExponent with
  | none =>
      intro c more same
      refine ⟨closed.not_isDigit c more same, ?_⟩
      subst same
      obtain rfl | rfl | rfl | rfl := isCloser_cases closed <;> decide
  | unsigned isLetter =>
      rintro c more ⟨⟩
      obtain rfl | rfl := isLetter <;> decide
  | signed isLetter =>
      rintro c more ⟨⟩
      obtain rfl | rfl := isLetter <;> decide

theorem magnitude_append {text whole fraction exponent rest : List Char}
    (parts : Number.NumeralParts text whole fraction exponent) (closed : Closed rest) :
    magnitude (text ++ rest) = text := by
  obtain ⟨rfl, areDigits, isFraction, isExponent⟩ := parts
  have stops := stops_exponent isExponent closed
  have behindWhole : ∀ c more, fraction ++ (exponent ++ rest) = c :: more →
      Text.isDigit c = false := by
    cases isFraction with
    | none => exact fun c more same => (stops c more same).1
    | some =>
        rintro c more ⟨⟩
        decide
  obtain ⟨d, more, wholeEq⟩ := List.exists_cons_of_ne_nil areDigits.1
  rw [List.append_assoc, List.append_assoc, magnitude, digits_append areDigits behindWhole]
  rw [wholeEq]
  dsimp only
  rw [← wholeEq, List.drop_left, fraction_append isFraction stops, List.drop_left,
    exponent_append isExponent closed, List.append_assoc]

/-- A numeral is one token. -/
theorem Yields.numeral {text whole fraction exponent : List Char}
    (parts : Number.NumeralParts text whole fraction exponent) (negative : Bool) :
    Yields (Number.signed negative text)
      [(.number, String.ofList (Number.signed negative text))] := by
  obtain ⟨d, more, rfl, isDigit⟩ := parts.head
  have range := (Number.isPlainDigit_iff d).mp isDigit
  cases negative with
  | true =>
      refine .token (by decide) fun rest closed => ?_
      have found := magnitude_append parts closed
      rw [List.cons_append] at found
      simp [lexeme?, found]
  | false =>
      refine .token (Text.isBlank_of_ascii (by omega) (by omega)) fun rest closed => ?_
      have differs {e : Char} (notDigit : Number.isPlainDigit e = false) : d ≠ e := by
        rintro rfl
        rw [isDigit] at notDigit
        cases notDigit
      have found := magnitude_append parts closed
      rw [List.cons_append] at found ⊢
      simp only [lexeme?, if_neg (differs (e := '(') (by decide)),
        if_neg (differs (e := ')') (by decide)), if_neg (differs (e := '[') (by decide)),
        if_neg (differs (e := ']') (by decide)), if_neg (differs (e := '"') (by decide)),
        if_neg (differs (e := '-') (by decide)), Text.isDigit_of_isPlainDigit isDigit, if_true,
        found]

theorem Yields.int (n : Int) : Yields (toString n).toList [(.number, toString n)] := by
  have parts : Number.NumeralParts (Nat.toDigits 10 n.natAbs) _ [] [] :=
    ⟨by simp, Number.areDigits_toDigits n.natAbs, .none, .none⟩
  have yields := Yields.numeral parts (n < 0)
  rwa [← Number.toString_toList, String.ofList_toList] at yields

theorem Yields.double (x : Number.Finite) : Yields x.text.toList [(.number, x.text)] := by
  obtain ⟨whole, fraction, exponent, power, parts⟩ := x.shortest.text_parts
  have yields := Yields.numeral parts.toNumeralParts x.negative
  rw [Number.Finite.text, String.toList_ofList]
  exact yields

end Scim.Token
