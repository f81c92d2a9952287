import Mathlib.Computability.Language
import Scim.Proofs.Filter.Positions

/-!
# Patterns of tokens

Each kind of token has a pattern, which is a regular language.  What stands at the start of a
text as a token is the longest text of the pattern of its kind, and a text starts with a token
of at most one kind.
-/

namespace Scim.Token

open Computability Text

/-- The texts of a single character of a class. -/
def one (p : Char → Bool) : Language Char := {word | ∃ c, p c = true ∧ word = [c]}

/-- Digits, at least one. -/
def numerals : Language Char := one isDigit * (one isDigit)∗

/-- A point and digits, or nothing. -/
def fractions : Language Char := 1 + one (· == '.') * numerals

/-- The letter of an exponent. -/
def isMark (c : Char) : Bool := c == 'e' || c == 'E'

/-- The sign of an exponent. -/
def isSign (c : Char) : Bool := c == '+' || c == '-'

/-- An exponent, with or without a sign, or nothing. -/
def exponents : Language Char := 1 + one isMark * (1 + one isSign) * numerals

/-- What stands in a string behind its opening quote: a backslash goes together with the character
after it, which is no line feed. -/
def closings : Language Char :=
  ((one fun c => c != '"' && c != '\\') + one (· == '\\') * one (· != '\n'))∗ * one (· == '"')

/-- The pattern of a kind of token, or that of the blanks between tokens. -/
def pattern : Option TokenKind → Language Char
  | none => one isBlank * (one isBlank)∗
  | some .lparen => one (· == '(')
  | some .rparen => one (· == ')')
  | some .lbracket => one (· == '[')
  | some .rbracket => one (· == ']')
  | some .string => one (· == '"') * closings
  | some .number => (1 + one (· == '-')) * numerals * fractions * exponents
  | some .subattr => one (· == '.') * one isNameStart * (one isNameChar)∗
  | some .word => one isNameStart * (one isWordChar)∗
  -- nothing stands for the end
  | some .eof => 0

/-! ## Longest matches -/

/-- The longest text of a language that a text starts with, if it starts with any. -/
def Longest (language : Language Char) (text : List Char) : Option (List Char) → Prop
  | some word =>
    word ∈ language ∧ word <+: text ∧ ∀ other ∈ language, other <+: text → other <+: word
  | none => ∀ word ∈ language, ¬ word <+: text

variable {language more : Language Char} {p : Char → Bool} {c : Char}
  {text rest word : List Char} {found : Option (List Char)}

theorem mem_one_iff : word ∈ one p ↔ ∃ c, p c = true ∧ word = [c] := Iff.rfl

theorem mem_one_mul_iff :
    word ∈ one p * language ↔ ∃ c rest, word = c :: rest ∧ p c = true ∧ rest ∈ language := by
  constructor
  · rintro ⟨_, ⟨c, holds, rfl⟩, rest, among, rfl⟩
    exact ⟨c, rest, rfl, holds, among⟩
  · rintro ⟨c, rest, rfl, holds, among⟩
    exact ⟨[c], ⟨c, holds, rfl⟩, rest, among, rfl⟩

theorem head_one_mul (among : word ∈ one p * language) (head : word.head? = some c) :
    p c = true := by
  obtain ⟨_, rest, rfl, holds, _⟩ := mem_one_mul_iff.mp among
  cases head
  exact holds

theorem mem_kstar_iff :
    word ∈ language∗ ↔
      word = [] ∨ ∃ first ∈ language, ∃ last ∈ language∗, first ++ last = word := by
  conv_lhs => rw [← Language.one_add_self_mul_kstar_eq_kstar, Language.mem_add, Language.mem_one,
    Language.mem_mul]

theorem mem_kstar_one_iff : word ∈ (one p)∗ ↔ ∀ c ∈ word, p c = true := by
  induction word with
  | nil => simp [Language.nil_mem_kstar]
  | cons c rest ih =>
      rw [mem_kstar_iff, List.forall_mem_cons, ← ih]
      constructor
      · rintro (empty | ⟨_, ⟨d, holds, rfl⟩, last, among, same⟩)
        · cases empty
        · cases same
          exact ⟨holds, among⟩
      · rintro ⟨holds, among⟩
        exact .inr ⟨[c], ⟨c, holds, rfl⟩, rest, among, rfl⟩

theorem longest_kstar_one (p : Char → Bool) (text : List Char) :
    Longest (one p)∗ text (some (text.takeWhile p)) := by
  refine ⟨mem_kstar_one_iff.mpr fun c held => List.mem_takeWhile_imp held,
    List.takeWhile_prefix p, fun other among within => ?_⟩
  obtain ⟨rest, rfl⟩ := within
  rw [List.takeWhile_append_of_pos (mem_kstar_one_iff.mp among)]
  exact List.prefix_append ..

theorem Longest.one_mul (longest : Longest more rest found) (holds : p c = true) :
    Longest (one p * more) (c :: rest) (found.map (c :: ·)) := by
  cases found with
  | none =>
      intro other otherAmong within
      obtain ⟨_, last, rfl, _, among⟩ := mem_one_mul_iff.mp otherAmong
      exact longest last among (List.cons_prefix_cons.mp within).2
  | some word =>
      obtain ⟨among, within, others⟩ := longest
      refine ⟨mem_one_mul_iff.mpr ⟨c, word, rfl, holds, among⟩,
        List.cons_prefix_cons.mpr ⟨rfl, within⟩, ?_⟩
      intro other otherAmong otherWithin
      obtain ⟨_, last, rfl, _, lastAmong⟩ := mem_one_mul_iff.mp otherAmong
      obtain ⟨same, lastWithin⟩ := List.cons_prefix_cons.mp otherWithin
      exact List.cons_prefix_cons.mpr ⟨same, others last lastAmong lastWithin⟩

/-- A text that does not start as a language requires. -/
theorem longest_one_mul_none (fails : ∀ c ∈ text.head?, p c = false) :
    Longest (one p * more) text none := by
  rintro word among ⟨rest, rfl⟩
  obtain ⟨c, _, rfl, holds, _⟩ := mem_one_mul_iff.mp among
  exact Bool.false_ne_true ((fails c rfl).symm.trans holds)

/-- A run of characters of a class. -/
theorem longest_plus (p : Char → Bool) (text : List Char) :
    Longest (one p * (one p)∗) text
      (if text.takeWhile p = [] then none else some (text.takeWhile p)) := by
  cases text with
  | nil => exact longest_one_mul_none (by simp)
  | cons c rest =>
    cases holds : p c with
    | false =>
        rw [List.takeWhile_cons_of_neg (by simp [holds]), if_pos rfl]
        exact longest_one_mul_none (by simpa using holds)
    | true =>
        rw [List.takeWhile_cons_of_pos holds, if_neg (List.cons_ne_nil _ _)]
        exact (longest_kstar_one p rest).one_mul holds

theorem longest_one (holds : p c = true) (rest : List Char) :
    Longest (one p) (c :: rest) (some [c]) := by
  refine ⟨⟨c, holds, rfl⟩, by simp, ?_⟩
  rintro _ ⟨d, _, rfl⟩ within
  simpa using within

theorem longest_one_none (fails : ∀ c ∈ text.head?, p c = false) : Longest (one p) text none := by
  rw [← mul_one (one p)]
  exact longest_one_mul_none fails

theorem Longest.optional (longest : Longest language text found) :
    Longest (1 + language) text (some (found.getD [])) := by
  cases found with
  | none =>
      refine ⟨.inl rfl, List.nil_prefix, ?_⟩
      rintro other (empty | among) within
      · exact empty ▸ List.nil_prefix
      · exact absurd within (longest other among)
  | some word =>
      obtain ⟨among, within, others⟩ := longest
      refine ⟨.inr among, within, ?_⟩
      rintro other (empty | among) within
      · exact empty ▸ List.nil_prefix
      · exact others other among within

/-- After a proper part of a text that is the longest of its language, the next language never goes
on as the text does. -/
def Stops (language more : Language Char) (word : List Char) : Prop :=
  ∀ first ∈ language, ∀ c rest, first ++ c :: rest = word → ∀ last ∈ more, last.head? ≠ some c

theorem stops_of_classes (inside : ∀ c ∈ word, p c = true)
    (heads : ∀ last ∈ more, ∀ c, last.head? = some c → p c = false) :
    Stops language more word := by
  rintro first _ c rest rfl last among head
  have holds := inside c (by simp)
  rw [heads last among c head] at holds
  cases holds

theorem stops_nil : Stops language more [] := by
  intro first _ c rest whole
  simp at whole

/-- A character does not start the next language. -/
theorem stops_one_mul (fails : p c = false) : Stops language (one p * more) [c] := by
  refine stops_of_classes (p := (· == c)) (by simp) fun last among d head => ?_
  refine beq_eq_false_iff_ne.mpr ?_
  rintro rfl
  rw [head_one_mul among head] at fails
  cases fails

theorem Longest.mul_none (longest : Longest language text none) :
    Longest (language * more) text none := by
  intro word among within
  obtain ⟨first, firstAmong, last, _, rfl⟩ := Language.mem_mul.mp among
  exact longest first firstAmong ((List.prefix_append ..).trans within)

/-- The longest text of a language, followed by the longest one of the next. -/
theorem Longest.mul (longest : Longest language text (some word)) (stops : Stops language more word)
    (behind : Longest more (text.drop word.length) found) :
    Longest (language * more) text (found.map (word ++ ·)) := by
  obtain ⟨among, ⟨rest, rfl⟩, others⟩ := longest
  rw [List.drop_left] at behind
  -- a text of both languages has all of the longest, or only a part of it and nothing else
  have parts {first last : List Char} (firstAmong : first ∈ language) (lastAmong : last ∈ more)
      (within : first ++ last <+: word ++ rest) :
      first = word ∧ last <+: rest ∨ last = [] ∧ first <+: word := by
    obtain ⟨tail, rfl⟩ := others first firstAmong ((List.prefix_append ..).trans within)
    cases tail with
    | nil =>
        rw [List.append_nil] at within
        exact .inl ⟨(List.append_nil _).symm, (List.prefix_append_right_inj _).mp within⟩
    | cons c tail =>
        cases last with
        | nil => exact .inr ⟨rfl, List.prefix_append ..⟩
        | cons d last =>
            rw [List.append_assoc, List.prefix_append_right_inj] at within
            obtain ⟨rfl, _⟩ := List.cons_prefix_cons.mp within
            exact absurd rfl (stops first firstAmong d tail rfl _ lastAmong)
  cases found with
  | none =>
      intro other otherAmong within
      obtain ⟨first, firstAmong, last, lastAmong, rfl⟩ := Language.mem_mul.mp otherAmong
      obtain ⟨_, lastWithin⟩ | ⟨rfl, _⟩ := parts firstAmong lastAmong within
      · exact behind last lastAmong lastWithin
      · exact behind [] lastAmong List.nil_prefix
  | some next =>
      obtain ⟨nextAmong, nextWithin, nextOthers⟩ := behind
      refine ⟨⟨word, among, next, nextAmong, rfl⟩,
        (List.prefix_append_right_inj _).mpr nextWithin, ?_⟩
      intro other otherAmong within
      obtain ⟨first, firstAmong, last, lastAmong, rfl⟩ := Language.mem_mul.mp otherAmong
      obtain ⟨rfl, lastWithin⟩ | ⟨rfl, firstWithin⟩ := parts firstAmong lastAmong within
      · exact (List.prefix_append_right_inj _).mpr (nextOthers last lastAmong lastWithin)
      · rw [List.append_nil]
        exact firstWithin.trans (List.prefix_append ..)

/-! ## Numbers -/

theorem longest_numerals (text : List Char) :
    Longest numerals text (if digits text = [] then none else some (digits text)) :=
  longest_plus isDigit text

theorem Longest.optional_digits {take : List Char → List Char}
    (longest : Longest language text
      ((if digits rest = [] then none else some (digits rest)).map take)) :
    Longest (1 + language) text
      (some (match digits rest with | [] => [] | ds => take ds)) := by
  cases ds : digits rest with
  | nil =>
      rw [ds, if_pos rfl] at longest
      exact longest.optional
  | cons d more =>
      rw [ds, if_neg (List.cons_ne_nil _ _)] at longest
      exact longest.optional

theorem longest_fraction (text : List Char) : Longest fractions text (some (fraction text)) := by
  unfold fraction
  split
  · next rest => exact ((longest_numerals rest).one_mul rfl).optional_digits
  · next other =>
    refine (longest_one_mul_none ?_).optional
    intro c head
    obtain ⟨rest, rfl⟩ := List.head?_eq_some_iff.mp head
    exact beq_eq_false_iff_ne.mpr fun same => other rest (same ▸ rfl)

theorem isDigit_of_isSign (sign : isSign c = true) : isDigit c = false := by
  obtain rfl | rfl : c = '+' ∨ c = '-' := by simpa [isSign] using sign
  · decide
  · decide

theorem longest_exponent (text : List Char) : Longest exponents text (some (exponent text)) := by
  rw [exponents, mul_assoc]
  cases text with
  | nil => exact (longest_one_mul_none (by simp)).optional
  | cons e rest =>
    unfold exponent
    dsimp only
    split
    · next letter =>
      have mark : isMark e = true := by simpa [isMark] using letter
      cases rest with
      | nil =>
          have empty : Longest ((1 + one isSign) * numerals) [] none :=
            (longest_one_none (by simp)).optional.mul stops_nil (longest_numerals [])
          exact (empty.one_mul mark).optional
      | cons s more =>
        dsimp only
        split
        · next sign =>
          have isSign : isSign s = true := by simpa [isSign] using sign
          have part := ((longest_one isSign more).optional.mul
            (stops_one_mul (isDigit_of_isSign isSign)) (longest_numerals more)).one_mul mark
          rw [Option.map_map] at part
          exact part.optional_digits
        · next sign =>
          have notSign : isSign s = false := by simpa [isSign] using sign
          have part := ((longest_one_none (by simpa using notSign)).optional.mul stops_nil
            (longest_numerals (s :: more))).one_mul mark
          rw [Option.map_map] at part
          exact part.optional_digits
    · next letter =>
      have noMark : isMark e = false := by simpa [isMark] using letter
      exact (longest_one_mul_none (by simpa using noMark)).optional

theorem head_fractions (among : word ∈ fractions) (head : word.head? = some c) : c = '.' := by
  obtain rfl | among := among
  · cases head
  · exact beq_iff_eq.mp (head_one_mul (p := (· == '.')) among head)

theorem head_exponents (among : word ∈ exponents) (head : word.head? = some c) :
    isMark c = true := by
  rw [exponents, mul_assoc] at among
  obtain rfl | among := among
  · cases head
  · exact head_one_mul among head

theorem isMark_cases (mark : isMark c = true) : c = 'e' ∨ c = 'E' := by
  simpa [isMark] using mark

theorem class_fraction (text : List Char) :
    ∀ c ∈ fraction text, (c == '.' || isDigit c) = true := by
  have digit (c : Char) (held : c ∈ digits text.tail) : (c == '.' || isDigit c) = true := by
    rw [List.mem_takeWhile_imp held, Bool.or_true]
  unfold fraction
  split
  · split
    · exact List.forall_mem_nil _
    · next ds _ => exact List.forall_mem_cons.mpr ⟨rfl, digit⟩
  · exact List.forall_mem_nil _

theorem longest_magnitude (text : List Char) :
    Longest (numerals * (fractions * exponents)) text
      (if magnitude text = [] then none else some (magnitude text)) := by
  have whole := longest_numerals text
  unfold magnitude
  cases ds : digits text with
  | nil =>
      rw [ds, if_pos rfl] at whole
      rw [if_pos rfl]
      exact whole.mul_none
  | cons d more =>
      rw [ds, if_neg (List.cons_ne_nil _ _)] at whole
      dsimp only
      rw [if_neg (by simp), List.append_assoc]
      refine whole.mul ?_ ((longest_fraction _).mul ?_ (longest_exponent _))
      · refine stops_of_classes (p := isDigit)
          (fun c held => List.mem_takeWhile_imp (ds.symm ▸ held)) fun last among c head => ?_
        obtain ⟨part, partAmong, power, powerAmong, rfl⟩ := Language.mem_mul.mp among
        cases part with
        | nil =>
            obtain rfl | rfl := isMark_cases (head_exponents powerAmong head) <;> rfl
        | cons d part =>
            cases head
            rw [head_fractions partAmong rfl]
            rfl
      · refine stops_of_classes (p := fun c => c == '.' || isDigit c) (class_fraction _)
          fun last among c head => ?_
        obtain rfl | rfl := isMark_cases (head_exponents among head) <;> rfl

/-! ## Strings -/

theorem closings_eq : closings =
    one (· == '"') + ((one fun c => c != '"' && c != '\\') * closings +
      one (· == '\\') * (one (· != '\n') * closings)) := by
  conv_lhs => rw [closings, ← Language.one_add_self_mul_kstar_eq_kstar, add_mul, one_mul, mul_assoc,
    ← closings, add_mul, mul_assoc]

theorem mem_closings_iff :
    word ∈ closings ↔ word = ['"'] ∨
      (∃ c rest, word = c :: rest ∧ (c ≠ '"' ∧ c ≠ '\\') ∧ rest ∈ closings) ∨
      ∃ c rest, word = '\\' :: c :: rest ∧ c ≠ '\n' ∧ rest ∈ closings := by
  conv_lhs => rw [closings_eq]
  rw [Language.mem_add, Language.mem_add, mem_one_mul_iff, mem_one_mul_iff, mem_one_iff]
  simp only [mem_one_mul_iff, beq_iff_eq, bne_iff_ne, Bool.and_eq_true]
  constructor
  · rintro (⟨_, rfl, rfl⟩ | ⟨c, rest, rfl, plain, among⟩ | ⟨_, _, rfl, rfl, escape⟩)
    · exact .inl rfl
    · exact .inr (.inl ⟨c, rest, rfl, plain, among⟩)
    · obtain ⟨c, rest, rfl, line, among⟩ := escape
      exact .inr (.inr ⟨c, rest, rfl, line, among⟩)
  · rintro (rfl | ⟨c, rest, rfl, plain, among⟩ | ⟨c, rest, rfl, line, among⟩)
    · exact .inl ⟨_, rfl, rfl⟩
    · exact .inr (.inl ⟨c, rest, rfl, plain, among⟩)
    · exact .inr (.inr ⟨_, _, rfl, rfl, c, rest, rfl, line, among⟩)

/-- What a text that starts with the rest of a string starts with. -/
theorem mem_closings_and_isPrefix_iff :
    word ∈ closings ∧ word <+: text ↔ (∃ rest, text = '"' :: rest ∧ word = ['"']) ∨
      (∃ c rest tail, text = c :: rest ∧ word = c :: tail ∧ (c ≠ '"' ∧ c ≠ '\\') ∧
        tail ∈ closings ∧ tail <+: rest) ∨
      ∃ c rest tail, text = '\\' :: c :: rest ∧ word = '\\' :: c :: tail ∧ c ≠ '\n' ∧
        tail ∈ closings ∧ tail <+: rest := by
  rw [mem_closings_iff]
  constructor
  · rintro ⟨rfl | ⟨c, tail, rfl, plain, among⟩ | ⟨c, tail, rfl, line, among⟩, within⟩
    · obtain ⟨rest, rfl, _⟩ := List.cons_prefix_iff.mp within
      exact .inl ⟨rest, rfl, rfl⟩
    · obtain ⟨rest, rfl, tailWithin⟩ := List.cons_prefix_iff.mp within
      exact .inr (.inl ⟨c, rest, tail, rfl, rfl, plain, among, tailWithin⟩)
    · obtain ⟨_, rfl, behind⟩ := List.cons_prefix_iff.mp within
      obtain ⟨rest, rfl, tailWithin⟩ := List.cons_prefix_iff.mp behind
      exact .inr (.inr ⟨c, rest, tail, rfl, rfl, line, among, tailWithin⟩)
  · rintro (⟨rest, rfl, rfl⟩ | ⟨c, rest, tail, rfl, rfl, plain, among, within⟩ |
      ⟨c, rest, tail, rfl, rfl, line, among, within⟩)
    · exact ⟨.inl rfl, by simp⟩
    · exact ⟨.inr (.inl ⟨c, tail, rfl, plain, among⟩), by simpa using within⟩
    · exact ⟨.inr (.inr ⟨c, tail, rfl, line, among⟩), by simpa using within⟩

theorem stringTail?_eq_some_iff :
    stringTail? text = some word ↔ word ∈ closings ∧ word <+: text := by
  fun_induction stringTail? text generalizing word with
  | case1 =>
      rw [mem_closings_and_isPrefix_iff]
      simp
  | case2 =>
      rw [mem_closings_and_isPrefix_iff]
      simp
  | case3 =>
      rw [mem_closings_and_isPrefix_iff]
      simp
  | case4 c rest line ih =>
      rw [mem_closings_and_isPrefix_iff, Option.map_eq_some_iff]
      constructor
      · rintro ⟨tail, found, rfl⟩
        exact .inr (.inr ⟨c, rest, tail, rfl, rfl, line, ih.mp found⟩)
      · rintro (⟨_, ⟨⟩, _⟩ | ⟨_, _, _, ⟨⟩, _, plain, _⟩ | ⟨_, _, tail, ⟨⟩, rfl, _, behind⟩)
        · exact absurd rfl plain.2
        · exact ⟨tail, ih.mpr behind, rfl⟩
  | case5 rest =>
      rw [mem_closings_and_isPrefix_iff]
      simp [eq_comm]
  | case6 c rest notLast notEscape notQuote ih =>
      have plain : c ≠ '\\' := by
        rintro rfl
        cases rest with
        | nil => exact notLast rfl rfl
        | cons d more => exact notEscape d more rfl rfl
      rw [mem_closings_and_isPrefix_iff, Option.map_eq_some_iff]
      constructor
      · rintro ⟨tail, found, rfl⟩
        exact .inr (.inl ⟨c, rest, tail, rfl, rfl, ⟨notQuote, plain⟩, ih.mp found⟩)
      · rintro (⟨_, ⟨⟩, _⟩ | ⟨_, _, tail, ⟨⟩, rfl, _, behind⟩ | ⟨_, _, _, ⟨⟩, _⟩)
        · exact absurd rfl notQuote
        · exact ⟨tail, ih.mpr behind, rfl⟩
        · exact absurd rfl plain

theorem longest_closings (text : List Char) : Longest closings text (stringTail? text) := by
  cases found : stringTail? text with
  | none =>
      intro word among within
      rw [stringTail?_eq_some_iff.mpr ⟨among, within⟩] at found
      cases found
  | some word =>
      obtain ⟨among, within⟩ := stringTail?_eq_some_iff.mp found
      refine ⟨among, within, fun other otherAmong otherWithin => ?_⟩
      rw [stringTail?_eq_some_iff.mpr ⟨otherAmong, otherWithin⟩] at found
      cases found
      exact List.prefix_rfl

/-! ## Tokens -/

/-- Whether a token of a kind may start with a character. -/
def starts : TokenKind → Char → Bool
  | .lparen, c => c == '('
  | .rparen, c => c == ')'
  | .lbracket, c => c == '['
  | .rbracket, c => c == ']'
  | .string, c => c == '"'
  | .number, c => c == '-' || isDigit c
  | .subattr, c => c == '.'
  | .word, c => isNameStart c
  | .eof, _ => false

theorem longest_number_minus (rest : List Char) :
    Longest (pattern (some .number)) ('-' :: rest)
      ((if magnitude rest = [] then none else some (magnitude rest)).map ('-' :: ·)) := by
  have stops : Stops (1 + one (· == '-')) (numerals * (fractions * exponents)) ['-'] := by
    rw [numerals, mul_assoc]
    exact stops_one_mul (by decide)
  rw [pattern, mul_assoc, mul_assoc]
  exact (longest_one (p := (· == '-')) rfl rest).optional.mul stops (longest_magnitude rest)

theorem longest_number (text : List Char) (plain : ∀ c ∈ text.head?, c ≠ '-') :
    Longest (pattern (some .number)) text
      (if magnitude text = [] then none else some (magnitude text)) := by
  rw [pattern, mul_assoc, mul_assoc]
  have noMinus : Longest (one (· == '-')) text none := longest_one_none (by simpa using plain)
  simpa using noMinus.optional.mul stops_nil (longest_magnitude text)

/-- A text starts with no token of a kind whose tokens start with other characters. -/
theorem longest_of_not_starts {kind : TokenKind} (other : ∀ c ∈ text.head?, starts kind c = false) :
    Longest (pattern (some kind)) text none := by
  cases kind with
  | lparen | rparen | lbracket | rbracket => exact longest_one_none other
  | string => exact longest_one_mul_none other
  | number =>
      have signs (c : Char) (head : c ∈ text.head?) := Bool.or_eq_false_iff.mp (other c head)
      have noDigits : digits text = [] := by
        cases text with
        | nil => rfl
        | cons c rest => exact List.takeWhile_cons_of_neg (by simp [(signs c rfl).2])
      have longest := longest_number text fun c head => beq_eq_false_iff_ne.mp (signs c head).1
      rwa [magnitude, noDigits, if_pos rfl] at longest
  | subattr =>
      rw [pattern, mul_assoc]
      exact longest_one_mul_none other
  | word => exact longest_one_mul_none other
  | eof => exact fun word among => absurd among (Language.notMem_zero word)

theorem starts_of_lexeme? {kind : TokenKind} (found : lexeme? (c :: rest) = some (kind, word)) :
    starts kind c = true := by
  unfold lexeme? at found
  dsimp only at found
  split_ifs at found with opening closing left right quote minus digit point start
  · cases found
    exact beq_iff_eq.mpr opening
  · cases found
    exact beq_iff_eq.mpr closing
  · cases found
    exact beq_iff_eq.mpr left
  · cases found
    exact beq_iff_eq.mpr right
  · obtain ⟨_, _, same⟩ := Option.map_eq_some_iff.mp found
    cases same
    exact beq_iff_eq.mpr quote
  · split at found
    · cases found
    · cases found
      exact Bool.or_eq_true_iff.mpr (.inl (beq_iff_eq.mpr minus))
  · cases found
    exact Bool.or_eq_true_iff.mpr (.inr digit)
  · split at found
    · split at found
      · cases found
        exact beq_iff_eq.mpr point
      · cases found
    · cases found
  · cases found
    exact start

theorem lexeme?_digit (digit : isDigit c = true) (rest : List Char) :
    lexeme? (c :: rest) = some (.number, magnitude (c :: rest)) := by
  have differs {d : Char} (notDigit : isDigit d = false) : c ≠ d := by
    rintro rfl
    rw [digit] at notDigit
    cases notDigit
  simp only [lexeme?, if_neg (differs (d := '(') (by decide)),
    if_neg (differs (d := ')') (by decide)), if_neg (differs (d := '[') (by decide)),
    if_neg (differs (d := ']') (by decide)), if_neg (differs (d := '"') (by decide)),
    if_neg (differs (d := '-') (by decide)), if_pos digit]

theorem exists_longest_number (begins : starts .number c = true) (rest : List Char) :
    ∃ found, lexeme? (c :: rest) = found.map (TokenKind.number, ·) ∧
      Longest (pattern (some .number)) (c :: rest) found := by
  obtain minus | digit := Bool.or_eq_true_iff.mp begins
  · cases beq_iff_eq.mp minus
    refine ⟨_, ?_, longest_number_minus rest⟩
    have cut : lexeme? ('-' :: rest) = match magnitude rest with
      | [] => none
      | ds => some (.number, '-' :: ds) := rfl
    rw [cut]
    cases magnitude rest <;> rfl
  · refine ⟨some (magnitude (c :: rest)), lexeme?_digit digit rest, ?_⟩
    have longest := longest_number (c :: rest) (by
      rintro _ ⟨⟩ rfl
      cases digit)
    have nonempty : magnitude (c :: rest) ≠ [] := by
      rw [magnitude, digits, List.takeWhile_cons_of_pos digit]
      exact List.cons_ne_nil _ _
    rwa [if_neg nonempty] at longest

theorem exists_longest_subattr (rest : List Char) :
    ∃ found, lexeme? ('.' :: rest) = found.map (TokenKind.subattr, ·) ∧
      Longest (pattern (some .subattr)) ('.' :: rest) found := by
  rw [pattern, mul_assoc]
  cases rest with
  | nil => exact ⟨none, rfl, (longest_one_mul_none (by simp)).one_mul rfl⟩
  | cons s more =>
    have cut : lexeme? ('.' :: s :: more) =
        if isNameStart s then some (.subattr, '.' :: s :: more.takeWhile isNameChar)
        else none := rfl
    rw [cut]
    split
    · next start =>
      exact ⟨some _, rfl, ((longest_kstar_one isNameChar more).one_mul start).one_mul rfl⟩
    · next notStart =>
      exact ⟨none, rfl, (longest_one_mul_none (by simpa using notStart)).one_mul rfl⟩

/-- A text that starts as tokens of a kind do starts with its longest match of their pattern. -/
theorem exists_longest_of_starts {kind : TokenKind} (begins : starts kind c = true)
    (rest : List Char) :
    ∃ found, lexeme? (c :: rest) = found.map (kind, ·) ∧
      Longest (pattern (some kind)) (c :: rest) found := by
  cases kind with
  | lparen | rparen | lbracket | rbracket =>
      cases beq_iff_eq.mp begins
      exact ⟨_, rfl, longest_one rfl rest⟩
  | string =>
      cases beq_iff_eq.mp begins
      refine ⟨(stringTail? rest).map ('"' :: ·), ?_, ?_⟩
      · rw [Option.map_map]
        rfl
      · exact (longest_closings rest).one_mul rfl
  | number => exact exists_longest_number begins rest
  | subattr =>
      cases beq_iff_eq.mp begins
      exact exists_longest_subattr rest
  | word =>
      refine ⟨some _, lexeme?_nameStart begins rest, ?_⟩
      exact (longest_kstar_one isWordChar rest).one_mul begins
  | eof => cases begins

/-- What stands at the start of a text as a token is the longest match of the one pattern that
matches there. -/
theorem longest_lexeme? (kind : TokenKind) (text : List Char) :
    Longest (pattern (some kind)) text
      (((lexeme? text).filter (·.1 = kind)).map (·.2)) := by
  cases text with
  | nil => exact longest_of_not_starts (by simp)
  | cons c rest =>
    cases begins : starts kind c with
    | true =>
        obtain ⟨found, cut, longest⟩ := exists_longest_of_starts begins rest
        rw [cut]
        cases found with
        | none => exact longest
        | some word => simpa [Option.filter] using longest
    | false =>
        have noToken : (lexeme? (c :: rest)).filter (·.1 = kind) = none := by
          rw [Option.filter_eq_none_iff]
          rintro ⟨found, word⟩ cut same
          rw [← of_decide_eq_true same, starts_of_lexeme? cut] at begins
          cases begins
        rw [noToken]
        exact longest_of_not_starts (by simpa using begins)

/-! ## Pieces -/

/-- What is cut off at the start of a text: a run of blanks, or a token of some kind. -/
def piece? (text : List Char) : Option (Option TokenKind × List Char) :=
  if text.takeWhile isBlank = [] then (lexeme? text).map fun (kind, word) => (some kind, word)
  else some (none, text.takeWhile isBlank)

/-- What the patterns say about the start of a text: a piece is the longest match of its pattern and
no other pattern matches there, and where there is no piece no pattern matches. -/
def Stands (text : List Char) : Option (Option TokenKind × List Char) → Prop
  | some (kind, word) =>
    Longest (pattern kind) text (some word) ∧ ∀ other ≠ kind, Longest (pattern other) text none
  | none => ∀ kind, Longest (pattern kind) text none

theorem isBlank_of_isDigit (digit : isDigit c = true) : isBlank c = false := by
  by_cases low : c.toNat < 128
  · rw [isDigit, digitValue?, if_pos low] at digit
    split at digit
    · next bounds =>
      have range := (Number.isPlainDigit_iff c).mp (by simpa [Number.isPlainDigit] using bounds)
      exact isBlank_of_ascii (by omega) low
    · cases digit
  · obtain ⟨_, _, _, visible⟩ := digitValue?_of_isDigit digit low
    exact visible

/-- No token starts with a blank. -/
theorem isBlank_of_starts {kind : TokenKind} (begins : starts kind c = true) :
    isBlank c = false := by
  have mark {d : Char} (low : 32 < d.toNat) (high : d.toNat < 128) (same : c = d) :
      isBlank c = false := same ▸ isBlank_of_ascii low high
  cases kind with
  | lparen | rparen | lbracket | rbracket | string | subattr =>
      exact mark (by decide) (by decide) (beq_iff_eq.mp begins)
  | number =>
      obtain minus | digit := Bool.or_eq_true_iff.mp begins
      · exact mark (by decide) (by decide) (beq_iff_eq.mp minus)
      · exact isBlank_of_isDigit digit
  | word =>
      have code := (isNameStart_iff c).mp begins
      exact isBlank_of_ascii (by omega) (by omega)
  | eof => cases begins

theorem stands_lexeme? (noBlank : text.takeWhile isBlank = []) :
    Stands text ((lexeme? text).map fun (kind, word) => (some kind, word)) := by
  have blanks := longest_plus isBlank text
  rw [if_pos noBlank] at blanks
  cases found : lexeme? text with
  | none =>
      rintro (_ | kind)
      · exact blanks
      · simpa [found] using longest_lexeme? kind text
  | some parts =>
      obtain ⟨kind, word⟩ := parts
      refine ⟨by simpa [found, Option.filter] using longest_lexeme? kind text, ?_⟩
      rintro (_ | other) differs
      · exact blanks
      · have notSame : kind ≠ other := fun same => differs (congrArg some same.symm)
        simpa [found, Option.filter, notSame] using longest_lexeme? other text

theorem stands_piece? (text : List Char) : Stands text (piece? text) := by
  unfold piece?
  split
  · next noBlank => exact stands_lexeme? noBlank
  · next nonempty =>
    have blanks := longest_plus isBlank text
    rw [if_neg nonempty] at blanks
    refine ⟨blanks, ?_⟩
    rintro (_ | kind) differs
    · exact absurd rfl differs
    · refine longest_of_not_starts fun c head => ?_
      obtain ⟨rest, rfl⟩ := List.head?_eq_some_iff.mp head
      by_contra begins
      have visible := isBlank_of_starts (Bool.of_not_eq_false begins)
      exact nonempty (List.takeWhile_cons_of_neg (by simp [visible]))

theorem ne_nil_of_mem_pattern {kind : Option TokenKind} (among : word ∈ pattern kind) :
    word ≠ [] := by
  rintro rfl
  exact stands_piece? [] kind [] among List.nil_prefix

end Scim.Token
