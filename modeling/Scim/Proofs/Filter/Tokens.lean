import Scim.Filter.Parser
import Scim.Proofs.Filter.Lexing

/-!
# The tokens that a text is cut into

A text is cut into tokens of the kinds that the grammar knows, and behind them stands the
end.  A word consists of word characters, a string starts with a quote, a number is a numeral
in digits of some script, and a sub-attribute is a name behind a point.
-/

namespace Scim

/-! ## Numerals of any script -/

namespace Token

open Number (AreDigits IsFraction IsExponent IsNumeral NumeralParts plainChar signed)

theorem areDigits_digits (text : List Char) (nonempty : digits text ≠ []) :
    AreDigits ((digits text).map plainChar) := by
  refine ⟨by simpa using nonempty, ?_⟩
  intro c held
  obtain ⟨d, inDigits, rfl⟩ := List.mem_map.mp held
  exact Number.isPlainDigit_plainChar (List.mem_takeWhile_imp inDigits)

theorem isFraction_fraction (text : List Char) : IsFraction ((fraction text).map plainChar) := by
  unfold fraction
  split
  · next rest =>
    cases ds : digits rest with
    | nil => exact .none
    | cons d more =>
        have areDigits := areDigits_digits rest (by simp [ds])
        rw [ds] at areDigits
        exact .some areDigits
  · exact .none

theorem isExponent_exponent (text : List Char) : IsExponent ((exponent text).map plainChar) := by
  have letter {e : Char} (isLetter : e = 'e' ∨ e = 'E') :
      plainChar e = 'e' ∨ plainChar e = 'E' := by
    obtain rfl | rfl := isLetter <;> decide
  cases text with
  | nil => exact .none
  | cons e rest =>
      unfold exponent
      dsimp only
      split
      · next isLetter =>
        cases rest with
        | nil => exact .none
        | cons s more =>
            dsimp only
            split
            · next isSign =>
              cases ds : digits more with
              | nil => exact .none
              | cons d others =>
                  have areDigits := areDigits_digits more (by simp [ds])
                  rw [ds] at areDigits
                  refine .signed (letter isLetter) ?_ areDigits
                  obtain rfl | rfl := isSign <;> decide
            · cases ds : digits (s :: more) with
              | nil => exact .none
              | cons d others =>
                  have areDigits := areDigits_digits (s :: more) (by simp [ds])
                  rw [ds] at areDigits
                  exact .unsigned (letter isLetter) areDigits
      · exact .none

/-- An unsigned number is a numeral. -/
theorem numeralParts_magnitude {text : List Char} (nonempty : magnitude text ≠ []) :
    ∃ whole fraction exponent,
      NumeralParts ((magnitude text).map plainChar) whole fraction exponent := by
  unfold magnitude at nonempty ⊢
  cases ds : digits text with
  | nil => exact absurd (by rw [ds]) nonempty
  | cons d more =>
      have some : digits text ≠ [] := by simp [ds]
      simp only [← ds, List.map_append, List.append_assoc]
      exact ⟨_, _, _, rfl, areDigits_digits text some, isFraction_fraction _, isExponent_exponent _⟩

/-! ## Kinds -/

/-- What the text of a token of a kind looks like. -/
def WellFormed : Lexeme → Prop
  | (.lparen, text) => text = "("
  | (.rparen, text) => text = ")"
  | (.lbracket, text) => text = "["
  | (.rbracket, text) => text = "]"
  | (.string, text) => ∃ more, text.toList = '"' :: more
  | (.number, text) => ∃ negative whole fraction exponent,
      IsNumeral text negative whole fraction exponent
  | (.word, text) => IsWord text
  | (.subattr, text) => ∃ c more, text.toList = '.' :: c :: more ∧ isNameStart c = true ∧
      ∀ d ∈ more, isNameChar d = true
  | (.eof, _) => True

theorem wellFormed_number (negative : Bool) {chars : List Char} (nonempty : chars ≠ [])
    (isMagnitude : ∃ text, chars = magnitude text) :
    WellFormed (.number, String.ofList (signed negative chars)) := by
  obtain ⟨text, rfl⟩ := isMagnitude
  obtain ⟨whole, fraction, exponent, parts⟩ := numeralParts_magnitude nonempty
  obtain ⟨eq, isWhole, isFraction, isExponent⟩ := parts
  refine ⟨negative, whole, fraction, exponent, ?_, rfl, isWhole, isFraction, isExponent⟩
  rw [String.toList_ofList, signed, List.map_append, eq]
  cases negative <;> rfl

theorem wellFormed_lexeme? {text chars : List Char} {kind : TokenKind}
    (found : lexeme? text = some (kind, chars)) :
    kind ≠ .eof ∧ WellFormed (kind, String.ofList chars) := by
  cases text with
  | nil => cases found
  | cons c rest =>
      unfold lexeme? at found
      dsimp only at found
      split_ifs at found with opening closing left right quote minus digit point start
      · cases found
        exact ⟨nofun, congrArg String.singleton opening⟩
      · cases found
        exact ⟨nofun, congrArg String.singleton closing⟩
      · cases found
        exact ⟨nofun, congrArg String.singleton left⟩
      · cases found
        exact ⟨nofun, congrArg String.singleton right⟩
      · obtain ⟨tail, _, same⟩ := Option.map_eq_some_iff.mp found
        cases same
        exact ⟨nofun, tail, by rw [String.toList_ofList, quote]⟩
      · cases taken : magnitude rest with
        | nil => simp [taken] at found
        | cons d more =>
            simp only [taken, Option.some.injEq, Prod.mk.injEq] at found
            obtain ⟨rfl, rfl⟩ := found
            rw [minus]
            exact ⟨nofun, wellFormed_number true (List.cons_ne_nil d more)
              ⟨rest, taken.symm⟩⟩
      · cases found
        refine ⟨nofun, wellFormed_number false ?_ ⟨c :: rest, rfl⟩⟩
        have first : digits (c :: rest) = c :: digits rest := List.takeWhile_cons_of_pos digit
        simp [first]
      · split at found
        · next s more =>
          split at found
          · next starts =>
            cases found
            refine ⟨nofun, s, more.takeWhile isNameChar, ?_, starts, ?_⟩
            · rw [String.toList_ofList, point]
            · exact fun d held => List.mem_takeWhile_imp held
          · cases found
        · cases found
      · cases found
        refine ⟨nofun, (isWord_iff _).mpr
          ⟨c, rest.takeWhile isWordChar, String.toList_ofList, start, ?_⟩⟩
        exact fun d held => List.mem_takeWhile_imp held

theorem scan_wellFormed {position skip : Nat} {text : List Char} {tokens : List Token}
    (cut : scan position skip text = .ok tokens) :
    ∃ front last, tokens = front ++ [last] ∧ last.kind = .eof ∧
      ∀ token ∈ front, token.kind ≠ .eof ∧ WellFormed token.lexeme := by
  induction text generalizing position skip tokens with
  | nil =>
      rw [scan] at cut
      cases cut
      exact ⟨[], _, rfl, rfl, List.forall_mem_nil _⟩
  | cons c rest ih =>
      cases skip with
      | succ skip => exact ih cut
      | zero =>
          rw [scan] at cut
          split at cut
          · exact ih cut
          · cases found : lexeme? (c :: rest) with
            | none =>
                rw [found] at cut
                cases cut
            | some parts =>
                obtain ⟨kind, chars⟩ := parts
                rw [found] at cut
                dsimp only at cut
                cases behind : scan (position + 1) (chars.length - 1) rest with
                | error refusal =>
                    rw [behind] at cut
                    cases cut
                | ok others =>
                    rw [behind] at cut
                    cases cut
                    obtain ⟨front, last, rfl, ends, all⟩ := ih behind
                    refine ⟨⟨kind, String.ofList chars, position⟩ :: front, last, rfl, ends, ?_⟩
                    exact List.forall_mem_cons.mpr ⟨wellFormed_lexeme? found, all⟩

/-- A text is cut into tokens that are well-formed, and the end. -/
theorem tokenize_wellFormed {text : String} {tokens : List Token}
    (cut : tokenize text = .ok tokens) :
    ∃ front last, tokens = front ++ [last] ∧ last.kind = .eof ∧
      ∀ token ∈ front, token.kind ≠ .eof ∧ WellFormed token.lexeme :=
  scan_wellFormed cut

/-- The end of a text is well-formed too. -/
theorem wellFormed_of_scan {position skip : Nat} {text : List Char} {tokens : List Token}
    (cut : scan position skip text = .ok tokens) : ∀ token ∈ tokens, WellFormed token.lexeme := by
  obtain ⟨items, last, rfl, ends, formed⟩ := scan_wellFormed cut
  refine List.forall_mem_append.mpr ⟨fun token held => (formed token held).2, ?_⟩
  rw [List.forall_mem_singleton]
  obtain ⟨kind, _, _⟩ := last
  obtain rfl : kind = .eof := ends
  trivial

end Token

/-! ## Numbers -/

namespace Filter

open Number (IsNumeral plainChar)

/-- A numeral without a fraction and an exponent is read as an integer, any other one as a
double. -/
theorem numberValue?_numeral {text : String} {negative : Bool} {whole fraction exponent : List Char}
    (numeral : IsNumeral text negative whole fraction exponent) :
    numberValue? text =
      if fraction = [] ∧ exponent = [] then (Number.readInt? text).map .int
      else (Number.readDouble? text).map .double := by
  have marked : text.toList.any (fun c => c = '.' ∨ c = 'e' ∨ c = 'E') = true ↔
      fraction ≠ [] ∨ exponent ≠ [] := by
    rw [← numeral.parts.any_mark negative, ← numeral.basic, List.any_map]
    simp only [Function.comp_def,
      Number.plainChar_eq_iff '.' (by decide) (by decide) (by decide),
      Number.plainChar_eq_iff 'e' (by decide) (by decide) (by decide),
      Number.plainChar_eq_iff 'E' (by decide) (by decide) (by decide)]
  rw [numberValue?]
  by_cases integer : fraction = [] ∧ exponent = []
  · rw [if_pos integer, if_neg]
    rw [marked, integer.1, integer.2]
    simp
  · rw [if_neg integer, if_pos]
    rw [marked]
    exact Decidable.not_and_iff_or_not.mp integer

end Filter

end Scim
