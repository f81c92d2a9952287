import Mathlib.Data.List.Infix
import Scim.Proofs.Filter.Tokens

/-!
# Where tokens stand

A token is a stretch of the text that it was cut from, and its position is where the stretch
starts.  The token for the end stands behind the last character.  A text that cannot be cut
into tokens is refused at a place where it goes on with what the refusal shows.
-/

namespace Scim

/-- A fragment stands at a position of a text. -/
def Text.OccursAt (text fragment : String) (position : Nat) : Prop :=
  ∃ before after, text = before ++ fragment ++ after ∧ before.length = position

namespace Text.OccursAt

theorem of_isPrefix {before chars rest : List Char} (isPrefix : chars <+: rest) :
    OccursAt (String.ofList (before ++ rest)) (String.ofList chars) before.length := by
  obtain ⟨after, rfl⟩ := isPrefix
  refine ⟨String.ofList before, String.ofList after, ?_, by simp⟩
  rw [← String.toList_inj]
  simp

theorem empty (text : String) : OccursAt text "" 0 := ⟨"", text, by simp, rfl⟩

theorem position_le {text fragment : String} {position : Nat}
    (occurs : OccursAt text fragment position) : position ≤ text.length := by
  obtain ⟨before, after, rfl, rfl⟩ := occurs
  simp only [String.length_append]
  omega

end Text.OccursAt

namespace Token

/-! ## Lexemes -/

theorem stringTail?_isPrefix {text tail : List Char} (found : stringTail? text = some tail) :
    tail <+: text := by
  fun_induction stringTail? text generalizing tail with
  | case1 | case2 | case3 => cases found
  | case4 c rest _ ih =>
      obtain ⟨more, within, rfl⟩ := Option.map_eq_some_iff.mp found
      simpa using ih within
  | case5 rest =>
      cases found
      simp
  | case6 c rest _ _ _ ih =>
      obtain ⟨more, within, rfl⟩ := Option.map_eq_some_iff.mp found
      simpa using ih within

theorem digits_isPrefix (text : List Char) : digits text <+: text := List.takeWhile_prefix _

theorem fraction_isPrefix (text : List Char) : fraction text <+: text := by
  unfold fraction
  split
  · next rest =>
    split
    · exact List.nil_prefix
    · simpa using digits_isPrefix rest
  · exact List.nil_prefix

theorem exponent_isPrefix (text : List Char) : exponent text <+: text := by
  cases text with
  | nil => exact List.nil_prefix
  | cons e rest =>
      unfold exponent
      dsimp only
      split
      · split
        · exact List.nil_prefix
        · next s more =>
          split
          · split
            · exact List.nil_prefix
            · simpa using digits_isPrefix more
          · split
            · exact List.nil_prefix
            · simpa using digits_isPrefix (s :: more)
      · exact List.nil_prefix

/-- A stretch of a text, followed by one of what is behind it, is a stretch. -/
theorem append_isPrefix {first text : List Char} (isPrefix : first <+: text) {last : List Char}
    (behind : last <+: text.drop first.length) : first ++ last <+: text := by
  obtain ⟨rest, rfl⟩ := isPrefix
  rw [List.drop_left] at behind
  exact (List.prefix_append_right_inj first).mpr behind

theorem magnitude_isPrefix (text : List Char) : magnitude text <+: text := by
  unfold magnitude
  split
  · exact List.nil_prefix
  · have whole := append_isPrefix (digits_isPrefix text) (fraction_isPrefix _)
    refine append_isPrefix whole ?_
    rw [List.length_append, ← List.drop_drop]
    exact exponent_isPrefix _

/-- The characters of a lexeme are at least one, and the text starts with them. -/
theorem lexeme?_isPrefix {text chars : List Char} {kind : TokenKind}
    (found : lexeme? text = some (kind, chars)) : chars ≠ [] ∧ chars <+: text := by
  cases text with
  | nil => cases found
  | cons c rest =>
      have mark : [c] ≠ [] ∧ [c] <+: c :: rest := by simp
      unfold lexeme? at found
      dsimp only at found
      split_ifs at found with opening closing left right quote minus digit point start
      · cases found
        exact mark
      · cases found
        exact mark
      · cases found
        exact mark
      · cases found
        exact mark
      · obtain ⟨tail, within, same⟩ := Option.map_eq_some_iff.mp found
        cases same
        simpa using stringTail?_isPrefix within
      · have behind := magnitude_isPrefix rest
        split at found
        · cases found
        · cases found
          simpa using behind
      · cases found
        refine ⟨?_, magnitude_isPrefix (c :: rest)⟩
        have first : digits (c :: rest) = c :: digits rest := List.takeWhile_cons_of_pos digit
        simp [magnitude, first]
      · split at found
        · next s more =>
          split at found
          · cases found
            simpa using List.takeWhile_prefix isNameChar (l := more)
          · cases found
        · cases found
      · cases found
        simpa using List.takeWhile_prefix isWordChar (l := rest)

/-! ## Tokens -/

/-- Tokens of a text, from some place on: each stands where its position says, and the end stands
behind the last character. -/
inductive Anchored (text : String) : List Token → Prop where
  | last : Anchored text [⟨.eof, "", text.length⟩]
  | cons {token : Token} {rest : List Token} (notEnd : token.kind ≠ .eof)
      (nonempty : token.text ≠ "") (occurs : Text.OccursAt text token.text token.position)
      (behind : Anchored text rest) : Anchored text (token :: rest)

/-- What the place of a refusal is: the text goes on there with what the refusal shows. -/
def Refusal.Occurs (text : String) : Refusal → Prop
  | .unterminatedString position fragment | .unexpectedCharacter position fragment =>
    Text.OccursAt text fragment position

theorem occurs_refusalAt (before rest : List Char) :
    (refusalAt before.length rest).Occurs (String.ofList (before ++ rest)) := by
  unfold refusalAt
  split
  · exact .of_isPrefix (List.take_prefix 20 rest)
  · exact .of_isPrefix (List.take_prefix 1 rest)

/-- What comes of cutting a text stands in it. -/
def StandsIn (text : String) : Except Refusal (List Token) → Prop
  | .ok tokens => Anchored text tokens
  | .error refusal => refusal.Occurs text

/-- What comes of cutting a text behind some characters stands in the whole of it. -/
theorem standsIn_scan (before : List Char) (skip : Nat) (text : List Char) :
    StandsIn (String.ofList (before ++ text)) (scan before.length skip text) := by
  induction text generalizing before skip with
  | nil =>
      have ending : Anchored (String.ofList before) _ := .last
      simpa [scan, StandsIn] using ending
  | cons c rest ih =>
      have further (skip : Nat) := ih (before ++ [c]) skip
      simp only [List.length_append, List.length_singleton, List.append_assoc,
        List.singleton_append] at further
      cases skip with
      | succ skip => exact further skip
      | zero =>
          rw [scan]
          split
          · exact further 0
          · cases found : lexeme? (c :: rest) with
            | none => exact occurs_refusalAt before (c :: rest)
            | some parts =>
                obtain ⟨kind, chars⟩ := parts
                have behind := further (chars.length - 1)
                dsimp only
                cases cut : scan (before.length + 1) (chars.length - 1) rest with
                | error refusal =>
                    rw [cut] at behind
                    exact behind
                | ok tokens =>
                    rw [cut] at behind
                    obtain ⟨nonempty, isPrefix⟩ := lexeme?_isPrefix found
                    exact .cons (wellFormed_lexeme? found).1 (by simpa using nonempty)
                      (.of_isPrefix isPrefix) behind

/-- The tokens of a text stand in it, and so does what it is refused for. -/
theorem standsIn_tokenize (text : String) : StandsIn text (tokenize text) := by
  have whole := standsIn_scan [] 0 text.toList
  rwa [List.nil_append, String.ofList_toList] at whole

end Token

end Scim
