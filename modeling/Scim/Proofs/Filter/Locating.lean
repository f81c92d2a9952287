import Scim.Proofs.Filter.Positions
import Scim.Proofs.Filter.Reading

/-!
# Where a filter is at fault

A filter that is refused is refused at a place of its text, with the text found there, or at
its end.  Whatever the parser blames is the token in front of it or one that it took before,
and all of these stand in the text.  The only refusals without a place are those of a filter
that is nested too deeply; an integer of too many digits is not even refused.
-/

namespace Scim.Filter

open Token (Anchored)

/-- A place of a text with what is found there: a fragment, or the end. -/
def Shows (text : String) (position : Nat) (fragment : String) : Prop :=
  Text.OccursAt text fragment position ∨ fragment = "<end of input>" ∧ position = text.length

theorem Shows.position_le {text fragment : String} {position : Nat}
    (shows : Shows text position fragment) : position ≤ text.length := by
  obtain occurs | ⟨_, rfl⟩ := shows
  · exact occurs.position_le
  · exact le_rfl

/-- A refusal that blames a place of a text, if it blames one. -/
def Refusal.PointsInto (text : String) : Refusal → Prop
  | .malformed _ position fragment => Shows text position fragment
  | _ => True

/-- What comes of taking something from the tokens of a text: there are tokens left, at least the
end, or a place of the text is blamed. -/
def Accounts {α : Type} (text : String) : Except Refusal (α × List Token) → Prop
  | .ok (_, rest) => Anchored text rest
  | .error refusal => refusal.PointsInto text

/-- A parser that accounts for the tokens of a text. -/
def Accountable {α : Type} (text : String)
    (parser : List Token → Except Refusal (α × List Token)) : Prop :=
  ∀ tokens, Anchored text tokens → Accounts text (parser tokens)

variable {text : String} {α β : Type}

theorem Accounts.bind {outcome : Except Refusal (α × List Token)}
    {next : α × List Token → Except Refusal (β × List Token)} (first : Accounts text outcome)
    (last : ∀ value rest, Anchored text rest → Accounts text (next (value, rest))) :
    Accounts text (outcome >>= next) := by
  cases outcome with
  | error refusal => exact first
  | ok result => exact last result.1 result.2 first

section

variable {tokens : List Token} (anchored : Anchored text tokens)
include anchored

theorem anchored_tail (notEnd : (current tokens).kind ≠ .eof) : Anchored text tokens.tail := by
  cases anchored with
  | last => exact absurd rfl notEnd
  | cons _ _ _ behind => exact behind

/-- The token in front may be blamed. -/
theorem accounts_blaming (problem : Problem) :
    Accounts text (.error (.at problem (current tokens)) : Except Refusal (α × List Token)) := by
  cases anchored with
  | last => exact .inr ⟨rfl, rfl⟩
  | cons _ nonempty occurs _ =>
      rw [current, Refusal.at, if_neg nonempty]
      exact .inl occurs

theorem accounts_expect {kind : TokenKind} (notEnd : kind ≠ .eof) (what : String) :
    Accounts text (expect kind what tokens) := by
  have blaming := accounts_blaming (α := Token) anchored (.expected what)
  cases tokens with
  | nil => exact blaming
  | cons token rest =>
      rw [expect]
      split
      · next same => exact anchored_tail anchored (by rwa [current, same])
      · exact blaming

theorem accounts_attributePath : Accounts text (attributePath tokens) := by
  have blaming := accounts_blaming (α := AttributePath) anchored (.expected "attribute path")
  cases anchored with
  | last => exact blaming
  | @cons token rest _ _ occurs behind =>
      by_cases isWord : token.kind = .word
      · simp only [attributePath, expect, if_pos isWord, bind, Except.bind]
        split
        · exact behind
        · exact .inl occurs
      · simp only [attributePath, expect, if_neg isWord]
        exact blaming

theorem accounts_literal : Accounts text (literal tokens) := by
  have blaming := accounts_blaming (α := Json) anchored
  cases tokens with
  | nil => exact blaming (.expected "comparison value")
  | cons token rest =>
      have behind : token.kind ≠ .eof → Anchored text rest := anchored_tail anchored
      unfold literal
      dsimp only
      split
      · next kind =>
        split
        · exact behind (by simp [kind])
        · exact blaming .invalidString
      · next kind =>
        split
        · exact behind (by simp [kind])
        · trivial
      · next kind =>
        split
        · exact behind (by simp [kind])
        · exact blaming (.expected "comparison value")
      · exact blaming (.expected "comparison value")

theorem accounts_condition (path : AttributePath) : Accounts text (condition path tokens) := by
  have blaming := accounts_blaming (α := Filter) anchored
  unfold condition
  dsimp only
  split
  · exact blaming (.expected "operator")
  · next isWord =>
    have behind := anchored_tail anchored (by simp_all)
    split
    · exact behind
    · split
      · exact blaming (.unknownOperator _)
      · exact (accounts_literal behind).bind fun _ _ rest => rest

end

/-! ## Brackets, rows and nesting -/

theorem accountable_restriction {nested : Parser} (accountable : Accountable text nested) :
    Accountable text (restriction nested) := by
  intro tokens anchored
  refine (accounts_expect anchored (by simp) "'['").bind fun _ rest within => ?_
  dsimp only
  split
  · exact accounts_blaming within .emptyRestriction
  · refine (accountable rest within).bind fun expr rest behind => ?_
    exact (accounts_expect behind (by simp) "']'").bind fun _ _ rest => rest

theorem accountable_atom {nested : Bool → Parser}
    (accountable : ∀ within, Accountable text (nested within)) (bracketed : Bool) :
    Accountable text (atom nested bracketed) := by
  intro tokens anchored
  have blaming := accounts_blaming (α := Filter) anchored
  unfold atom
  dsimp only
  split
  · next opening =>
    have behind := anchored_tail anchored (by simp [opening])
    refine (accountable bracketed _ behind).bind fun expr rest closing => ?_
    exact (accounts_expect closing (by simp) "')'").bind fun _ _ rest => rest
  · refine (accounts_attributePath anchored).bind fun path rest behind => ?_
    dsimp only
    split
    · split
      · exact accounts_blaming behind .nestedRestriction
      · split
        · exact accounts_blaming behind .misplacedRestriction
        · exact (accountable_restriction (accountable true) rest behind).bind fun _ _ rest => rest
    · split
      · exact blaming .uriIsNoAttribute
      · exact accounts_condition behind path
  · exact blaming (.expected "attribute path or '('")

section

variable {keyword : String} {combine : Filter → Filter → Filter} {operand : Parser}
  (accountable : Accountable text operand)
include accountable

theorem accounts_chain (rounds : Nat) (left : Filter) {tokens : List Token}
    (anchored : Anchored text tokens) :
    Accounts text (chain keyword combine operand rounds left tokens) := by
  induction rounds generalizing left tokens with
  | zero => exact anchored
  | succ rounds ih =>
      rw [chain]
      split
      · next found =>
        obtain ⟨word, position, rest, rfl, _⟩ := isKeyword_current found
        refine (accountable rest (anchored_tail anchored (by simp [current]))).bind ?_
        exact fun right rest behind => ih (combine left right) behind
      · exact anchored

theorem accountable_row : Accountable text (row keyword combine operand) := by
  intro tokens anchored
  refine (accountable tokens anchored).bind fun first rest behind => ?_
  dsimp only
  split
  · exact accounts_chain accountable _ _ behind
  · exact behind

end

/-- Filters and operands of every depth account for the tokens of a text. -/
theorem accountable_nested (depth : Nat) (bracketed : Bool) :
    Accountable text (expression depth bracketed) ∧
      Accountable text (negation depth bracketed) := by
  induction depth generalizing bracketed with
  | zero => exact ⟨fun _ _ => trivial, fun _ _ => trivial⟩
  | succ depth ih =>
      refine ⟨?_, ?_⟩
      · intro tokens anchored
        exact accountable_row (accountable_row (ih bracketed).2) tokens anchored
      · intro tokens anchored
        rw [negation]
        split
        · next found =>
          obtain ⟨word, position, rest, rfl, _⟩ := isKeyword_current found
          refine ((ih bracketed).2 rest (anchored_tail anchored (by simp [current]))).bind ?_
          exact fun _ _ rest => rest
        · exact accountable_atom (fun within => (ih within).1) bracketed tokens anchored

/-! ## Texts -/

theorem pointsInto_ofTokens {tokens : List Token} (anchored : Anchored text tokens)
    {refusal : Refusal} (refused : ofTokens tokens = .error refusal) : refusal.PointsInto text := by
  unfold ofTokens at refused
  split at refused
  · cases refused
    exact .inl (.empty text)
  · have account := (accountable_nested maxNesting false).1 tokens anchored
    cases taken : expression maxNesting false tokens with
    | error blamed =>
        rw [taken] at account refused
        cases refused
        exact account
    | ok result =>
        rw [taken] at account refused
        simp only [bind, Except.bind] at refused
        split at refused
        · cases refused
        · cases refused
          exact accounts_blaming (α := Filter) account .unexpectedToken

/-- What a filter is refused for stands in its text. -/
theorem pointsInto_read {refusal : Refusal} (refused : read text = .error refusal) :
    refusal.PointsInto text := by
  have stands := Token.standsIn_tokenize text
  rw [read] at refused
  cases cut : Token.tokenize text with
  | ok tokens =>
      rw [cut] at stands refused
      exact pointsInto_ofTokens stands refused
  | error found =>
      rw [cut] at stands refused
      cases refused
      cases found with
      | unterminatedString => exact .inl stands
      | unexpectedCharacter => exact .inl stands

/-- A failure that points into a text: an invalid filter, at a position within the text or at its
end, with the fragment found there or with the mark for the end. -/
def PointsAt (text : String) (failure : Failure) : Prop :=
  ∃ (problem : String) (position : Nat) (fragment : String),
    failure = .scim (.invalidFilter problem (some position) fragment) ∧
      position ≤ text.length ∧ Shows text position fragment

/-- A text of which every failure to read it points into it, but for one that is nested too
deeply. -/
def Located (text : String) : Prop :=
  ∀ failure, parse text = .error failure →
    failure = Refusal.toFailure .tooDeep ∨ PointsAt text failure

/-- Reading points at the fault of a text except where it gets to an integer of too many digits. -/
theorem located_iff (text : String) : Located text ↔ ¬ Overruns text := by
  constructor
  · intro located overruns
    have broken : parse text = .error (.fault .badArgument) := by
      rw [parse, read_of_overruns overruns]
      rfl
    obtain ⟨⟨⟩⟩ | ⟨_, _, _, ⟨⟩, _⟩ := located _ broken
  · intro fits failure refused
    rw [parse] at refused
    cases found : read text with
    | ok expr => simp [found, Except.mapError] at refused
    | error refusal =>
        rw [found] at refused
        cases refused
        cases refusal with
        | malformed problem position fragment =>
            have shows : Shows text position fragment := pointsInto_read found
            exact .inr ⟨problem.message, position, fragment, rfl, shows.position_le, shows⟩
        | tooDeep => exact .inl rfl
        | integerTooLong => exact absurd (overruns_of_read found) fits

/-- A parenthesis that closes nothing, behind an integer of 4301 digits, makes a text that is no
filter, but reading it fails without a place. -/
theorem not_located_long :
    ¬ Located ("a eq " ++ toString ((10 : Int) ^ Number.maxIntegerDigits) ++ " )") := by
  have front : pathText (.plain "a") ++ " " ++ CompareOp.eq.keyword ++ " " = "a eq " := by decide
  have chars : ("a eq " ++ toString ((10 : Int) ^ Number.maxIntegerDigits) ++ " )").toList =
      (compare (.plain "a") .eq (.int (10 ^ Number.maxIntegerDigits))).text.toList ++
        [' ', ')'] := by
    rw [text, front, String.toList_append]
    rfl
  rw [located_iff]
  exact not_not_intro
    (overruns_compare_append readable_a .eq long_tenTo chars Token.Yields.nil.rparen.blank rfl)

end Scim.Filter
