import Scim.Proofs.Filter.Reading
import Scim.Proofs.Path.Qualifying

/-!
# The lexemes of a path

A path is a word, or a word that names an attribute with a filter in brackets and possibly a
sub-attribute behind it.  What is read as a path has such lexemes, and such lexemes are read
as a path.  As with filters there is one exception: where the lexemes get to an integer of too
many digits, the reader breaks down, whatever stands behind it.
-/

namespace Scim

open Token (Lexeme lexeme WellFormed)
open Scim.Filter (Short TooLong short_append short_cons short_singleton not_tooLong not_tooLong_word
  map_lexeme_eq_cons map_lexeme_eq_append mark_cons_eq append_mark_eq)

/-! ## Brackets that break the reader -/

namespace Filter

theorem expect_ne_tooLong (kind : TokenKind) (what : String) (tokens : List Token) :
    expect kind what tokens ≠ .error .integerTooLong := by
  cases tokens with
  | nil =>
      intro failed
      cases failed
  | cons token rest =>
      rw [expect]
      split
      · intro failed
        cases failed
      · intro failed
        cases failed

/-- Where taking a filter in brackets breaks down, the grammar gets to an integer of too many
digits. -/
theorem tooLong_of_restriction {opening : Nat} {tokens : List Token}
    (wellFormed : ∀ token ∈ tokens, WellFormed token.lexeme)
    (failed : restriction (expression maxNesting true)
      (⟨.lbracket, "[", opening⟩ :: tokens) = .error .integerTooLong) :
    ∃ front long rest more expr, tokens = front ++ long :: rest ∧ Short (front.map lexeme) ∧
      TooLong long.lexeme ∧
      Phrase .disjunction true (front.map lexeme ++ long.lexeme :: more) expr ∧
      expr.nesting < maxNesting := by
  have explained :=
    expression_sound (negation_sound (maxNesting - 1) true) tokens wellFormed
  rw [restriction_eq] at failed
  split at failed
  · cases failed
  · cases taken : expression maxNesting true tokens with
    | error refusal =>
        rw [closed, taken] at failed
        cases failed
        rw [show expression (maxNesting - 1 + 1) true tokens = _ from taken] at explained
        obtain ⟨front, long, rest, more, expr, rfl, short, tooLong, phrase, shallow⟩ := explained
        exact ⟨front, long, rest, more, expr, rfl, short, tooLong, phrase,
          Nat.lt_of_le_of_lt shallow (by decide)⟩
    | ok result =>
        rw [closed, taken] at failed
        cases closing : expect .rbracket "']'" result.2 with
        | ok => simp [closing, bind, Except.bind, pure, Except.pure] at failed
        | error refusal =>
            simp only [closing, bind, Except.bind] at failed
            cases failed
            exact absurd closing (expect_ne_tooLong _ _ _)

end Filter

namespace PathOf

variable {path : AttributePath} {text : String}

/-! ## Lexemes that form a path -/

/-- The lexemes of a sub-attribute behind the brackets of a path. -/
def subLexemes (sub : Option String) : List Lexeme :=
  sub.elim [] fun name => [(.subattr, "." ++ name)]

/-- Lexemes that form a filter in brackets, possibly with a sub-attribute behind it. -/
inductive Bracketed : List Lexeme → Filter → Option String → Prop where
  | closed {inner : List Lexeme} {expr : Filter} {sub : Option String}
      (phrase : Filter.Phrase .disjunction true inner expr)
      (isSub : ∀ name, sub = some name → IsName name) :
      Bracketed ((.lbracket, "[") :: (inner ++ (.rbracket, "]") :: subLexemes sub)) expr sub

/-- Lexemes that form a path: a word that is split into it, or a word that names an attribute with
a filter in brackets behind it. -/
inductive Formed : List Lexeme → AttributePath → Prop where
  | word {word : String} {path : AttributePath} (isWord : Token.IsWord word)
      (split : split? word = some path) : Formed [(.word, word)] path
  | restricted {word attr : String} {uri sub : Option String} {behind : List Lexeme} {expr : Filter}
      (isWord : Token.IsWord word) (names : Names word uri attr none)
      (bracketed : Bracketed behind expr sub) :
      Formed ((.word, word) :: behind) ⟨uri, some attr, some expr, sub⟩

/-- Brackets and a sub-attribute are no integers. -/
theorem short_bracketed {inner : List Lexeme} (short : Short inner) (sub : Option String) :
    Short ((.lbracket, "[") :: (inner ++ (.rbracket, "]") :: subLexemes sub)) := by
  have ending : Short (subLexemes sub) := by
    cases sub with
    | none => exact List.forall_mem_nil _
    | some name => exact short_singleton.mpr (not_tooLong (by simp) _)
  refine short_cons.mpr ⟨not_tooLong (by simp) "[", short_append.mpr ⟨short, ?_⟩⟩
  exact short_cons.mpr ⟨not_tooLong (by simp) "]", ending⟩

/-- A path whose filter is not nested too deeply. -/
def Shallow (path : AttributePath) : Prop :=
  ∀ expr, path.restriction = some expr → expr.nesting < Filter.maxNesting

/-! ## Behind the word -/

/-- Reads what stands behind the brackets of a path. -/
def ending (path : AttributePath) (expr : Filter) (tokens : List Token) :
    Except Filter.Refusal AttributePath :=
  let (sub, rest) :=
    if (Filter.current tokens).kind = .subattr then
      (some (String.ofList ((Filter.current tokens).text.toList.drop 1)), tokens.tail)
    else (none, tokens)
  if (Filter.current rest).kind = .eof then .ok ⟨path.uri, path.attr, some expr, sub⟩
  else .error (.at .unexpectedToken (Filter.current rest))

/-- Behind the word of a path, the filter in brackets is read, and what stands behind them. -/
theorem behind_bracket (path : AttributePath) (bracket : String) (opening : Nat)
    (tokens : List Token) :
    behind path (⟨.lbracket, bracket, opening⟩ :: tokens) =
      if path.sub.isSome || path.attr.isNone then
        .error (.at .misplacedRestriction ⟨.lbracket, bracket, opening⟩)
      else
        Filter.restriction (Filter.expression Filter.maxNesting true)
          (⟨.lbracket, bracket, opening⟩ :: tokens) >>= fun (expr, rest) =>
            ending path expr rest := by
  unfold behind
  dsimp only
  rw [if_pos (show (Filter.current _).kind = .lbracket from rfl)]
  split
  · rfl
  · cases Filter.restriction (Filter.expression Filter.maxNesting true)
        (⟨.lbracket, bracket, opening⟩ :: tokens) with
    | error => rfl
    | ok result =>
        obtain ⟨expr, rest⟩ := result
        simp only [bind, Except.bind, ending]
        split <;> rfl

/-- Nothing but a filter in brackets can stand behind the word of a path. -/
theorem behind_other (path : AttributePath) {tokens : List Token}
    (other : (Filter.current tokens).kind ≠ .lbracket) :
    behind path tokens =
      if (Filter.current tokens).kind = .eof then .ok path
      else .error (.at .unexpectedToken (Filter.current tokens)) := by
  rw [behind, if_neg other]
  rfl

/-- Where there is no sub-attribute, every sub-attribute is a name. -/
theorem isName_of_no_sub (name : String) (isSub : none = some name) : IsName name := by
  cases isSub

theorem ending_eq_ok {found : AttributePath} {expr : Filter} {tokens : List Token}
    (wellFormed : ∀ token ∈ tokens, WellFormed token.lexeme)
    (read : ending path expr tokens = .ok found) :
    ∃ sub front rest, tokens = front ++ rest ∧ front.map lexeme = subLexemes sub ∧
      (∀ name, sub = some name → IsName name) ∧ found = ⟨path.uri, path.attr, some expr, sub⟩ := by
  unfold ending at read
  by_cases named : (Filter.current tokens).kind = .subattr
  · cases tokens with
    | nil => cases named
    | cons token rest =>
        obtain ⟨kind, name, position⟩ := token
        have isSub : kind = .subattr := named
        subst isSub
        obtain ⟨c, more, chars, start, all⟩ : WellFormed (.subattr, name) :=
          wellFormed _ List.mem_cons_self
        have whole : name = "." ++ String.ofList (c :: more) := by
          rw [← String.toList_inj, chars]
          simp
        rw [if_pos named] at read
        dsimp only [List.tail_cons] at read
        split at read
        · cases read
          refine ⟨some (String.ofList (c :: more)), [⟨.subattr, name, position⟩], rest, rfl, ?_, ?_,
            by simp [Filter.current, chars]⟩
          · rw [whole]
            rfl
          · rintro _ ⟨⟩
            exact ⟨c, more, String.toList_ofList, start, all⟩
        · cases read
  · rw [if_neg named] at read
    dsimp only at read
    split at read
    · cases read
      exact ⟨none, [], tokens, rfl, rfl, isName_of_no_sub, rfl⟩
    · cases read

/-- What is read behind the brackets of a path. -/
theorem ending_sub (path : AttributePath) (expr : Filter) {sub : Option String}
    {tokens : List Token} (eq : tokens.map lexeme = subLexemes sub) {last : Token}
    (ends : last.kind = .eof) :
    ending path expr (tokens ++ [last]) = .ok ⟨path.uri, path.attr, some expr, sub⟩ := by
  cases sub with
  | none =>
      obtain rfl : tokens = [] := List.map_eq_nil_iff.mp eq
      simp [ending, Filter.current, ends]
  | some name =>
      obtain ⟨position, rest, rfl, none⟩ := map_lexeme_eq_cons eq
      obtain rfl : rest = [] := List.map_eq_nil_iff.mp none
      simp [ending, Filter.current, ends]

/-! ## What is read -/

/-- What is read of brackets behind the word of a path. -/
theorem bracketed_of_behind {found : AttributePath} {tokens : List Token}
    (wellFormed : ∀ token ∈ tokens, WellFormed token.lexeme)
    (bracket : (Filter.current tokens).kind = .lbracket) (read : behind path tokens = .ok found) :
    path.sub = none ∧ path.attr.isSome ∧ ∃ expr sub front rest, tokens = front ++ rest ∧
      Short (front.map lexeme) ∧ Bracketed (front.map lexeme) expr sub ∧
      expr.nesting < Filter.maxNesting ∧
      found = ⟨path.uri, path.attr, some expr, sub⟩ := by
  cases tokens with
  | nil => cases bracket
  | cons token inner =>
      obtain ⟨kind, text, opening⟩ := token
      obtain rfl : kind = .lbracket := bracket
      rw [behind_bracket] at read
      split at read
      · cases read
      · next placed =>
        obtain ⟨noSub, hasAttr⟩ : path.sub = none ∧ path.attr.isSome := by
          simpa [Option.isSome_iff_ne_none] using placed
        refine ⟨noSub, hasAttr, ?_⟩
        obtain ⟨⟨expr, behind⟩, taken, ended⟩ := bind_eq_ok_iff.mp read
        obtain ⟨_, front, closing, is, short, phrase, shallow⟩ :=
          Filter.restriction_eq_ok wellFormed taken
        cases is
        have behindFormed : ∀ token ∈ behind, WellFormed token.lexeme :=
          fun token held => wellFormed token (by simp [held])
        obtain ⟨sub, last, rest, rfl, eq, isSub, rfl⟩ := ending_eq_ok behindFormed ended
        refine ⟨expr, sub,
          ⟨.lbracket, "[", opening⟩ :: (front ++ ⟨.rbracket, "]", closing⟩ :: last), rest, by simp,
          ?_, ?_, shallow, rfl⟩
        · simpa [eq, lexeme] using short_bracketed short sub
        · simpa [eq, lexeme] using Bracketed.closed phrase isSub

/-- A path is read from lexemes that form it. -/
theorem formed_of_ofTokens {tokens : List Token}
    (wellFormed : ∀ token ∈ tokens, WellFormed token.lexeme) (read : ofTokens tokens = .ok path) :
    ∃ front rest, tokens = front ++ rest ∧ Short (front.map lexeme) ∧
      Formed (front.map lexeme) path ∧ path.Shallow := by
  have starts := kind_of_ofTokens read
  cases tokens with
  | nil => cases starts
  | cons token more =>
      obtain ⟨kind, word, position⟩ := token
      have starts : kind = .word := starts
      subst starts
      obtain ⟨isWord, moreFormed⟩ := List.forall_mem_cons.mp wellFormed
      have isWord : Token.IsWord word := isWord
      rw [ofTokens_word] at read
      split at read
      · next first split =>
        by_cases bracket : (Filter.current more).kind = .lbracket
        · obtain ⟨noSub, hasAttr, expr, sub, front, rest, rfl, short, bracketed, shallow, rfl⟩ :=
            bracketed_of_behind moreFormed bracket read
          obtain rfl | ⟨uri, attr, _, rfl, names⟩ := split?_cases isWord split
          · cases hasAttr
          · obtain rfl : _ = none := noSub
            refine ⟨⟨.word, word, position⟩ :: front, rest, rfl, ?_,
              .restricted isWord names bracketed, ?_⟩
            · exact short_cons.mpr ⟨not_tooLong_word word, short⟩
            · rintro _ ⟨⟩
              exact shallow
        · rw [behind_other first bracket] at read
          split at read
          · cases read
            refine ⟨[⟨.word, word, position⟩], more, rfl, ?_, .word isWord split, ?_⟩
            · exact short_singleton.mpr (not_tooLong_word word)
            · obtain rfl | ⟨_, _, _, rfl, _⟩ := split?_cases isWord split <;> exact nofun
          · cases read
      · cases read

/-- Lexemes that form a path are read as the path, if it is not nested too deeply and has no integer
of too many digits. -/
theorem ofTokens_of_formed {tokens : List Token} {last : Token} (ends : last.kind = .eof)
    (formed : Formed (tokens.map lexeme) path) (short : Short (tokens.map lexeme))
    (shallow : path.Shallow) : ofTokens (tokens ++ [last]) = .ok path := by
  generalize eq : tokens.map lexeme = lexemes at formed short
  cases formed with
  | word isWord split =>
      obtain ⟨position, rest, rfl, none⟩ := map_lexeme_eq_cons eq
      obtain rfl : rest = [] := List.map_eq_nil_iff.mp none
      rw [List.singleton_append, ofTokens_word, split]
      dsimp only
      rw [behind_other _ (by simp [Filter.current, ends])]
      simp [Filter.current, ends]
  | restricted isWord names bracketed =>
      obtain ⟨phrase, isSub⟩ := bracketed
      obtain ⟨position, behind, rfl, behindEq⟩ := map_lexeme_eq_cons eq
      obtain ⟨opening, within, rfl, withinEq⟩ := map_lexeme_eq_cons behindEq
      obtain ⟨inner, closed, rfl, rfl, closedEq⟩ := map_lexeme_eq_append withinEq
      obtain ⟨closing, rest, rfl, restEq⟩ := map_lexeme_eq_cons closedEq
      have short : Short (inner.map lexeme) :=
        (short_append.mp (short_cons.mp (short_cons.mp short).2).2).1
      have taken := Filter.restriction_of_phrase phrase short (shallow _ rfl) opening closing
        (rest ++ [last])
      rw [List.cons_append, ofTokens_word, names.split]
      dsimp only
      rw [List.cons_append, List.append_assoc, List.cons_append, behind_bracket, if_neg (by simp),
        taken]
      exact ending_sub _ _ restEq ends

/-- What was read comes from well-formed lexemes of which no integer is too long. -/
theorem formed_of_parse (parsed : parse text = .ok path) :
    ∃ lexemes, (∀ lexeme ∈ lexemes, WellFormed lexeme) ∧ Short lexemes ∧ Formed lexemes path ∧
      path.Shallow := by
  obtain ⟨_, read⟩ := parse_eq_ok parsed
  rw [PathOf.read] at read
  split at read
  · next tokens cut =>
    have wellFormed := Token.wellFormed_of_scan cut
    obtain ⟨front, rest, rfl, short, formed, shallow⟩ := formed_of_ofTokens wellFormed read
    exact ⟨front.map lexeme, List.forall_mem_map.mpr fun token held =>
      wellFormed token (List.mem_append_left rest held), short, formed, shallow⟩
  · cases read

/-! ## Integers of too many digits -/

/-- The tokens of a text, up to an integer of too many digits, start a path. -/
def Overruns (text : String) : Prop :=
  ∃ front long rest more path, Token.tokenize (Text.trim text) = .ok (front ++ long :: rest) ∧
    Short (front.map lexeme) ∧ TooLong long.lexeme ∧
    Formed (front.map lexeme ++ long.lexeme :: more) path ∧ path.Shallow

/-- An integer among lexemes that form a path stands in the filter in brackets. -/
theorem Formed.number_eq {front more : List Lexeme} {long : Lexeme}
    (formed : Formed (front ++ long :: more) path) (number : long.1 = .number) :
    ∃ word uri attr expr sub before behind, front = (.word, word) :: (.lbracket, "[") :: before ∧
      path = ⟨uri, some attr, some expr, sub⟩ ∧ Names word uri attr none ∧
      Filter.Phrase .disjunction true (before ++ long :: behind) expr := by
  have differ {kind : TokenKind} {text : String} (other : kind ≠ .number) :
      ((kind, text) : Lexeme).1 ≠ long.1 := fun same => other (same.trans number)
  generalize eq : front ++ long :: more = lexemes at formed
  cases formed with
  | word =>
      obtain ⟨_, _, none⟩ := mark_cons_eq (differ (by simp)) eq.symm
      simp at none
  | @restricted word attr uri sub _ expr _ names bracketed =>
      obtain ⟨phrase, _⟩ := bracketed
      obtain ⟨_, rfl, behindEq⟩ := mark_cons_eq (differ (by simp)) eq.symm
      obtain ⟨before, rfl, innerEq⟩ := mark_cons_eq (differ (by simp)) behindEq
      obtain ⟨behind, rfl⟩ | ⟨_, _, ending⟩ := append_mark_eq (differ (by simp)) innerEq
      · exact ⟨word, uri, attr, expr, sub, before, behind, rfl, rfl, names, phrase⟩
      · -- no integer stands behind the brackets
        have held : long ∈ subLexemes sub := ending ▸ by simp
        cases sub with
        | none => cases held
        | some name =>
            obtain rfl := List.mem_singleton.mp held
            cases number

/-- Where the lexemes of a path get to an integer of too many digits, the reader breaks down. -/
theorem read_of_overruns (overruns : Overruns text) :
    PathOf.read (Text.trim text) = .error .integerTooLong := by
  obtain ⟨front, long, rest, more, path, cut, short, tooLong, formed, shallow⟩ := overruns
  obtain ⟨word, uri, attr, expr, sub, before, behind, eq, rfl, names, phrase⟩ :=
    formed.number_eq tooLong.1
  obtain ⟨position, within, rfl, withinEq⟩ := map_lexeme_eq_cons eq
  obtain ⟨opening, inner, rfl, rfl⟩ := map_lexeme_eq_cons withinEq
  have short : Short (inner.map lexeme) := (short_cons.mp (short_cons.mp short).2).2
  have shallow : expr.nesting ≤ Filter.maxNesting - 1 := by
    have bound := shallow expr rfl
    omega
  have failed := phrase.interrupted shallow tooLong short rfl inner rfl rest
  rw [← Filter.expression_maxNesting] at failed
  have notClosing : (Filter.current (inner ++ long :: rest)).kind ≠ .rbracket := by
    obtain starts | starts := phrase.current_starts rest <;> simp [starts]
  rw [PathOf.read, cut]
  dsimp only [List.cons_append]
  rw [ofTokens_word, names.split]
  dsimp only
  rw [behind_bracket, if_neg (by simp), Filter.restriction_eq, if_neg notClosing, Filter.closed,
    failed]
  rfl

theorem ending_ne_tooLong (path : AttributePath) (expr : Filter) (tokens : List Token) :
    ending path expr tokens ≠ .error .integerTooLong := by
  unfold ending
  dsimp only
  split <;> split <;> nofun

/-- Where reading what stands behind the word of a path breaks down. -/
theorem tooLong_of_behind {tokens : List Token}
    (wellFormed : ∀ token ∈ tokens, WellFormed token.lexeme)
    (failed : behind path tokens = .error .integerTooLong) :
    path.sub = none ∧ path.attr.isSome ∧ ∃ opening front long rest more expr,
      tokens = ⟨.lbracket, "[", opening⟩ :: (front ++ long :: rest) ∧ Short (front.map lexeme) ∧
      TooLong long.lexeme ∧
      Filter.Phrase .disjunction true (front.map lexeme ++ long.lexeme :: more) expr ∧
      expr.nesting < Filter.maxNesting := by
  by_cases bracket : (Filter.current tokens).kind = .lbracket
  · cases tokens with
    | nil => cases bracket
    | cons token inner =>
        obtain ⟨kind, text, opening⟩ := token
        obtain rfl : kind = .lbracket := bracket
        obtain ⟨formed, innerFormed⟩ := List.forall_mem_cons.mp wellFormed
        obtain rfl : text = "[" := formed
        rw [behind_bracket] at failed
        split at failed
        · cases failed
        · next placed =>
          obtain ⟨noSub, hasAttr⟩ : path.sub = none ∧ path.attr.isSome := by
            simpa [Option.isSome_iff_ne_none] using placed
          refine ⟨noSub, hasAttr, opening, ?_⟩
          cases taken : Filter.restriction (Filter.expression Filter.maxNesting true)
              (⟨.lbracket, "[", opening⟩ :: inner) with
          | ok result =>
              rw [taken] at failed
              exact absurd failed (ending_ne_tooLong path _ _)
          | error refusal =>
              rw [taken] at failed
              cases failed
              obtain ⟨front, long, rest, more, expr, rfl, found⟩ :=
                Filter.tooLong_of_restriction innerFormed taken
              exact ⟨front, long, rest, more, expr, rfl, found⟩
  · rw [behind_other path bracket] at failed
    split at failed <;> cases failed

/-- Where reading a path breaks down, its lexemes get to an integer of too many digits. -/
theorem overruns_of_read (failed : PathOf.read (Text.trim text) = .error .integerTooLong) :
    Overruns text := by
  rw [PathOf.read] at failed
  split at failed
  case h_2 refusal _ => cases refusal <;> cases failed
  next tokens cut =>
    have wellFormed := Token.wellFormed_of_scan cut
    cases tokens with
    | nil => cases failed
    | cons token more =>
        obtain ⟨kind, word, position⟩ := token
        obtain ⟨formed, moreFormed⟩ := List.forall_mem_cons.mp wellFormed
        by_cases starts : kind = .word
        · subst starts
          have isWord : Token.IsWord word := formed
          rw [ofTokens_word] at failed
          split at failed
          · next first split =>
            obtain ⟨noSub, hasAttr, opening, front, long, rest, more, expr, rfl, short, tooLong,
              phrase, shallow⟩ := tooLong_of_behind moreFormed failed
            obtain rfl | ⟨uri, attr, _, rfl, names⟩ := split?_cases isWord split
            · cases hasAttr
            · obtain rfl : _ = none := noSub
              have bracketed := Bracketed.closed phrase isName_of_no_sub
              refine ⟨⟨.word, word, position⟩ :: ⟨.lbracket, "[", opening⟩ :: front, long, rest,
                more ++ [(.rbracket, "]")], ⟨uri, some attr, some expr, none⟩, cut, ?_, tooLong, ?_,
                ?_⟩
              · exact short_cons.mpr ⟨not_tooLong_word word,
                  short_cons.mpr ⟨not_tooLong (by simp) "[", short⟩⟩
              · simpa [subLexemes, lexeme] using Formed.restricted isWord names bracketed
              · rintro _ ⟨⟩
                exact shallow
          · cases failed
        · rw [ofTokens] at failed
          split at failed
          · cases failed
          · simp [Filter.attributePath, Filter.expect, starts, bind, Except.bind, Filter.Refusal.at]
              at failed

end PathOf

end Scim
