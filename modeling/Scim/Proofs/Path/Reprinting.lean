import Scim.Proofs.Filter.Reprinting
import Scim.Proofs.Path.Forming

/-!
# The text of a path that was read

The text of a path that was read is a word, with the filter in brackets and the point and the
name of a sub-attribute behind it.  It reads back as the path if the numbers of the filter are
finite.  A text that is no path is refused as an invalid path, except where the lexemes get to
an integer of too many digits.
-/

namespace Scim

open Token (Lexeme WellFormed Yields)
open Scim.Filter (Short TooLong short_append short_cons short_singleton not_tooLong not_tooLong_word
  map_lexeme_eq_cons)

/-! ## Names behind a point -/

theorem Token.not_isNameChar_of_isCloser {c : Char} (closer : isCloser c = true) :
    isNameChar c = false := by
  have notWord := not_isWordChar_of_isCloser closer
  simp only [isWordChar, Bool.or_eq_false_iff] at notWord
  exact notWord.1.1

/-- A name with a point before it is one token. -/
theorem PathOf.IsName.yields {name : String} (named : IsName name) :
    Yields ('.' :: name.toList) [(.subattr, "." ++ name)] := by
  obtain ⟨c, rest, chars, start, all⟩ := named
  have text : String.ofList ('.' :: c :: rest) = "." ++ name := by
    rw [← chars, ← String.toList_inj]
    simp
  rw [chars, ← text]
  refine .token (by decide) fun more closed => ?_
  have taken := closed.takeWhile_append (fun _ => Token.not_isNameChar_of_isCloser) all
  have notDigit : Text.isDigit '.' = false := by decide
  simp [Token.lexeme?, start, taken, notDigit]

theorem Token.isBlank_of_isNameChar {c : Char} (isChar : isNameChar c = true) :
    Text.isBlank c = false :=
  not_isBlank (by simp [isWordChar, isChar])

theorem Token.isBlank_of_isNameStart {c : Char} (start : isNameStart c = true) :
    Text.isBlank c = false :=
  isBlank_of_isNameChar (isNameChar_of_isNameStart start)

theorem PathOf.IsName.endsVisibly {name : String} (named : IsName name) :
    Text.StartsVisibly name.toList.reverse := by
  obtain ⟨c, rest, chars, start, all⟩ := named
  refine Text.startsVisibly_of_forall (by simp [chars]) fun d held => ?_
  rw [List.mem_reverse, chars, List.mem_cons] at held
  obtain rfl | held := held
  · exact Token.isBlank_of_isNameStart start
  · exact Token.isBlank_of_isNameChar (all d held)

theorem Token.IsWord.trimmed {word : String} (isWord : IsWord word) : Text.Trimmed word := by
  obtain ⟨c, rest, chars, start, all⟩ := (isWord_iff word).mp isWord
  refine ⟨⟨c, rest, chars, isBlank_of_isNameStart start⟩,
    Text.startsVisibly_of_forall (by simp [chars]) fun d held => ?_⟩
  rw [List.mem_reverse, chars, List.mem_cons] at held
  obtain rfl | held := held
  · exact isBlank_of_isNameStart start
  · exact not_isBlank (all d held)

namespace PathOf

variable {path : AttributePath} {text : String}

/-! ## The text of a path -/

/-- A path with no number that is an infinity or a NaN in its filter. -/
def FiniteNumbers (path : AttributePath) : Prop :=
  ∀ expr, path.restriction = some expr → expr.FiniteNumbers

/-- A path with a filter is written as that without it and the sub-attribute, with the filter in
brackets and the sub-attribute behind. -/
theorem text_restricted (uri : Option String) (attr : String) (expr : Filter) {sub : Option String}
    (isSub : ∀ name, sub = some name → IsName name) :
    (⟨uri, some attr, some expr, sub⟩ : AttributePath).text.toList =
      (⟨uri, some attr, none, none⟩ : AttributePath).text.toList ++
        '[' :: (expr.text.toList ++ ']' :: sub.elim [] ('.' :: ·.toList)) := by
  have ending : (⟨uri, some attr, none, sub⟩ : PathOf Unit).tail.toList =
      sub.elim [] ('.' :: ·.toList) := by
    cases sub with
    | none => rfl
    | some name =>
        have nonempty : name ≠ "" := by
          rintro rfl
          obtain ⟨_, _, chars, _⟩ := isSub "" rfl
          cases chars
        simp [tail]
  have bare : (⟨uri, some attr, none, none⟩ : PathOf Unit).tail = "" := rfl
  have same : (⟨uri, some attr, none, sub⟩ : PathOf Unit).head =
      (⟨uri, some attr, none, none⟩ : PathOf Unit).head := rfl
  simp [PathOf.text, Filter.pathText, Filter.restrictionText, ending, bare, same]

/-- What stands behind the word of a path ends visibly. -/
theorem bracketed_endsVisibly {sub : Option String} (isSub : ∀ name, sub = some name → IsName name)
    (front : List Char) :
    Text.StartsVisibly (front ++ ']' :: sub.elim [] ('.' :: ·.toList)).reverse := by
  rw [List.reverse_append]
  refine Text.StartsVisibly.append ?_ _
  cases sub with
  | none => exact ⟨']', [], rfl, by decide⟩
  | some name =>
      have ends := (isSub name rfl).endsVisibly
      simpa using ends.append ['.', ']']

/-- What stands behind the word of a path yields its lexemes. -/
theorem bracketed_yields {expr : Filter} (expressible : expr.Expressible true) {sub : Option String}
    (isSub : ∀ name, sub = some name → IsName name) :
    Yields ('[' :: (expr.text.toList ++ ']' :: sub.elim [] ('.' :: ·.toList)))
      ((.lbracket, "[") :: (expr.lexemes ++ (.rbracket, "]") :: subLexemes sub)) := by
  have ending : Yields (sub.elim [] ('.' :: ·.toList)) (subLexemes sub) := by
    cases sub with
    | none => exact Yields.nil
    | some name => exact (isSub name rfl).yields
  exact ((Filter.yields_text expressible).append ending.rbracket rfl).lbracket

/-- The text of a path that was read is trimmed and yields lexemes that form the path. -/
theorem Formed.reprinted {lexemes : List Lexeme} (formed : Formed lexemes path)
    (wellFormed : ∀ lexeme ∈ lexemes, WellFormed lexeme) (short : Short lexemes)
    (finite : path.FiniteNumbers) :
    Text.Trimmed path.text ∧ ∃ others, Yields path.text.toList others ∧ Formed others path ∧
      Short others := by
  cases formed with
  | @word word path isWord split =>
      obtain ⟨_, again, splitAgain⟩ := (show path.FromWord from ⟨word, isWord, split⟩).wordOf
      exact ⟨again.trimmed, _, .word again, .word again splitAgain,
        short_singleton.mpr (not_tooLong_word _)⟩
  | @restricted word attr uri sub behind expr isWord names bracketed =>
      obtain ⟨phrase, isSub⟩ := bracketed
      rw [List.forall_mem_cons, List.forall_mem_cons, List.forall_mem_append] at wellFormed
      rw [short_cons, short_cons, short_append] at short
      have expressible := phrase.expressible wellFormed.2.2.1 short.2.2.1 (finite _ rfl)
      have again : Filter.Phrase .disjunction true expr.lexemes expr := by
        have derived := (Filter.derived expressible).disjunction
        rwa [phrase.canonical_eq] at derived
      have fromWord : (⟨uri, some attr, none, none⟩ : AttributePath).FromWord :=
        ⟨word, isWord, names.split⟩
      obtain ⟨_, isWord, split⟩ := fromWord.wordOf
      have names : Names (Filter.pathText ⟨uri, some attr, none, none⟩) uri attr none := by
        obtain impossible | ⟨_, _, _, same, names⟩ := split?_cases isWord split
        · cases congrArg PathOf.attr impossible
        · cases same
          exact names
      have chars := text_restricted uri attr expr isSub
      refine ⟨⟨?_, ?_⟩, _, ?_, .restricted isWord names (.closed again isSub), ?_⟩
      · rw [chars]
        exact isWord.trimmed.starts.append _
      · rw [chars, ← List.cons_append, ← List.append_assoc]
        exact bracketed_endsVisibly isSub _
      · rw [chars]
        exact (Yields.word isWord).append (bracketed_yields expressible isSub) rfl
      · exact short_cons.mpr ⟨not_tooLong_word _,
          short_bracketed (Filter.short_lexemes expressible) sub⟩

/-- The text of a path that was read reads back as the path if the numbers of its filter are
finite. -/
theorem parse_text (parsed : parse text = .ok path) (finite : path.FiniteNumbers) :
    parse path.text = .ok path := by
  obtain ⟨lexemes, wellFormed, short, formed, shallow⟩ := formed_of_parse parsed
  obtain ⟨trimmed, others, yields, again, short⟩ := formed.reprinted wellFormed short finite
  obtain ⟨tokens, last, cut, rfl, ends⟩ := yields.tokenize
  have read : PathOf.read path.text = .ok path := by
    rw [PathOf.read, cut]
    exact ofTokens_of_formed ends again short shallow
  rw [parse, trimmed.trim_eq, if_neg trimmed.ne_empty, read]

/-! ## Reading faithfully -/

/-- A path that is read from a text with finite numbers is read from its own text as well, and a
text that is no path is refused as an invalid path, unless it is nested too deeply. -/
structure ReadsFaithfully (text : String) : Prop where
  again : ∀ path, parse text = .ok path → path.FiniteNumbers → parse path.text = .ok path
  refuses : ∀ failure, parse text = .error failure →
    failure = .fault .tooDeep ∨ ∃ problem quoted, failure = .scim (.invalidPath problem quoted)

/-- Reading a path is faithful except where it gets to an integer of too many digits. -/
theorem readsFaithfully_iff (text : String) : ReadsFaithfully text ↔ ¬ Overruns text := by
  constructor
  · intro faithful overruns
    have nonempty : Text.trim text ≠ "" := by
      intro empty
      have failed := read_of_overruns overruns
      rw [empty] at failed
      cases failed
    have broken : parse text = .error (.fault .badArgument) := by
      rw [parse, if_neg nonempty, read_of_overruns overruns]
      rfl
    obtain ⟨⟨⟩⟩ | ⟨_, _, ⟨⟩⟩ := faithful.refuses _ broken
  · intro fits
    refine ⟨fun path parsed finite => parse_text parsed finite, fun failure refused => ?_⟩
    rw [parse] at refused
    split at refused
    · cases refused
      exact .inr ⟨_, _, rfl⟩
    · split at refused
      · cases refused
      · cases refused
        exact .inr ⟨_, _, rfl⟩
      · cases refused
        exact .inl rfl
      · next failed => exact absurd (overruns_of_read failed) fits

/-- A comparison with an integer of too many digits in brackets breaks the reader, also if the
brackets do not close. -/
theorem overruns_compare {word attr : String} {uri : Option String} (isWord : Token.IsWord word)
    (names : Names word uri attr none) {path : AttributePath} (readable : path.Readable)
    (op : CompareOp) {n : Int}
    (long : Number.maxIntegerDigits < (Nat.toDigits 10 n.natAbs).length) :
    Overruns (word ++ "[" ++ (Filter.compare path op (.int n)).text) := by
  have trimmed : Text.Trimmed (word ++ "[" ++ (Filter.compare path op (.int n)).text) := by
    refine Text.trimmed_between isWord.trimmed.starts ?_ "["
    rw [Filter.text, String.toList_append, List.reverse_append]
    exact (Number.isNumeral_toString n).trimmed.ends.append _
  have valueYields : Yields (Json.compact (.int n)).toList [Filter.literalLexeme (.int n)] := .int n
  have yields := (Yields.word isWord).append
    (Filter.yields_compare readable.fromWord op valueYields).lbracket rfl
  have chars : (word ++ "[" ++ (Filter.compare path op (.int n)).text).toList =
      word.toList ++ '[' :: (Filter.compare path op (.int n)).text.toList := by simp
  rw [← chars] at yields
  obtain ⟨tokens, last, cut, tokensEq, _⟩ := yields.tokenize
  obtain ⟨position, within, rfl, withinEq⟩ := map_lexeme_eq_cons tokensEq
  obtain ⟨opening, inner, rfl, innerEq⟩ := map_lexeme_eq_cons withinEq
  obtain ⟨place, words, rfl, wordsEq⟩ := map_lexeme_eq_cons innerEq
  obtain ⟨spot, values, rfl, valuesEq⟩ := map_lexeme_eq_cons wordsEq
  obtain ⟨value, rfl, numeral⟩ := List.map_eq_singleton_iff.mp valuesEq
  have tooLong : TooLong value.lexeme := numeral ▸ Filter.tooLong_toString long
  obtain ⟨expr, phrase, shallow⟩ := Filter.phrase_compare_long readable op tooLong true
  refine ⟨[⟨.word, word, position⟩, ⟨.lbracket, "[", opening⟩, ⟨.word, Filter.pathText path, place⟩,
    ⟨.word, op.keyword, spot⟩], value, [last], [(.rbracket, "]")],
    ⟨uri, some attr, some expr, none⟩, ?_, ?_, tooLong,
    .restricted isWord names (.closed phrase isName_of_no_sub), ?_⟩
  · rw [trimmed.trim_eq, cut]
    rfl
  · exact short_cons.mpr ⟨not_tooLong_word word,
      short_cons.mpr ⟨not_tooLong (by simp) "[", Filter.short_words _ _⟩⟩
  · rintro _ ⟨⟩
    exact shallow

/-- Brackets that do not close make a text that is no path, but with an integer of 4301 digits in
them it is not refused as one. -/
theorem not_readsFaithfully_long :
    ¬ ReadsFaithfully ("a[a eq " ++ toString ((10 : Int) ^ Number.maxIntegerDigits)) := by
  have front : "a" ++ "[" ++ (Filter.pathText (.plain "a") ++ " " ++ CompareOp.eq.keyword ++ " ") =
      "a[a eq " := by decide
  have names : Names "a" none "a" none := ⟨rfl, ⟨'a', [], rfl, by decide, nofun⟩, nofun, by decide⟩
  have overruns := overruns_compare (by decide) names Filter.readable_a .eq Filter.long_tenTo
  rw [Filter.text, ← String.append_assoc, front] at overruns
  rw [readsFaithfully_iff]
  exact not_not_intro overruns

end PathOf

end Scim
