import Scim.Proofs.Path.Qualifying

/-!
# The dotted path to a value

A path that is nothing but an attribute is read from one word, with blanks around it at most.
With a point and `value` behind this word it is the path to the value of the attribute: the
longer word names the attribute with that sub-attribute, as no URN of the registry ends so.
-/

namespace Scim

/-! ## Lower-case forms -/

/-- The lower-case form of a text ends with that of its end. -/
theorem Text.exists_lowerChars_append (before text rest : List Char) :
    ∃ front, lowerChars before (text ++ rest) =
      front ++ lowerChars (text.reverse ++ before) rest := by
  induction text generalizing before with
  | nil => exact ⟨[], rfl⟩
  | cons c more ih =>
      obtain ⟨front, others⟩ := ih (c :: before)
      rw [List.cons_append, lowerChars, others, List.reverse_cons, List.append_assoc,
        List.singleton_append]
      split
      · exact ⟨_ :: front, rfl⟩
      · exact ⟨lowerChar c ++ front, (List.append_assoc ..).symm⟩

theorem Text.exists_lower_append (text tail : String) (ascii : ∀ c ∈ tail.toList, c.toNat < 128) :
    ∃ front, (lower (text ++ tail)).toList = front ++ tail.toList.map Char.toLower := by
  obtain ⟨front, lowered⟩ := exists_lowerChars_append [] text.toList tail.toList
  have kept := lowerChars_append ascii (text.toList.reverse ++ []) []
  rw [lowerChars, List.append_nil tail.toList, List.append_nil (tail.toList.map _)] at kept
  refine ⟨front, ?_⟩
  rw [lower, String.toList_ofList, String.toList_append, lowered, kept]

theorem Schema.find?_value_eq_none (word : String) : Schema.find? (word ++ ".value") = none := by
  have ends : ∀ part ∈ Schema.registry,
      (".value".toList.map Char.toLower).isSuffixOf (Text.lower part.urn).toList = false := by
    decide +kernel
  obtain ⟨front, lowered⟩ := Text.exists_lower_append word ".value" (by simp)
  rw [Schema.find?, List.find?_eq_none]
  intro part known same
  have other := ends part known
  rw [(sameName_iff _ _).mp same, lowered, List.isSuffixOf_iff_suffix.mpr (List.suffix_append _ _)]
    at other
  cases other

/-! ## One word -/

/-- A text without tokens is blank. -/
theorem Token.isBlank_of_scan {position : Nat} {text : List Char} {tokens : List Token}
    (cut : scan position 0 text = .ok tokens) (ended : (Filter.current tokens).kind = .eof) :
    ∀ c ∈ text, Text.isBlank c = true := by
  induction text generalizing position with
  | nil => exact nofun
  | cons c rest ih =>
      rw [scan] at cut
      cases blank : Text.isBlank c with
      | true =>
          rw [blank, if_pos rfl] at cut
          exact List.forall_mem_cons.mpr ⟨blank, ih cut⟩
      | false =>
          rw [blank, if_neg Bool.false_ne_true] at cut
          cases found : lexeme? (c :: rest) with
          | none =>
              rw [found] at cut
              cases cut
          | some parts =>
              obtain ⟨kind, chars⟩ := parts
              rw [found] at cut
              obtain ⟨others, _, is⟩ := bind_eq_ok_iff.mp cut
              cases is
              exact absurd ended (wellFormed_lexeme? found).1

namespace PathOf

variable {path : AttributePath} {text word attr : String} {uri : Option String}

/-- A path without a filter is read from one word. -/
theorem word_of_parse (parsed : PathOf.parse text = .ok path) (bare : path.restriction = none) :
    Token.IsWord (Text.trim text) ∧ split? (Text.trim text) = some path := by
  obtain ⟨trimmed, read⟩ := parse_eq_ok parsed
  obtain ⟨c, rest, tokens, first, chars, start, cut, split, read⟩ := read_eq_ok trimmed.starts read
  obtain ⟨rfl, ended⟩ | ⟨_, _, rfl⟩ := behind_cases read
  case inr => cases bare
  have blank := Token.isBlank_of_scan cut ended
  -- the text ends visibly, so that nothing is left behind the word
  have nothing : rest.dropWhile Token.isWordChar = [] := by
    obtain ⟨d, more, last, visible⟩ := trimmed.ends
    rw [chars, ← List.takeWhile_append_dropWhile (p := Token.isWordChar) (l := rest),
      ← List.cons_append, List.reverse_append] at last
    rcases List.eq_nil_or_concat (rest.dropWhile Token.isWordChar) with none | ⟨front, e, some⟩
    · exact none
    · rw [some, List.concat_eq_append, List.reverse_append] at last
      cases last
      have present := blank d (by simp [some])
      rw [visible] at present
      cases present
  have whole : rest.takeWhile Token.isWordChar = rest := by
    have parts := List.takeWhile_append_dropWhile (p := Token.isWordChar) (l := rest)
    rwa [nothing, List.append_nil] at parts
  rw [whole, ← chars, String.ofList_toList] at split
  exact ⟨(Token.isWord_iff _).mpr ⟨c, rest, chars, start, List.takeWhile_eq_self_iff.mp whole⟩,
    split⟩

/-- A word is read as the path that it is split into. -/
theorem parse_of_word (trimmed : Text.Trimmed word) (isWord : Token.IsWord word)
    (split : split? word = some path) : PathOf.parse word = .ok path := by
  obtain ⟨c, rest, chars, start, all⟩ := (Token.isWord_iff word).mp isWord
  have read : PathOf.read word = .ok path := by
    rw [PathOf.read, Token.tokenize, chars, Token.scan_word start,
      List.takeWhile_eq_self_iff.mpr all, List.dropWhile_eq_nil_iff.mpr all, ← chars,
      String.ofList_toList]
    dsimp only [Token.scan, Except.map]
    rw [ofTokens_word, split]
    rfl
  rw [PathOf.parse, trimmed.trim_eq, if_neg trimmed.ne_empty, read]

/-- A word that names an attribute names the value of it with a point and `value` behind it. -/
theorem Names.value (names : Names word uri attr none) :
    Names (word ++ ".value") uri attr (some "value") where
  text := by
    rw [String.toList_append, names.text]
    simp
  isAttr := names.isAttr
  isSub := by
    rintro name ⟨⟩
    exact ⟨'v', _, rfl, by decide, List.all_eq_true.mp rfl⟩
  notRegistered := by simp [Schema.find?_value_eq_none word]

/-- The text of an attribute, with a point and `value` behind it, is the path to its value. -/
theorem parse_value (parsed : PathOf.parse text = .ok path) (bare : path.restriction = none)
    (named : path.attr = some attr) (whole : path.sub = none) :
    PathOf.parse (Text.trim text ++ ".value") = .ok { path with sub := some "value" } := by
  obtain ⟨isWord, split⟩ := word_of_parse parsed bare
  obtain rfl | ⟨uri, attr, sub, rfl, names⟩ := split?_cases isWord split
  · cases named
  · cases whole
    obtain ⟨c, rest, chars, start, all⟩ := (Token.isWord_iff _).mp isWord
    have longer : Token.IsWord (Text.trim text ++ ".value") := by
      refine (Token.isWord_iff _).mpr ⟨c, rest ++ ".value".toList, ?_, start, ?_⟩
      · rw [String.toList_append, chars, List.cons_append]
      · exact List.forall_mem_append.mpr ⟨all, List.all_eq_true.mp rfl⟩
    have trimmed : Text.Trimmed (Text.trim text ++ "" ++ ".value") :=
      Text.trimmed_between (parse_eq_ok parsed).1.starts ⟨'e', _, rfl, by decide⟩ ""
    rw [String.append_empty] at trimmed
    exact parse_of_word trimmed longer names.value.split

end PathOf

end Scim
