import Scim.Proofs.Action
import Scim.Proofs.Filter.Reading
import Scim.Proofs.Resource.Attributes

/-!
# Paths with a URN before them

The text of a path without a URN starts with a word.  With a URN and a colon before it, this
word becomes a longer one that names the same attribute under the URN, and the tokens behind
it stay what they are, in other positions.  As positions matter to refusals only, the rest of
the path is read as before.
-/

namespace Scim

open Token (Lexeme lexeme WellFormed)

/-! ## Lower-case forms -/

theorem Text.lowerChars_append {text : List Char} (ascii : ∀ c ∈ text, c.toNat < 128)
    (before rest : List Char) :
    lowerChars before (text ++ rest) =
      text.map Char.toLower ++ lowerChars (text.reverse ++ before) rest := by
  induction text generalizing before with
  | nil => rfl
  | cons c more ih =>
      obtain ⟨low, others⟩ := List.forall_mem_cons.mp ascii
      have notSigma : c ≠ 'Σ' := by
        rintro rfl
        exact absurd low (by decide)
      rw [List.cons_append, lowerChars, if_neg notSigma, lowerChar, if_pos low, ih others]
      simp

/-! ## The word -/

/-- A URN that can stand before any path: it is a word, and no URN of the registry goes on
behind it and a colon. -/
structure Qualifies (urn : String) : Prop where
  isWord : Token.IsWord urn
  ascii : urn.toList.all (·.toNat < 128) = true
  unregistered : ∀ part ∈ Schema.registry,
    ((urn.toList ++ [':']).map Char.toLower).isPrefixOf (Text.lower part.urn).toList = false

theorem qualifies_userUrn : Qualifies userUrn :=
  ⟨by decide +kernel, by decide +kernel, by decide +kernel⟩

theorem qualifies_groupUrn : Qualifies groupUrn :=
  ⟨by decide +kernel, by decide +kernel, by decide +kernel⟩

/-- A text with a URN and a colon before it. -/
def qualified (urn text : String) : String := urn ++ ":" ++ text

theorem toList_qualified (urn text : String) :
    (qualified urn text).toList = urn.toList ++ [':'] ++ text.toList := by
  simp [qualified]

namespace Qualifies

variable {urn word attr : String} {sub : Option String} (qualifies : Qualifies urn)
include qualifies

theorem find?_eq_none (word : String) : Schema.find? (qualified urn word) = none := by
  rw [Schema.find?, List.find?_eq_none]
  intro part known same
  rw [sameName_iff] at same
  have ascii : ∀ c ∈ urn.toList ++ [':'], c.toNat < 128 := by
    refine List.forall_mem_append.mpr ⟨fun c held => ?_, List.forall_mem_singleton.mpr (by decide)⟩
    simpa using List.all_eq_true.mp qualifies.ascii c held
  have goesOn := qualifies.unregistered part known
  rw [same, Text.lower, toList_qualified, String.toList_ofList, Text.lowerChars_append ascii] at goesOn
  rw [List.isPrefixOf_iff_prefix.mpr (List.prefix_append _ _)] at goesOn
  cases goesOn

/-- A word that names an attribute names it under the URN if this stands before it. -/
theorem names (names : PathOf.Names word none attr sub) :
    PathOf.Names (qualified urn word) (some urn) attr sub where
  text := by
    rw [toList_qualified, names.text]
    simp
  isAttr := names.isAttr
  isSub := names.isSub
  notRegistered := by simp [qualifies.find?_eq_none word]

end Qualifies

/-! ## Tokens in other positions -/

namespace Token

/-- What a text is cut into does not depend on where it stands. -/
theorem scan_moved {position skip : Nat} {text : List Char} {tokens : List Token}
    (cut : scan position skip text = .ok tokens) (place : Nat) :
    ∃ moved, scan place skip text = .ok moved ∧ moved.map lexeme = tokens.map lexeme := by
  induction text generalizing position skip tokens place with
  | nil =>
      cases cut
      exact ⟨_, rfl, rfl⟩
  | cons c rest ih =>
      cases skip with
      | succ skip => exact ih cut (place + 1)
      | zero =>
          rw [scan] at cut ⊢
          cases blank : Text.isBlank c with
          | true =>
              rw [blank, if_pos rfl] at cut
              rw [if_pos rfl]
              exact ih cut (place + 1)
          | false =>
              rw [blank, if_neg Bool.false_ne_true] at cut
              rw [if_neg Bool.false_ne_true]
              cases found : lexeme? (c :: rest) with
              | none =>
                  rw [found] at cut
                  cases cut
              | some parts =>
                  obtain ⟨kind, chars⟩ := parts
                  rw [found] at cut
                  dsimp only at cut ⊢
                  cases behind : scan (position + 1) (chars.length - 1) rest with
                  | error refusal =>
                      rw [behind] at cut
                      cases cut
                  | ok others =>
                      rw [behind] at cut
                      cases cut
                      obtain ⟨moved, movedEq, same⟩ := ih behind (place + 1)
                      rw [movedEq]
                      exact ⟨_, rfl, by rw [List.map_cons, List.map_cons, same]; rfl⟩

theorem isNameChar_of_isNameStart {c : Char} (start : isNameStart c = true) :
    isNameChar c = true := by
  have low : c.toNat < 128 := by
    have code := (isNameStart_iff c).mp start
    omega
  rw [isNameStart] at start
  rw [isNameChar, Text.isWord, if_pos low]
  grind

/-- A text that starts with a name is cut into the word there, and what is behind the word. -/
theorem scan_word {c : Char} (start : isNameStart c = true) (rest : List Char) :
    scan 0 0 (c :: rest) =
      (scan (c :: rest.takeWhile isWordChar).length 0 (rest.dropWhile isWordChar)).map
        (⟨.word, String.ofList (c :: rest.takeWhile isWordChar), 0⟩ :: ·) := by
  have code := (isNameStart_iff c).mp start
  have visible : Text.isBlank c = false := Text.isBlank_of_ascii (by omega) (by omega)
  have whole : c :: rest.takeWhile isWordChar ++ rest.dropWhile isWordChar = c :: rest := by
    rw [List.cons_append, List.takeWhile_append_dropWhile]
  have found : lexeme? (c :: rest.takeWhile isWordChar ++ rest.dropWhile isWordChar) = _ :=
    whole ▸ lexeme?_nameStart start rest
  have cut := scan_token visible found 0
  rw [whole, Nat.zero_add] at cut
  exact cut

end Token

/-! ## The tokens behind the word -/

namespace Filter

theorem expect_eq_ok {kind : TokenKind} {what : String} {tokens rest : List Token} {token : Token}
    (taken : expect kind what tokens = .ok (token, rest)) :
    tokens = token :: rest ∧ token.kind = kind := by
  cases tokens with
  | nil => cases taken
  | cons first others =>
      rw [expect] at taken
      split at taken
      · next same =>
        cases taken
        exact ⟨rfl, same⟩
      · cases taken

theorem current_moved {tokens moved : List Token} (same : moved.map lexeme = tokens.map lexeme) :
    (current moved).lexeme = (current tokens).lexeme := by
  cases tokens with
  | nil =>
      rw [List.map_nil, List.map_eq_nil_iff] at same
      rw [same]
  | cons token rest =>
      cases moved with
      | nil => cases same
      | cons first others => exact (List.cons.inj same).1

/-- What is taken in brackets stands between them. -/
theorem restriction_eq_ok {tokens rest : List Token} {expr : Filter}
    (wellFormed : ∀ token ∈ tokens, WellFormed token.lexeme)
    (taken : restriction (expression maxNesting true) tokens = .ok (expr, rest)) :
    ∃ opening inner closing,
      tokens = ⟨.lbracket, "[", opening⟩ :: (inner ++ ⟨.rbracket, "]", closing⟩ :: rest) ∧
        Short (inner.map lexeme) ∧ Phrase .disjunction true (inner.map lexeme) expr ∧
        expr.nesting < maxNesting := by
  obtain ⟨⟨⟨kind, text, opening⟩, inner⟩, opened, _⟩ := bind_eq_ok_iff.mp taken
  obtain ⟨rfl, opens⟩ := expect_eq_ok opened
  obtain rfl : kind = .lbracket := opens
  obtain ⟨formed, within⟩ := List.forall_mem_cons.mp wellFormed
  obtain rfl : text = "[" := formed
  rw [restriction_eq] at taken
  split at taken
  · cases taken
  · obtain ⟨⟨found, closes⟩, nested, closed⟩ := bind_eq_ok_iff.mp taken
    obtain ⟨⟨⟨kind, text, closing⟩, behind⟩, expected, is⟩ := bind_eq_ok_iff.mp closed
    obtain ⟨rfl, ends⟩ := expect_eq_ok expected
    obtain rfl : kind = .rbracket := ends
    cases is
    have explained := expression_sound (negation_sound (maxNesting - 1) true) inner within
    have nested : expression (maxNesting - 1 + 1) true inner =
        .ok (expr, ⟨.rbracket, text, closing⟩ :: rest) := nested
    rw [nested] at explained
    obtain ⟨front, rfl, short, phrase, shallow⟩ := explained
    obtain rfl : text = "]" := within ⟨.rbracket, text, closing⟩ (by simp)
    exact ⟨opening, front, closing, rfl, short, phrase, Nat.lt_of_le_of_lt shallow (by decide)⟩

/-- A phrase in brackets is taken. -/
theorem restriction_of_phrase {inner : List Token} {expr : Filter}
    (phrase : Phrase .disjunction true (inner.map lexeme) expr) (short : Short (inner.map lexeme))
    (shallow : expr.nesting < maxNesting) (opening closing : Nat) (rest : List Token) :
    restriction (expression maxNesting true)
      (⟨.lbracket, "[", opening⟩ :: (inner ++ ⟨.rbracket, "]", closing⟩ :: rest)) =
        .ok (expr, rest) := by
  have notClosing : (current (inner ++ ⟨.rbracket, "]", closing⟩ :: rest)).kind ≠ .rbracket := by
    obtain ⟨kind, text, more, first, starts⟩ := phrase.starts
    obtain ⟨position, others, rfl, _⟩ := map_lexeme_eq_cons first
    obtain rfl | rfl := starts <;> simp [current]
  have taken : expression maxNesting true (inner ++ ⟨.rbracket, "]", closing⟩ :: rest) =
      .ok (expr, ⟨.rbracket, "]", closing⟩ :: rest) :=
    (phrase.followed short (show _ ≤ maxNesting - 1 by omega)).taken inner _ rfl
      (ends_of_kind (by simp) rest)
  rw [restriction_eq, if_neg notClosing]
  simp [Filter.closed, taken, expect, bind, Except.bind, pure, Except.pure]

/-- What is taken in brackets is taken where the tokens stand otherwise. -/
theorem restriction_moved {tokens moved rest : List Token} {expr : Filter}
    (wellFormed : ∀ token ∈ tokens, WellFormed token.lexeme)
    (same : moved.map lexeme = tokens.map lexeme)
    (taken : restriction (expression maxNesting true) tokens = .ok (expr, rest)) :
    ∃ behind, restriction (expression maxNesting true) moved = .ok (expr, behind) ∧
      behind.map lexeme = rest.map lexeme := by
  obtain ⟨_, inner, _, rfl, short, phrase, shallow⟩ := restriction_eq_ok wellFormed taken
  obtain ⟨opening, others, rfl, alike⟩ := map_lexeme_eq_cons same
  rw [List.map_append] at alike
  obtain ⟨front, back, rfl, frontEq, backEq⟩ := map_lexeme_eq_append alike
  obtain ⟨closing, behind, rfl, behindEq⟩ := map_lexeme_eq_cons backEq
  rw [← frontEq] at short phrase
  exact ⟨behind, restriction_of_phrase phrase short shallow opening closing behind, behindEq⟩

end Filter

namespace PathOf

/-- Reads what stands behind the word of a path. -/
def behind (path : AttributePath) (tokens : List Token) : Except Filter.Refusal AttributePath := do
  let (path, rest) ←
    if (Filter.current tokens).kind = .lbracket then
      if path.sub.isSome || path.attr.isNone then
        .error (.at .misplacedRestriction (Filter.current tokens))
      else do
        let (expr, rest) ←
          Filter.restriction (Filter.expression Filter.maxNesting true) tokens
        if (Filter.current rest).kind = .subattr then
          let name := String.ofList ((Filter.current rest).text.toList.drop 1)
          pure (⟨path.uri, path.attr, some expr, some name⟩, rest.tail)
        else pure (⟨path.uri, path.attr, some expr, none⟩, rest)
    else pure (path, tokens)
  if (Filter.current rest).kind = .eof then return path
  else .error (.at .unexpectedToken (Filter.current rest))

/-- A path is read from its word and what stands behind it. -/
theorem ofTokens_word (word : String) (position : Nat) (tokens : List Token) :
    ofTokens (⟨.word, word, position⟩ :: tokens) =
      match split? word with
      | some path => behind path tokens
      | none => .error (.malformed .invalidAttributePath position word) := by
  have taken : Filter.attributePath (⟨.word, word, position⟩ :: tokens) =
      match split? word with
      | some path => .ok (path, tokens)
      | none => .error (.malformed .invalidAttributePath position word) := rfl
  rw [ofTokens, if_neg (by simp [Filter.current]), taken]
  cases (split? word : Option AttributePath) <;> rfl

/-- What stands behind the word of a path is read for a path under another URN, and where the tokens
stand otherwise. -/
theorem behind_moved {path found : AttributePath} {tokens moved : List Token}
    (wellFormed : ∀ token ∈ tokens, WellFormed token.lexeme)
    (same : moved.map lexeme = tokens.map lexeme) (read : behind path tokens = .ok found)
    (uri : Option String) :
    behind { path with uri } moved = .ok { found with uri } := by
  have kinds {tokens moved : List Token} (same : moved.map lexeme = tokens.map lexeme) :
      (Filter.current moved).kind = (Filter.current tokens).kind :=
    congrArg Prod.fst (Filter.current_moved same)
  unfold behind at read ⊢
  rw [kinds same]
  split at read
  · next opens =>
    rw [if_pos opens]
    split at read
    · cases read
    · next placed =>
      rw [if_neg placed]
      obtain ⟨⟨expr, rest⟩, taken, read⟩ := bind_eq_ok_iff.mp read
      obtain ⟨others, takenToo, alike⟩ := Filter.restriction_moved wellFormed same taken
      have texts : (Filter.current others).text = (Filter.current rest).text :=
        congrArg Prod.snd (Filter.current_moved alike)
      have tails : others.tail.map lexeme = rest.tail.map lexeme := by
        rw [List.map_tail, List.map_tail, alike]
      rw [takenToo]
      dsimp only [bind, Except.bind] at read ⊢
      rw [kinds alike, texts]
      split at read
      · next isSub =>
        rw [if_pos isSub]
        dsimp only [pure, Except.pure] at read ⊢
        rw [kinds tails]
        split at read
        · next ends =>
          cases read
          rw [if_pos ends]
        · cases read
      · next noSub =>
        rw [if_neg noSub]
        dsimp only [pure, Except.pure] at read ⊢
        rw [kinds alike]
        split at read
        · next ends =>
          cases read
          rw [if_pos ends]
        · cases read
  · next other =>
    rw [if_neg other]
    obtain ⟨⟨_, _⟩, is, read⟩ := bind_eq_ok_iff.mp read
    cases is
    dsimp only at read
    split at read
    · next ends =>
      cases read
      simp [kinds same, ends, pure, Except.pure, bind, Except.bind]
    · cases read

/-- A path is read from tokens that start with a word. -/
theorem kind_of_ofTokens {tokens : List Token} {path : AttributePath}
    (read : ofTokens tokens = .ok path) : (Filter.current tokens).kind = .word := by
  rw [ofTokens] at read
  split at read
  · cases read
  · obtain ⟨_, taken, _⟩ := bind_eq_ok_iff.mp read
    obtain ⟨⟨token, rest⟩, expected, _⟩ := bind_eq_ok_iff.mp taken
    obtain ⟨rfl, isWord⟩ := Filter.expect_eq_ok expected
    exact isWord

/-- A path is read from the word at the start of its text and what is behind the word. -/
theorem read_eq_ok {text : String} {path : AttributePath} (visible : Text.StartsVisibly text.toList)
    (read : PathOf.read text = .ok path) :
    ∃ c rest tokens first, text.toList = c :: rest ∧ Token.isNameStart c = true ∧
      Token.scan (c :: rest.takeWhile Token.isWordChar).length 0
        (rest.dropWhile Token.isWordChar) = .ok tokens ∧
      split? (String.ofList (c :: rest.takeWhile Token.isWordChar)) = some first ∧
      behind first tokens = .ok path := by
  obtain ⟨c, rest, chars, notBlank⟩ := visible
  rw [PathOf.read, Token.tokenize, chars] at read
  have start : Token.isNameStart c = true := by
    rw [Token.scan, notBlank, if_neg Bool.false_ne_true] at read
    cases found : Token.lexeme? (c :: rest) with
    | none =>
        rw [found] at read
        cases read
    | some parts =>
        obtain ⟨kind, text⟩ := parts
        rw [found] at read
        dsimp only at read
        cases cut : Token.scan (0 + 1) (text.length - 1) rest with
        | error refusal =>
            rw [cut] at read
            cases read
        | ok others =>
            rw [cut] at read
            obtain rfl : kind = .word := kind_of_ofTokens read
            exact Token.isNameStart_of_word found
  rw [Token.scan_word start] at read
  cases cut : Token.scan (c :: rest.takeWhile Token.isWordChar).length 0
      (rest.dropWhile Token.isWordChar) with
  | error refusal =>
      rw [cut] at read
      cases read
  | ok tokens =>
      rw [cut] at read
      dsimp only [Except.map] at read
      rw [ofTokens_word] at read
      split at read
      · next first found => exact ⟨c, rest, tokens, first, chars, start, cut, found, read⟩
      · cases read

/-- Nothing stands behind the word of a path, or a filter does. -/
theorem behind_cases {path found : AttributePath} {tokens : List Token}
    (read : behind path tokens = .ok found) :
    (found = path ∧ (Filter.current tokens).kind = .eof) ∨
      ∃ expr sub, found = ⟨path.uri, path.attr, some expr, sub⟩ := by
  unfold behind at read
  split at read
  · split at read
    · cases read
    · obtain ⟨⟨expr, rest⟩, _, read⟩ := bind_eq_ok_iff.mp read
      dsimp only [bind, Except.bind, pure, Except.pure] at read
      split at read
      all_goals
        split at read
        · cases read
          exact .inr ⟨expr, _, rfl⟩
        · cases read
  · obtain ⟨⟨_, _⟩, is, read⟩ := bind_eq_ok_iff.mp read
    cases is
    dsimp only at read
    split at read
    · next ended =>
      cases read
      exact .inl ⟨rfl, ended⟩
    · cases read

/-- Reading what stands behind the word keeps the URN and the attribute of the path. -/
theorem behind_keeps {path found : AttributePath} {tokens : List Token}
    (read : behind path tokens = .ok found) : found.uri = path.uri ∧ found.attr = path.attr := by
  rcases behind_cases read with ⟨rfl, _⟩ | ⟨_, _, rfl⟩ <;> exact ⟨rfl, rfl⟩

/-- A path without a URN names an attribute by the word at the start of its text. -/
theorem read_unprefixed {text : String} {path : AttributePath}
    (visible : Text.StartsVisibly text.toList) (read : PathOf.read text = .ok path)
    (noUri : path.uri = none) :
    ∃ c rest tokens attr sub, text.toList = c :: rest ∧ Token.isNameStart c = true ∧
      Token.scan (c :: rest.takeWhile Token.isWordChar).length 0
        (rest.dropWhile Token.isWordChar) = .ok tokens ∧
      Names (String.ofList (c :: rest.takeWhile Token.isWordChar)) none attr sub ∧
      behind ⟨none, some attr, none, sub⟩ tokens = .ok path := by
  obtain ⟨c, rest, tokens, first, chars, start, cut, split, read⟩ := read_eq_ok visible read
  have isWord : Token.IsWord (String.ofList (c :: rest.takeWhile Token.isWordChar)) :=
    (Token.isWord_iff _).mpr ⟨c, _, String.toList_ofList, start,
      fun _ => List.mem_takeWhile_imp⟩
  -- a URN of the registry would be the URN of the path
  have kept := (behind_keeps read).1
  obtain rfl | ⟨uri, attr, sub, rfl, names⟩ := split?_cases isWord split
  · rw [noUri] at kept
    cases kept
  · obtain rfl : none = uri := noUri.symm.trans kept
    exact ⟨c, rest, tokens, attr, sub, chars, start, cut, names, read⟩

/-- With a URN before it, the text of a path is that of the same path under the URN. -/
theorem read_qualified {urn text : String} {path : AttributePath} (qualifies : Qualifies urn)
    (visible : Text.StartsVisibly text.toList) (read : PathOf.read text = .ok path)
    (noUri : path.uri = none) :
    PathOf.read (qualified urn text) = .ok { path with uri := some urn } := by
  obtain ⟨c, rest, tokens, attr, sub, chars, start, cut, names, read⟩ :=
    read_unprefixed visible read noUri
  -- with the URN, the word goes on where it did
  obtain ⟨d, more, urnChars, urnStart, all⟩ := (Token.isWord_iff urn).mp qualifies.isWord
  have whole : (qualified urn text).toList = d :: (more ++ ':' :: c :: rest) := by
    rw [toList_qualified, urnChars, chars]
    simp
  have inWord : ∀ e ∈ more ++ [':', c], Token.isWordChar e = true := by
    refine List.forall_mem_append.mpr ⟨all, ?_⟩
    simp [Token.isWordChar, Token.isNameChar_of_isNameStart start]
  have inner : more ++ ':' :: c :: rest = more ++ [':', c] ++ rest := by simp
  have taken : (more ++ ':' :: c :: rest).takeWhile Token.isWordChar =
      more ++ ':' :: c :: rest.takeWhile Token.isWordChar := by
    rw [inner, List.takeWhile_append_of_pos inWord]
    simp
  have dropped : (more ++ ':' :: c :: rest).dropWhile Token.isWordChar =
      rest.dropWhile Token.isWordChar := by
    rw [inner, List.dropWhile_append_of_pos inWord]
  have word : String.ofList (d :: (more ++ ':' :: c :: rest.takeWhile Token.isWordChar)) =
      qualified urn (String.ofList (c :: rest.takeWhile Token.isWordChar)) := by
    rw [← String.toList_inj, toList_qualified, urnChars]
    simp
  obtain ⟨moved, cutToo, same⟩ := Token.scan_moved cut
    (d :: (more ++ ':' :: c :: rest.takeWhile Token.isWordChar)).length
  rw [PathOf.read, Token.tokenize, whole, Token.scan_word urnStart, taken, dropped, cutToo, word]
  dsimp only [Except.map]
  rw [ofTokens_word, (qualifies.names names).split]
  exact behind_moved (Token.wellFormed_of_scan cut) same read (some urn)

theorem parse_eq_ok {text : String} {path : AttributePath} (parsed : PathOf.parse text = .ok path) :
    Text.Trimmed (Text.trim text) ∧ PathOf.read (Text.trim text) = .ok path := by
  rw [PathOf.parse] at parsed
  split at parsed
  · cases parsed
  · next nonempty =>
    refine ⟨Text.trimmed_trim nonempty, ?_⟩
    split at parsed
    · next read => rw [read, Except.ok.inj parsed]
    all_goals cases parsed

/-- A path without a URN names an attribute. -/
theorem attr_of_parse {text : String} {path : AttributePath} (parsed : PathOf.parse text = .ok path)
    (noUri : path.uri = none) : ∃ attr, path.attr = some attr := by
  obtain ⟨trimmed, read⟩ := parse_eq_ok parsed
  obtain ⟨_, _, _, attr, _, _, _, _, _, read⟩ := read_unprefixed trimmed.starts read noUri
  exact ⟨attr, (behind_keeps read).2⟩

/-- With a URN before it, the text of a path is that of the same path under the URN, whatever
blanks stand around it. -/
theorem parse_qualified {urn text : String} {path : AttributePath} (qualifies : Qualifies urn)
    (parsed : PathOf.parse text = .ok path) (noUri : path.uri = none) :
    PathOf.parse (qualified urn (Text.trim text)) = .ok { path with uri := some urn } := by
  obtain ⟨trimmed, read⟩ := parse_eq_ok parsed
  obtain ⟨d, more, urnChars, start, _⟩ := (Token.isWord_iff urn).mp qualifies.isWord
  have visible : Text.isBlank d = false := by
    have code := (Token.isNameStart_iff d).mp start
    exact Text.isBlank_of_ascii (by omega) (by omega)
  have whole : Text.Trimmed (qualified urn (Text.trim text)) :=
    Text.trimmed_between ⟨d, more, urnChars, visible⟩ trimmed.ends ":"
  rw [PathOf.parse, whole.trim_eq, if_neg whole.ne_empty,
    read_qualified qualifies trimmed.starts read noUri]

/-- A text is read as a path without a filter. -/
theorem parse_eq_of_parts {text : String} {uri attr sub : Option String}
    (read : ((PathOf.parse text).toOption.map fun path : AttributePath =>
      (path.uri, path.attr, path.restriction.isNone, path.sub)) = some (uri, attr, true, sub)) :
    PathOf.parse text = .ok (⟨uri, attr, none, sub⟩ : AttributePath) := by
  obtain ⟨⟨_, _, restriction, _⟩, parsed, parts⟩ := Option.map_eq_some_iff.mp read
  cases restriction with
  | some filter => cases parts
  | none =>
      cases parts
      exact eq_ok_of_toOption parsed

end PathOf

end Scim
