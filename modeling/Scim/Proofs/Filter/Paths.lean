import Scim.Filter.Parser
import Scim.Proofs.Filter.Lexing
import Scim.Proofs.Text.Splitting

/-!
# Paths without brackets

A path without brackets is read from one word.  The word can be told from the path: it
is the text of the path.  Reading a path splits a word at its last colon and at a point,
and writing puts the parts together again.
-/

namespace Scim

namespace PathOf

variable {φ : Type}

/-- A path that is read from a single word. -/
def FromWord (path : PathOf φ) : Prop :=
  ∃ word, Token.IsWord word ∧ split? word = some path

/-- The attribute and sub-attribute that the part of a word behind the last colon names. -/
def names? (rest : List Char) : Option (String × Option String) :=
  match Text.splitAt '.' rest with
  | [attr] => if isName attr then some (String.ofList attr, none) else none
  | [attr, sub] =>
    if isName attr && isName sub then some (String.ofList attr, some (String.ofList sub)) else none
  | _ => none

theorem split?_eq (word : String) :
    (split? word : Option (PathOf φ)) =
      if word.toList.contains ':' && (Schema.find? word).isSome then
        some ⟨some word, none, none, none⟩
      else
        match Text.splitLast? ':' word.toList with
        | some (uri, rest) =>
          (names? rest).map fun names => ⟨some (String.ofList uri), some names.1, none, names.2⟩
        | none => (names? word.toList).map fun names => ⟨none, some names.1, none, names.2⟩ := by
  have named (uri : Option String) (rest : List Char) :
      (match Text.splitAt '.' rest with
        | [attr] =>
          if isName attr then some (⟨uri, some (String.ofList attr), none, none⟩ : PathOf φ)
          else none
        | [attr, sub] =>
          if isName attr && isName sub then
            some ⟨uri, some (String.ofList attr), none, some (String.ofList sub)⟩
          else none
        | _ => none) =
        (names? rest).map fun names => ⟨uri, some names.1, none, names.2⟩ := by
    unfold names?
    split
    · split <;> rfl
    · split <;> rfl
    · rfl
  rw [split?]
  split
  · rfl
  · cases Text.splitLast? ':' word.toList <;> exact named _ _

/-- A name of an attribute. -/
def IsName (name : String) : Prop :=
  ∃ c rest, name.toList = c :: rest ∧ Token.isNameStart c = true ∧
    ∀ d ∈ rest, Token.isNameChar d = true

/-- A word names an attribute if it consists of a URN, the name of the attribute and that of
a sub-attribute, of which the URN and the sub-attribute may be absent, and is not a URN of the
registry. -/
structure Names (word : String) (uri : Option String) (attr : String) (sub : Option String) :
    Prop where
  text : word.toList = (uri.elim [] fun urn => urn.toList ++ [':']) ++
    (attr.toList ++ (sub.elim [] fun name => '.' :: name.toList))
  isAttr : IsName attr
  isSub : ∀ name, sub = some name → IsName name
  notRegistered : ¬ (word.toList.contains ':' && (Schema.find? word).isSome) = true

theorem IsName.not_mem {name : String} (isName : IsName name) {c : Char}
    (notName : Token.isNameChar c = false) (notStart : Token.isNameStart c = false) :
    c ∉ name.toList := by
  obtain ⟨d, rest, chars, start, all⟩ := isName
  rw [chars, List.mem_cons, not_or]
  constructor
  · rintro rfl
    rw [start] at notStart
    cases notStart
  · intro held
    rw [all c held] at notName
    cases notName

theorem isName_iff {name : String} (noNewline : '\n' ∉ name.toList) :
    isName name.toList = true ↔ IsName name := by
  have last : name.toList.getLast? ≠ some '\n' := by
    intro same
    exact noNewline (List.mem_of_getLast? same)
  rw [isName, if_neg last, IsName]
  cases name.toList with
  | nil => simp
  | cons c rest => simp

theorem IsName.isName {name : String} (named : IsName name) : PathOf.isName name.toList = true :=
  (isName_iff (named.not_mem (by decide) (by decide))).mpr named

/-- The names in a text are those that it consists of. -/
theorem names?_eq_some_iff {rest : List Char} (noNewline : '\n' ∉ rest) {attr : String}
    {sub : Option String} :
    names? rest = some (attr, sub) ↔
      rest = attr.toList ++ (sub.elim [] fun name => '.' :: name.toList) ∧ IsName attr ∧
        ∀ name, sub = some name → IsName name := by
  constructor
  · intro found
    have joined := Text.intercalate_splitAt '.' rest
    have named {part : List Char} (held : ∀ c ∈ part, c ∈ rest) (isName : isName part = true) :
        IsName (String.ofList part) := by
      refine (isName_iff ?_).mp (by rwa [String.toList_ofList])
      rw [String.toList_ofList]
      exact fun newline => noNewline (held _ newline)
    unfold names? at found
    split at found
    · next parts =>
      split at found
      · next isAttr =>
        cases found
        rw [parts] at joined
        refine ⟨by simpa using joined.symm, named ?_ isAttr, nofun⟩
        simp [← joined]
      · cases found
    · next attr sub parts =>
      split at found
      · next isNames =>
        cases found
        rw [Bool.and_eq_true] at isNames
        rw [parts] at joined
        have text : rest = attr ++ '.' :: sub := by
          simpa [List.intercalate_cons_cons] using joined.symm
        refine ⟨by simpa using text, named (by simp +contextual [text]) isNames.1, ?_⟩
        rintro name ⟨⟩
        exact named (by simp +contextual [text]) isNames.2
      · cases found
    · cases found
  · rintro ⟨rfl, isAttr, isSub⟩
    have noPoint {name : String} (isName : IsName name) : '.' ∉ name.toList :=
      isName.not_mem (by decide) (by decide)
    unfold names?
    cases sub with
    | none =>
        rw [Option.elim_none, List.append_nil, Text.splitAt_of_not_mem (noPoint isAttr)]
        simp [isAttr.isName]
    | some name =>
        rw [Option.elim_some, Text.splitAt_append (noPoint isAttr),
          Text.splitAt_of_not_mem (noPoint (isSub name rfl))]
        simp [isAttr.isName, (isSub name rfl).isName]

/-- A word that names an attribute is split into it. -/
theorem Names.split {word : String} {uri : Option String} {attr : String} {sub : Option String}
    (names : Names word uri attr sub) :
    (split? word : Option (PathOf φ)) = some ⟨uri, some attr, none, sub⟩ := by
  obtain ⟨text, isAttr, isSub, notRegistered⟩ := names
  have noMark {c : Char} (other : c ≠ '.') (notName : Token.isNameChar c = false)
      (notStart : Token.isNameStart c = false) :
      c ∉ attr.toList ++ (sub.elim [] fun name => '.' :: name.toList) := by
    rw [List.mem_append, not_or]
    refine ⟨isAttr.not_mem notName notStart, ?_⟩
    cases sub with
    | none => exact List.not_mem_nil
    | some name =>
        rw [Option.elim_some, List.mem_cons, not_or]
        exact ⟨other, (isSub name rfl).not_mem notName notStart⟩
  have found := (names?_eq_some_iff (noMark (by decide) (by decide) (by decide))).mpr
    ⟨rfl, isAttr, isSub⟩
  have noColon := noMark (c := ':') (by decide) (by decide) (by decide)
  rw [split?_eq, if_neg notRegistered, text]
  cases uri with
  | none =>
      rw [Option.elim_none, List.nil_append, Text.splitLast?_eq_none noColon]
      simp [found]
  | some urn =>
      rw [Option.elim_some, List.append_assoc, List.singleton_append,
        Text.splitLast?_append noColon]
      simp [found]

/-- A word is a URN of the registry or names an attribute. -/
theorem split?_cases {word : String} {path : PathOf φ} (isWord : Token.IsWord word)
    (split : split? word = some path) :
    path = ⟨some word, none, none, none⟩ ∨
      ∃ uri attr sub, path = ⟨uri, some attr, none, sub⟩ ∧ Names word uri attr sub := by
  obtain ⟨c, more, chars, start, all⟩ := (Token.isWord_iff word).mp isWord
  have noNewline : '\n' ∉ word.toList := by
    rw [chars, List.mem_cons, not_or]
    constructor
    · rintro rfl
      exact absurd start (by decide)
    · intro held
      exact absurd (all _ held) (by decide)
  rw [split?_eq] at split
  split at split
  · exact .inl (Option.some.inj split).symm
  · next notRegistered =>
    right
    split at split
    · next uri rest found =>
      rw [Option.map_eq_some_iff] at split
      obtain ⟨⟨attr, sub⟩, named, rfl⟩ := split
      have whole := Text.splitLast?_eq_some found
      have noNewlineBehind : '\n' ∉ rest := by
        intro held
        exact noNewline (by simp [whole, held])
      obtain ⟨text, isAttr, isSub⟩ := (names?_eq_some_iff noNewlineBehind).mp named
      refine ⟨_, attr, sub, rfl, ?_, isAttr, isSub, notRegistered⟩
      simp [whole, text]
    · rw [Option.map_eq_some_iff] at split
      obtain ⟨⟨attr, sub⟩, named, rfl⟩ := split
      obtain ⟨text, isAttr, isSub⟩ := (names?_eq_some_iff noNewline).mp named
      exact ⟨none, attr, sub, rfl, by simpa using text, isAttr, isSub, notRegistered⟩

/-! ## The text of a path -/

namespace Names

variable {word attr : String} {uri sub : Option String} (names : Names word uri attr sub)
include names

/-- The text of the path is the word. -/
theorem head_tail (isWord : Token.IsWord word) :
    (⟨uri, some attr, none, sub⟩ : PathOf φ).head ++
      (⟨uri, some attr, none, sub⟩ : PathOf φ).tail = word := by
  have tailText : (⟨uri, some attr, none, sub⟩ : PathOf φ).tail.toList =
      sub.elim [] fun name => '.' :: name.toList := by
    cases sub with
    | none => simp [tail]
    | some name =>
        obtain ⟨c, rest, chars, _⟩ := names.isSub name rfl
        have nonempty : name ≠ "" := by
          rintro rfl
          cases chars
        unfold tail
        split <;> simp_all
  have headText : (⟨uri, some attr, none, sub⟩ : PathOf φ).head.toList =
      (uri.elim [] fun urn => urn.toList ++ [':']) ++ attr.toList := by
    cases uri with
    | none => simp [head]
    | some urn =>
        have nonempty : urn ≠ "" := by
          rintro rfl
          obtain ⟨c, more, chars, start, _⟩ := (Token.isWord_iff word).mp isWord
          have colon := names.text
          rw [chars] at colon
          cases colon
          cases start
        simp [head]
  rw [← String.toList_inj, String.toList_append, headText, tailText, names.text,
    List.append_assoc]

theorem bare (unprefixed : uri = none) (undotted : sub = none) : attr = word := by
  rw [← String.toList_inj, names.text, unprefixed, undotted]
  simp

theorem colon (prefixed : uri ≠ none) : ':' ∈ word.toList := by
  obtain ⟨urn, rfl⟩ := Option.ne_none_iff_exists'.mp prefixed
  simp [names.text]

theorem point (dotted : sub ≠ none) : '.' ∈ word.toList := by
  obtain ⟨name, rfl⟩ := Option.ne_none_iff_exists'.mp dotted
  simp [names.text]

end Names

end PathOf

end Scim
