import Mathlib.Data.Char
import Scim.Filter.Token
import Scim.Number.Numeral
import Scim.Text.Case

/-!
# Characters of the basic Latin block

The character classes are defined over all of Unicode.  The texts that the engine
writes itself consist of basic Latin characters, of which the classes are ranges of
code points; proofs about such texts go by these ranges.
-/

namespace Scim

/-! ## Classes as ranges -/

theorem Text.isLatinLetter_iff (c : Char) :
    isLatinLetter c = true ↔ (97 ≤ c.toNat ∧ c.toNat ≤ 122) ∨ (65 ≤ c.toNat ∧ c.toNat ≤ 90) := by
  simp only [isLatinLetter, Bool.or_eq_true, Bool.and_eq_true, decide_eq_true_eq, Char.le_def,
    UInt32.le_iff_toNat_le]
  rfl

theorem Number.isPlainDigit_iff (c : Char) :
    isPlainDigit c = true ↔ 48 ≤ c.toNat ∧ c.toNat ≤ 57 := by
  simp only [isPlainDigit, Bool.and_eq_true, decide_eq_true_eq, Char.le_def,
    UInt32.le_iff_toNat_le]
  rfl

theorem Text.isDigit_of_isPlainDigit {c : Char} (digit : Number.isPlainDigit c = true) :
    isDigit c = true := by
  have range := (Number.isPlainDigit_iff c).mp digit
  have bounds : '0' ≤ c ∧ c ≤ '9' := by
    simpa [Number.isPlainDigit] using digit
  rw [isDigit, digitValue?, if_pos (by omega), if_pos bounds]
  rfl

/-! ## Runs of blanks -/

/-- The runs of blanks. -/
def Text.blanks : List Span :=
  [⟨9, 13⟩, ⟨28, 32⟩, ⟨133, 133⟩, ⟨160, 160⟩, ⟨5760, 5760⟩, ⟨8192, 8202⟩, ⟨8232, 8233⟩,
    ⟨8239, 8239⟩, ⟨8287, 8287⟩, ⟨12288, 12288⟩]

/-- Whether two runs have no code point in common. -/
def Text.Span.apart (span other : Span) : Bool :=
  span.last.blt other.first || other.last.blt span.first

/-- A code point in a run that is apart from the blanks is no blank. -/
theorem Text.not_isBlank_of_apart {span : Span} (apart : blanks.all span.apart = true) {c : Char}
    (contains : span.contains c.toNat = true) : isBlank c = false := by
  rw [Bool.eq_false_iff]
  intro blank
  obtain ⟨other, held, within⟩ := List.any_eq_true.mp blank
  have disjoint := List.all_eq_true.mp apart other held
  simp only [Span.contains, Span.apart, Bool.and_eq_true, Bool.or_eq_true, decide_eq_true_eq,
    Nat.blt_eq] at contains within disjoint
  omega

/-- No digit of any script is a blank. -/
theorem Text.zeros_apart :
    (Tables.zeros.all fun start => blanks.all (Span.apart ⟨start, start + 9⟩)) = true := by
  decide +kernel

/-- No letter or digit beyond the basic Latin block is a blank. -/
theorem Text.word_apart : (Tables.word.all fun span => blanks.all span.apart) = true := by
  decide +kernel

theorem Text.isBlank_of_ascii {c : Char} (low : 32 < c.toNat) (high : c.toNat < 128) :
    isBlank c = false := by
  simp only [isBlank, inSpans, Span.contains, List.any_cons, List.any_nil, Bool.or_eq_false_iff,
    Bool.and_eq_false_iff, decide_eq_false_iff_not, and_true]
  omega

/-! ## Digits -/

/-- A digit beyond the basic Latin block has a value, and is no blank. -/
theorem Text.digitValue?_of_isDigit {c : Char} (digit : isDigit c = true)
    (high : ¬ c.toNat < 128) :
    ∃ value, digitValue? c = some value ∧ value ≤ 9 ∧ isBlank c = false := by
  obtain ⟨value, found⟩ := Option.isSome_iff_exists.mp digit
  refine ⟨value, found, ?_⟩
  rw [digitValue?, if_neg high, Option.map_eq_some_iff] at found
  obtain ⟨start, among, rfl⟩ := found
  have contains := List.find?_some among
  have range := contains
  simp only [Bool.and_eq_true, decide_eq_true_eq] at range
  have apart := List.all_eq_true.mp zeros_apart start (List.mem_of_find?_eq_some among)
  exact ⟨by omega, not_isBlank_of_apart apart contains⟩

/-- The basic form of a digit of any script is a basic Latin digit. -/
theorem Number.isPlainDigit_plainChar {c : Char} (digit : Text.isDigit c = true) :
    isPlainDigit (plainChar c) = true := by
  rw [plainChar]
  split
  · next low =>
    rw [Text.isDigit, Text.digitValue?, if_pos low] at digit
    split at digit
    · next range => simpa [isPlainDigit] using range
    · cases digit
  · next high =>
    obtain ⟨value, found, small, visible⟩ := Text.digitValue?_of_isDigit digit high
    have plain : ∀ value ≤ 9, isPlainDigit (Char.ofNat (48 + value)) = true := by decide
    rw [visible, if_neg Bool.false_ne_true, found]
    exact plain value small

/-- The basic form of a character is a visible basic Latin character other than a digit only if
it is that character. -/
theorem Number.plainChar_eq_iff (mark : Char) {c : Char} (visible : 32 < mark.toNat)
    (basic : mark.toNat < 128) (notDigit : isPlainDigit mark = false) :
    plainChar c = mark ↔ c = mark := by
  rw [plainChar]
  split
  · rfl
  · next high =>
    have differs : c ≠ mark := by
      rintro rfl
      exact high basic
    simp only [differs, iff_false]
    split
    · rintro rfl
      exact absurd visible (by decide)
    · split
      · next value found =>
        have digit : Text.isDigit c = true := Option.isSome_iff_exists.mpr ⟨value, found⟩
        have plain := isPlainDigit_plainChar digit
        obtain ⟨_, same, _, unblank⟩ := Text.digitValue?_of_isDigit digit high
        rw [plainChar, if_neg high, unblank, if_neg Bool.false_ne_true, found] at plain
        rintro rfl
        rw [plain] at notDigit
        cases notDigit
      · exact differs

/-! ## Names and words -/

/-- The codes of the characters that start a name. -/
theorem Token.isNameStart_iff (c : Char) :
    isNameStart c = true ↔ ((97 ≤ c.toNat ∧ c.toNat ≤ 122) ∨ (65 ≤ c.toNat ∧ c.toNat ≤ 90)) ∨
      c.toNat = 95 ∨ c.toNat = 36 := by
  have code (d : Char) : c = d ↔ c.toNat = d.toNat := Char.toNat_inj.symm
  simp only [isNameStart, Bool.or_eq_true, beq_iff_eq, Text.isLatinLetter_iff, code, or_assoc]
  rfl

/-- No character of a word is a blank. -/
theorem Token.not_isBlank {c : Char} (part : isWordChar c = true) : Text.isBlank c = false := by
  have code (d : Char) : c = d ↔ c.toNat = d.toNat := Char.toNat_inj.symm
  have marks : ('$').toNat = 36 ∧ ('-').toNat = 45 ∧ ('.').toNat = 46 ∧ (':').toNat = 58 ∧
    ('_').toNat = 95 := by decide
  obtain ⟨dollar, hyphen, point, colon, lowLine⟩ := marks
  simp only [isWordChar, isNameChar, Bool.or_eq_true, beq_iff_eq, code] at part
  by_cases low : c.toNat < 128
  · refine Text.isBlank_of_ascii ?_ low
    have digit := Number.isPlainDigit_iff c
    simp only [Number.isPlainDigit] at digit
    simp only [Text.isWord, if_pos low, Bool.or_eq_true, Text.isLatinLetter_iff, digit,
      beq_iff_eq, code] at part
    omega
  · have word : Text.isWord c = true := by
      obtain (((word | mark) | mark) | mark) | mark := part
      · exact word
      all_goals omega
    rw [Text.isWord, if_neg low] at word
    obtain ⟨span, held, contains⟩ := List.any_eq_true.mp word
    exact Text.not_isBlank_of_apart (List.all_eq_true.mp Text.word_apart span held) contains

/-! ## Letter case -/

theorem Text.mem_lowerChars {c : Char} (caseless : lowerChar c = [c]) (notSigma : c ≠ 'Σ')
    {text : List Char} (held : c ∈ text) (before : List Char) : c ∈ lowerChars before text := by
  induction text generalizing before with
  | nil => cases held
  | cons head rest ih =>
      rw [lowerChars]
      cases held with
      | head =>
          rw [if_neg notSigma, caseless]
          exact List.mem_append_left _ List.mem_cons_self
      | tail _ later =>
          split
          · exact List.mem_cons_of_mem _ (ih later _)
          · exact List.mem_append_right _ (ih later _)

/-- A character that has only one case is kept by lower-casing. -/
theorem Text.mem_lower {c : Char} (caseless : lowerChar c = [c]) (notSigma : c ≠ 'Σ')
    {text : String} (held : c ∈ text.toList) : c ∈ (lower text).toList := by
  rw [lower, String.toList_ofList]
  exact mem_lowerChars caseless notSigma held []

end Scim
