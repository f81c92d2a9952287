import Scim.Text.Tables.Word
import Scim.Text.Tables.Unprintable

/-!
# Character classes

Blanks, decimal digits, word characters and printable characters over all of Unicode, with trimming
of texts by class.
-/

namespace Scim.Text

/-- White space and separator controls. -/
def isBlank (c : Char) : Bool :=
  inSpans [⟨9, 13⟩, ⟨28, 32⟩, ⟨133, 133⟩, ⟨160, 160⟩, ⟨5760, 5760⟩, ⟨8192, 8202⟩, ⟨8232, 8233⟩,
    ⟨8239, 8239⟩, ⟨8287, 8287⟩, ⟨12288, 12288⟩] c.toNat

/-- The value of a decimal digit of any script. -/
def digitValue? (c : Char) : Option Nat :=
  if c.toNat < 128 then
    if '0' ≤ c ∧ c ≤ '9' then some (c.toNat - 48) else none
  else
    (Tables.zeros.find? fun start => start ≤ c.toNat && c.toNat ≤ start + 9).map (c.toNat - ·)

/-- Decimal digits of any script. -/
def isDigit (c : Char) : Bool := (digitValue? c).isSome

/-- The letters of the basic Latin alphabet. -/
def isLatinLetter (c : Char) : Bool :=
  ('a' ≤ c && c ≤ 'z') || ('A' ≤ c && c ≤ 'Z')

/-- Letters, numbers and the low line. -/
def isWord (c : Char) : Bool :=
  if c.toNat < 128 then isLatinLetter c || ('0' ≤ c && c ≤ '9') || c == '_'
  else inSpans Tables.word c.toNat

/-- Characters that a quoted text shows as they are. -/
def isPrintable (c : Char) : Bool :=
  if c.toNat < 128 then ' ' ≤ c && c ≤ '~'
  else !inSpans Tables.unprintable c.toNat

/-- Drops the characters of a class from the end of a text. -/
def trimEnd (drop : Char → Bool) (text : String) : String :=
  String.ofList (text.toList.reverse.dropWhile drop).reverse

/-- Drops the characters of a class from both ends of a text. -/
def trimBoth (drop : Char → Bool) (text : String) : String :=
  String.ofList ((text.toList.dropWhile drop).reverse.dropWhile drop).reverse

/-- Drops blanks from both ends of a text. -/
def trim (text : String) : String := trimBoth isBlank text

/-- Core's white space is blank. -/
theorem isBlank_of_isWhitespace (c : Char) (h : c.isWhitespace = true) : isBlank c = true := by
  simp only [Char.isWhitespace, Bool.or_eq_true, decide_eq_true_eq] at h
  rcases h with ((h | h) | h) | h <;> subst h <;> decide

end Scim.Text
