import Mathlib.Tactic.SplitIfs
import Scim.Json.Printer
import Scim.Json.Reader
import Scim.Proofs.Text.Characters

/-!
# Strings that are written

A string is written with escapes for everything that is not a visible basic Latin
character.  It reads back as it was, whatever characters it consists of, and neither a
quote nor a backslash of it is mistaken for the end of its text.
-/

namespace Scim.Json

/-! ## Escaped units -/

/-- The four hexadecimal digits of a sixteen-bit unit. -/
def unitDigits (unit : Nat) : List Char :=
  [Nat.digitChar (unit / 4096), Nat.digitChar (unit / 256 % 16), Nat.digitChar (unit / 16 % 16),
    Nat.digitChar (unit % 16)]

theorem hexPadded_eq {unit : Nat} (small : unit < 65536) :
    Text.hexPadded 4 unit = unitDigits unit := by
  have more {n : Nat} (large : 16 ≤ n) :
      Nat.toDigits 16 n = Nat.toDigits 16 (n / 16) ++ [Nat.digitChar (n % 16)] :=
    Nat.toDigits_of_base_le (by decide) large
  have last {n : Nat} (low : n < 16) : Nat.toDigits 16 n = [Nat.digitChar n] :=
    Nat.toDigits_of_lt_base low
  have zero {n : Nat} (is : n = 0) : Nat.digitChar n = '0' := is ▸ rfl
  unfold Text.hexPadded unitDigits
  by_cases one : unit < 16
  · simp only [last one, zero (show unit / 4096 = 0 by omega),
      zero (show unit / 256 % 16 = 0 by omega), zero (show unit / 16 % 16 = 0 by omega),
      show unit % 16 = unit by omega]
    rfl
  · by_cases two : unit < 256
    · simp only [more (show 16 ≤ unit by omega), last (show unit / 16 < 16 by omega),
        zero (show unit / 4096 = 0 by omega), zero (show unit / 256 % 16 = 0 by omega),
        show unit / 16 % 16 = unit / 16 by omega]
      rfl
    · have half : unit / 16 / 16 = unit / 256 := by omega
      by_cases three : unit < 4096
      · simp only [more (show 16 ≤ unit by omega), more (show 16 ≤ unit / 16 by omega), half,
          last (show unit / 256 < 16 by omega), zero (show unit / 4096 = 0 by omega),
          show unit / 256 % 16 = unit / 256 by omega]
        rfl
      · simp only [more (show 16 ≤ unit by omega), more (show 16 ≤ unit / 16 by omega), half,
          more (show 16 ≤ unit / 256 by omega), show unit / 256 / 16 = unit / 4096 by omega,
          last (show unit / 4096 < 16 by omega)]
        rfl

theorem escapeUnit_eq {unit : Nat} (small : unit < 65536) :
    escapeUnit unit = '\\' :: 'u' :: unitDigits unit := by
  rw [escapeUnit, hexPadded_eq small]

theorem hexValue?_digitChar {n : Nat} (small : n < 16) :
    Reader.hexValue? (Nat.digitChar n) = some n := by
  revert small
  revert n
  decide

theorem hexUnit?_digits {unit : Nat} (small : unit < 65536) :
    Reader.hexUnit? (Nat.digitChar (unit / 4096)) (Nat.digitChar (unit / 256 % 16))
      (Nat.digitChar (unit / 16 % 16)) (Nat.digitChar (unit % 16)) = some unit := by
  simp only [Reader.hexUnit?, hexValue?_digitChar (show unit / 4096 < 16 by omega),
    hexValue?_digitChar (show unit / 256 % 16 < 16 by omega),
    hexValue?_digitChar (show unit / 16 % 16 < 16 by omega),
    hexValue?_digitChar (show unit % 16 < 16 by omega), Option.bind_eq_bind, Option.bind_some,
    Option.some.injEq]
  omega

/-! ## Escaped characters -/

/-- How a character is escaped: by a letter, not at all, by its unit, or by the two
units of a surrogate pair. -/
inductive Escape (c : Char) : List Char → Prop where
  | letter (e : Char) (escapee : Reader.escapee? e = some c) (notUnit : e ≠ 'u') :
      Escape c ['\\', e]
  | plain (notQuote : c ≠ '"') (notBackslash : c ≠ '\\') (visible : 32 ≤ c.toNat) : Escape c [c]
  | unit (small : c.toNat < 65536) : Escape c ('\\' :: 'u' :: unitDigits c.toNat)
  | pair (large : 65536 ≤ c.toNat) :
      Escape c ('\\' :: 'u' :: unitDigits (0xD800 + (c.toNat - 65536) / 0x400) ++
        '\\' :: 'u' :: unitDigits (0xDC00 + (c.toNat - 65536) % 0x400))

theorem char_toNat_lt (c : Char) : c.toNat < 0x110000 ∧ ¬ (0xD800 ≤ c.toNat ∧ c.toNat < 0xE000) := by
  have valid := c.valid
  simp only [UInt32.isValidChar, Nat.isValidChar] at valid
  change c.toNat < 0xD800 ∨ (0xDFFF < c.toNat ∧ c.toNat < 0x110000) at valid
  omega

theorem escape_escapeChar (c : Char) : Escape c (escapeChar c) := by
  unfold escapeChar
  split_ifs with quote backslash newline return' tab feed backspace visible small
  · exact .letter _ (by rw [quote]; rfl) (by decide)
  · exact .letter _ (by rw [backslash]; rfl) (by decide)
  · exact .letter _ (by rw [newline]; rfl) (by decide)
  · exact .letter _ (by rw [return']; rfl) (by decide)
  · exact .letter _ (by rw [tab]; rfl) (by decide)
  · exact .letter _ (by rw [feed]; rfl) (by decide)
  · exact .letter _ (by rw [backspace]; rfl) (by decide)
  · refine .plain quote backslash ?_
    have low := visible.1
    simp only [Char.le_def, UInt32.le_iff_toNat_le] at low
    exact low
  · rw [escapeUnit_eq small]
    exact .unit small
  · have bound := char_toNat_lt c
    dsimp only
    rw [escapeUnit_eq (by omega), escapeUnit_eq (by omega)]
    exact .pair (by omega)

/-! ## Reading back -/

theorem unitChar_toNat (c : Char) : Reader.unitChar c.toNat = c := by
  have bound := char_toNat_lt c
  have single : (Reader.isHighSurrogate c.toNat || Reader.isLowSurrogate c.toNat) = false := by
    simp only [Reader.isHighSurrogate, Reader.isLowSurrogate, Bool.or_eq_false_iff,
      Bool.and_eq_false_iff, decide_eq_false_iff_not]
    omega
  rw [Reader.unitChar, single, if_neg Bool.false_ne_true, Char.ofNat_toNat]

/-- A character reads back from its escape, in front of more of the string. -/
theorem stringBody_escapeChar (whole : Nat) (c : Char) {more : List Char} (nonempty : more ≠ []) :
    Reader.stringBody whole (escapeChar c ++ more) =
      Reader.consChar c (Reader.stringBody whole more) := by
  have bound := char_toNat_lt c
  have some? : more.isEmpty = false := by simpa using nonempty
  have escape := escape_escapeChar c
  generalize escapeChar c = chars at escape
  cases escape with
  | letter e escapee notUnit =>
      rw [List.cons_append, List.cons_append, List.nil_append, Reader.stringBody, escapee]
      · intro _ _ _ _ _ same
        exact absurd same notUnit
      · exact notUnit
  | plain notQuote notBackslash visible =>
      rw [List.cons_append, List.nil_append, Reader.stringBody, if_neg (by omega)]
      all_goals simp [notQuote, notBackslash]
  | unit small =>
      simp only [unitDigits, List.cons_append, List.nil_append]
      rw [Reader.stringBody, some?, if_neg Bool.false_ne_true, hexUnit?_digits small]
      dsimp only
      rw [unitChar_toNat]
      split
      · -- a unit follows that this one could be the first half of a pair with
        rw [if_neg]
        simp only [Reader.isHighSurrogate, Bool.and_eq_true, decide_eq_true_eq]
        omega
      · rfl
  | pair large =>
      have high : 0xD800 + (c.toNat - 65536) / 0x400 < 65536 := by omega
      have low : 0xDC00 + (c.toNat - 65536) % 0x400 < 65536 := by omega
      have isHigh : Reader.isHighSurrogate (0xD800 + (c.toNat - 65536) / 0x400) = true := by
        simp only [Reader.isHighSurrogate, Bool.and_eq_true, decide_eq_true_eq]
        omega
      have isLow : Reader.isLowSurrogate (0xDC00 + (c.toNat - 65536) % 0x400) = true := by
        simp only [Reader.isLowSurrogate, Bool.and_eq_true, decide_eq_true_eq]
        omega
      have joined : Reader.joinSurrogates (0xD800 + (c.toNat - 65536) / 0x400)
          (0xDC00 + (c.toNat - 65536) % 0x400) = c := by
        rw [Reader.joinSurrogates, show 0x10000 + (0xD800 + (c.toNat - 65536) / 0x400 - 0xD800) *
          0x400 + (0xDC00 + (c.toNat - 65536) % 0x400 - 0xDC00) = c.toNat by omega,
          Char.ofNat_toNat]
      simp only [unitDigits, List.cons_append, List.nil_append]
      rw [Reader.stringBody, List.isEmpty_cons, if_neg Bool.false_ne_true, hexUnit?_digits high]
      dsimp only
      simp only [isHigh, some?, Bool.not_false, Bool.true_and, if_true, hexUnit?_digits low, isLow,
        joined]

theorem stringBody_escaped (whole : Nat) (text rest : List Char) :
    Reader.stringBody whole (text.flatMap escapeChar ++ '"' :: rest) = .ok (text, rest) := by
  induction text with
  | nil => rw [List.flatMap_nil, List.nil_append, Reader.stringBody]
  | cons c more ih =>
      rw [List.flatMap_cons, List.append_assoc, stringBody_escapeChar whole c (by simp), ih]
      rfl

/-- A string reads back as it was. -/
theorem read_stringText (s : String) : read (stringText s) = .ok (.str s) := by
  have body (whole : Nat) := stringBody_escaped whole s.toList []
  have document : Reader.document (stringText s).toList = .ok (.str s) := by
    rw [stringText, String.toList_ofList, List.cons_append, Reader.document]
    simp [Reader.skip, Reader.isSpace, Reader.value, Reader.string, body, Except.map, bind,
      Except.bind, pure, Except.pure]
  rw [read, document]

/-! ## Cutting -/

theorem stringTail?_plain {c : Char} (notQuote : c ≠ '"') (notBackslash : c ≠ '\\')
    (more : List Char) :
    Token.stringTail? (c :: more) = (Token.stringTail? more).map (c :: ·) := by
  rw [Token.stringTail?, if_neg notQuote]
  all_goals simp [notBackslash]

theorem stringTail?_backslash {c : Char} (notNewline : c ≠ '\n') (more : List Char) :
    Token.stringTail? ('\\' :: c :: more) =
      (Token.stringTail? more).map fun tail => '\\' :: c :: tail := by
  rw [Token.stringTail?, if_neg notNewline]

theorem stringTail?_unit {unit : Nat} (small : unit < 65536) (more : List Char) :
    Token.stringTail? ('\\' :: 'u' :: unitDigits unit ++ more) =
      (Token.stringTail? more).map ('\\' :: 'u' :: unitDigits unit ++ ·) := by
  have digit {n : Nat} (low : n < 16) : Nat.digitChar n ≠ '"' ∧ Nat.digitChar n ≠ '\\' := by
    revert low
    revert n
    decide
  have plain {n : Nat} (low : n < 16) (rest : List Char) :=
    stringTail?_plain (digit low).1 (digit low).2 rest
  simp only [unitDigits, List.cons_append, List.nil_append]
  rw [stringTail?_backslash (by decide), plain (by omega), plain (by omega), plain (by omega),
    plain (by omega)]
  simp only [Option.map_map]
  rfl

/-- The tokenizer takes an escaped character together and goes on behind it. -/
theorem stringTail?_escapeChar (c : Char) (more : List Char) :
    Token.stringTail? (escapeChar c ++ more) = (Token.stringTail? more).map (escapeChar c ++ ·) := by
  have bound := char_toNat_lt c
  have escape := escape_escapeChar c
  generalize escapeChar c = chars at escape
  cases escape with
  | letter e escapee notUnit =>
      refine stringTail?_backslash ?_ more
      rintro rfl
      cases escapee
  | plain notQuote notBackslash visible => exact stringTail?_plain notQuote notBackslash more
  | unit small => exact stringTail?_unit small more
  | pair large =>
      rw [List.append_assoc, stringTail?_unit (by omega), stringTail?_unit (by omega),
        Option.map_map]
      simp only [Function.comp_def, List.append_assoc]

/-- The text of a string is one token, whatever follows it. -/
theorem stringTail?_escaped (text rest : List Char) :
    Token.stringTail? (text.flatMap escapeChar ++ '"' :: rest) =
      some (text.flatMap escapeChar ++ ['"']) := by
  induction text with
  | nil =>
      rw [List.flatMap_nil, List.nil_append, List.nil_append, Token.stringTail?, if_pos rfl]
      all_goals simp
  | cons c more ih =>
      rw [List.flatMap_cons, List.append_assoc, stringTail?_escapeChar, ih, Option.map_some,
        List.append_assoc]

end Scim.Json
