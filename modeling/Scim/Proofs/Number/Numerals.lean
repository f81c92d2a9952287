import Scim.Proofs.Number.Shortest
import Scim.Proofs.Text.Characters
import Scim.Proofs.Text.Splitting

/-!
# Numerals

A numeral consists of digits, a fraction and an exponent, behind a sign.  What is read
from it depends on these parts only, in whatever script its digits are written.  An
integer reads back from its text unless it has more digits than an integer may have.  A
double always reads back: its text denotes its shortest decimal, and it has a fraction or
an exponent, so it is never taken for that of an integer.
-/

namespace Scim.Number

/-! ## Digits -/

/-- A sequence of basic Latin digits that is not empty. -/
def AreDigits (text : List Char) : Prop :=
  text ≠ [] ∧ ∀ c ∈ text, isPlainDigit c = true

theorem areDigits_toDigits (n : Nat) : AreDigits (Nat.toDigits 10 n) := by
  refine ⟨Nat.toDigits_ne_nil, ?_⟩
  intro c held
  have digit := Nat.isDigit_of_mem_toDigits (by decide) (by decide) held
  rw [isPlainDigit_iff]
  simp only [Char.isDigit, Bool.and_eq_true, decide_eq_true_eq] at digit
  exact digit

theorem areDigits_digitsText (n : Nat) : AreDigits (digitsText n) := areDigits_toDigits n

theorem digitsValue_toDigits (n : Nat) : digitsValue (Nat.toDigits 10 n) = n :=
  Nat.ofDigitChars_ten_toDigits

theorem digitsValue_append (first last : List Char) :
    digitsValue (first ++ last) = 10 ^ last.length * digitsValue first + digitsValue last := by
  change Nat.ofDigitChars 10 (first ++ last) 0 = _
  rw [Nat.ofDigitChars_append, Nat.ofDigitChars_eq_ofDigitChars_zero]
  rfl

theorem digitsValue_zeros (n : Nat) : digitsValue (List.replicate n '0') = 0 := by
  induction n with
  | zero => rfl
  | succ n ih => exact ih

theorem digitsValue_lt {digits : List Char} (all : ∀ c ∈ digits, isPlainDigit c = true) :
    digitsValue digits < 10 ^ digits.length := by
  induction digits with
  | nil => decide
  | cons c rest ih =>
      obtain ⟨digit, behind⟩ := List.forall_mem_cons.mp all
      have range := (isPlainDigit_iff c).mp digit
      have last := ih behind
      have first : digitsValue [c] = c.toNat - 48 := Nat.zero_add _
      rw [← List.singleton_append, digitsValue_append, first, List.length_append,
        List.length_singleton, Nat.add_comm 1, Nat.pow_succ]
      have bound : 10 ^ rest.length * (c.toNat - 48) ≤ 10 ^ rest.length * 9 :=
        Nat.mul_le_mul_left _ (by omega)
      omega

theorem AreDigits.of_subset {text more : List Char} (digits : AreDigits text) (nonempty : more ≠ [])
    (held : ∀ c ∈ more, c ∈ text ∨ c = '0') : AreDigits more := by
  refine ⟨nonempty, ?_⟩
  intro c inMore
  cases held c inMore with
  | inl inText => exact digits.2 c inText
  | inr zero =>
      subst zero
      decide

/-- Digits are taken up to where no digit follows. -/
theorem AreDigits.span {digits rest : List Char} (areDigits : AreDigits digits)
    (stops : ∀ c more, rest = c :: more → isPlainDigit c = false) :
    (digits ++ rest).takeWhile isPlainDigit = digits ∧
      (digits ++ rest).dropWhile isPlainDigit = rest := by
  rw [List.takeWhile_append_of_pos areDigits.2, List.dropWhile_append_of_pos areDigits.2]
  cases rest with
  | nil => simp
  | cons c more =>
      have stop : ¬ isPlainDigit c = true := by simp [stops c more rfl]
      rw [List.takeWhile_cons_of_neg stop, List.dropWhile_cons_of_neg stop, List.append_nil]
      exact ⟨rfl, rfl⟩

/-! ## Parts -/

/-- A fraction of a numeral, which may be absent. -/
inductive IsFraction : List Char → Prop where
  | none : IsFraction []
  | some {digits : List Char} (areDigits : AreDigits digits) : IsFraction ('.' :: digits)

/-- An exponent of a numeral, which may be absent. -/
inductive IsExponent : List Char → Prop where
  | none : IsExponent []
  | unsigned {letter : Char} {digits : List Char} (isLetter : letter = 'e' ∨ letter = 'E')
      (areDigits : AreDigits digits) : IsExponent (letter :: digits)
  | signed {letter sign : Char} {digits : List Char} (isLetter : letter = 'e' ∨ letter = 'E')
      (isSign : sign = '+' ∨ sign = '-') (areDigits : AreDigits digits) :
      IsExponent (letter :: sign :: digits)

/-- The parts of a numeral without a sign. -/
structure NumeralParts (text whole fraction exponent : List Char) : Prop where
  eq : text = whole ++ (fraction ++ exponent)
  isWhole : AreDigits whole
  isFraction : IsFraction fraction
  isExponent : IsExponent exponent

/-- A numeral, behind a minus if it is negative. -/
def signed (negative : Bool) (text : List Char) : List Char :=
  (if negative then ['-'] else []) ++ text

theorem splitSign_of_digit {c : Char} (digit : isPlainDigit c = true) (rest : List Char) :
    splitSign (c :: rest) = (false, c :: rest) := by
  unfold splitSign
  split
  · next same =>
      cases same
      exact absurd digit (by decide)
  · next same =>
      cases same
      exact absurd digit (by decide)
  · rfl

theorem splitSign_of_areDigits {digits : List Char} (areDigits : AreDigits digits)
    (rest : List Char) : splitSign (digits ++ rest) = (false, digits ++ rest) := by
  obtain ⟨c, more, rfl⟩ := List.exists_cons_of_ne_nil areDigits.1
  exact splitSign_of_digit (areDigits.2 c List.mem_cons_self) _

/-- An exponent has a value. -/
theorem IsExponent.read {exponent : List Char} (isExponent : IsExponent exponent) :
    ∃ power, readExponent? exponent = some power := by
  cases isExponent with
  | none => exact ⟨0, rfl⟩
  | @unsigned letter digits isLetter areDigits =>
      have split := splitSign_of_areDigits areDigits []
      rw [List.append_nil] at split
      simp [readExponent?, split, isLetter, areDigits.1, List.all_eq_true.mpr areDigits.2]
  | @signed letter sign digits isLetter isSign areDigits =>
      obtain rfl | rfl := isSign <;>
        simp [readExponent?, splitSign, isLetter, areDigits.1, List.all_eq_true.mpr areDigits.2]

/-- An exponent starts with neither a digit nor a point. -/
theorem IsExponent.head {exponent : List Char} (isExponent : IsExponent exponent) :
    ∀ c more, exponent = c :: more → isPlainDigit c = false ∧ c ≠ '.' := by
  rintro c more rfl
  cases isExponent with
  | unsigned isLetter => obtain rfl | rfl := isLetter <;> decide
  | signed isLetter => obtain rfl | rfl := isLetter <;> decide

namespace NumeralParts

variable {text whole fraction exponent : List Char}
  (parts : NumeralParts text whole fraction exponent)
include parts

theorem head : ∃ c more, text = c :: more ∧ isPlainDigit c = true := by
  obtain ⟨c, more, wholeEq⟩ := List.exists_cons_of_ne_nil parts.isWhole.1
  refine ⟨c, more ++ (fraction ++ exponent), by rw [parts.eq, wholeEq]; rfl, ?_⟩
  exact parts.isWhole.2 c (wholeEq ▸ List.mem_cons_self)

theorem splitSign (negative : Bool) : splitSign (signed negative text) = (negative, text) := by
  obtain ⟨c, more, rfl, digit⟩ := parts.head
  cases negative with
  | true => rfl
  | false => exact splitSign_of_digit digit more

/-- The characters of a numeral are digits, a point, letters for the exponent and signs. -/
theorem mem (negative : Bool) :
    ∀ c ∈ signed negative text, isPlainDigit c = true ∨ c ∈ ['-', '+', '.', 'e', 'E'] := by
  have inDigits {digits : List Char} (areDigits : AreDigits digits) {c : Char} (held : c ∈ digits) :
      isPlainDigit c = true ∨ c ∈ ['-', '+', '.', 'e', 'E'] := .inl (areDigits.2 c held)
  intro c held
  rw [signed, parts.eq, List.mem_append, List.mem_append, List.mem_append] at held
  rcases held with minus | inWhole | inFraction | inExponent
  · cases negative with
    | true => exact .inr (by simp [List.mem_singleton.mp minus])
    | false => cases minus
  · exact inDigits parts.isWhole inWhole
  · cases parts.isFraction with
    | none => cases inFraction
    | some areDigits =>
        cases inFraction with
        | head => exact .inr (by simp)
        | tail _ later => exact inDigits areDigits later
  · cases parts.isExponent with
    | none => cases inExponent
    | unsigned isLetter areDigits =>
        cases inExponent with
        | head => exact .inr (by obtain rfl | rfl := isLetter <;> simp)
        | tail _ later => exact inDigits areDigits later
    | signed isLetter isSign areDigits =>
        cases inExponent with
        | head => exact .inr (by obtain rfl | rfl := isLetter <;> simp)
        | tail _ later =>
            cases later with
            | head => exact .inr (by obtain rfl | rfl := isSign <;> simp)
            | tail _ last => exact inDigits areDigits last

/-- A numeral is marked as a double if it has a fraction or an exponent. -/
theorem any_mark (negative : Bool) :
    (signed negative text).any (fun c => c = '.' ∨ c = 'e' ∨ c = 'E') = true ↔
      fraction ≠ [] ∨ exponent ≠ [] := by
  have unmarked {c : Char} (digit : isPlainDigit c = true ∨ c = '-') :
      ¬ (c = '.' ∨ c = 'e' ∨ c = 'E') := by
    rintro (rfl | rfl | rfl) <;> exact absurd digit (by decide)
  rw [List.any_eq_true, signed, parts.eq]
  simp only [decide_eq_true_eq]
  constructor
  · rintro ⟨c, held, mark⟩
    by_contra none
    obtain ⟨rfl, rfl⟩ : fraction = [] ∧ exponent = [] := by simpa using none
    rw [List.append_nil, List.append_nil, List.mem_append] at held
    cases held with
    | inl minus =>
        cases negative with
        | true => exact unmarked (.inr (List.mem_singleton.mp minus)) mark
        | false => cases minus
    | inr digit => exact unmarked (.inl (parts.isWhole.2 c digit)) mark
  · intro some
    have held : '.' ∈ fraction ∨ 'e' ∈ exponent ∨ 'E' ∈ exponent := by
      cases parts.isFraction with
      | some => exact .inl List.mem_cons_self
      | none =>
          cases parts.isExponent with
          | none => simp at some
          | unsigned isLetter => obtain rfl | rfl := isLetter <;> simp
          | signed isLetter => obtain rfl | rfl := isLetter <;> simp
    rcases held with point | lower | upper
    · exact ⟨'.', by simp [point], .inl rfl⟩
    · exact ⟨'e', by simp [lower], .inr (.inl rfl)⟩
    · exact ⟨'E', by simp [upper], .inr (.inr rfl)⟩

end NumeralParts

/-! ## Reading -/

/-- The basic form of a text of visible characters is what is read of it. -/
theorem numeralChars_eq {text : String} {chars : List Char}
    (basic : text.toList.map plainChar = chars) (visible : ∀ c ∈ chars, 32 < c.toNat) :
    numeralChars text = chars := by
  have unpadded (part : List Char) (held : ∀ c ∈ part, c ∈ chars) :
      part.dropWhile isPad = part := by
    cases part with
    | nil => rfl
    | cons c rest =>
        refine List.dropWhile_cons_of_neg ?_
        have low := visible c (held c List.mem_cons_self)
        simp only [isPad, Bool.or_eq_true, beq_iff_eq, Bool.and_eq_true, decide_eq_true_eq,
          Char.le_def, UInt32.le_iff_toNat_le, not_or, not_and]
        refine ⟨?_, fun _ high => ?_⟩
        · rintro rfl
          exact absurd low (by decide)
        · change c.toNat ≤ 13 at high
          omega
  rw [numeralChars, basic, unpadded chars (fun _ held => held),
    unpadded chars.reverse (fun _ held => List.mem_reverse.mp held), List.reverse_reverse]

theorem dropLowLines?_eq {text : List Char} (absent : '_' ∉ text) (afterDigit : Bool) :
    dropLowLines? afterDigit text = some text := by
  induction text generalizing afterDigit with
  | nil => rfl
  | cons c rest ih =>
      have differs : c ≠ '_' := fun same => absent (same ▸ List.mem_cons_self)
      rw [dropLowLines?, if_neg differs, ih (fun held => absent (List.mem_cons_of_mem c held))]
      · rfl
      · rintro d more rfl
        exact absurd rfl differs

theorem toLower_of_isPlainDigit {c : Char} (digit : isPlainDigit c = true) : c.toLower = c := by
  have range := (isPlainDigit_iff c).mp digit
  refine dif_neg ?_
  simp only [ge_iff_le, UInt32.le_iff_toNat_le, not_and]
  change 65 ≤ c.toNat → ¬ c.toNat ≤ 90
  omega

/-- A text whose basic form is a numeral. -/
structure IsNumeral (text : String) (negative : Bool) (whole fraction exponent : List Char) :
    Prop where
  basic : text.toList.map plainChar = signed negative (whole ++ (fraction ++ exponent))
  parts : NumeralParts (whole ++ (fraction ++ exponent)) whole fraction exponent

namespace IsNumeral

variable {text : String} {negative : Bool} {whole fraction exponent : List Char}

/-- The basic form of a numeral has visible characters only. -/
theorem visible_basic (numeral : IsNumeral text negative whole fraction exponent) :
    ∀ c ∈ text.toList.map plainChar, 32 < c.toNat := by
  rw [numeral.basic]
  intro c held
  cases numeral.parts.mem negative c held with
  | inl digit =>
      have range := (isPlainDigit_iff c).mp digit
      omega
  | inr mark =>
      simp only [List.mem_cons, List.not_mem_nil, or_false] at mark
      rcases mark with rfl | rfl | rfl | rfl | rfl <;> decide

/-- No character of a numeral is a blank. -/
theorem visible (numeral : IsNumeral text negative whole fraction exponent) :
    ∀ c ∈ text.toList, Text.isBlank c = false := by
  intro c held
  have basic := numeral.visible_basic _ (List.mem_map_of_mem held)
  by_cases low : c.toNat < 128
  · rw [plainChar, if_pos low] at basic
    exact Text.isBlank_of_ascii basic low
  · rw [plainChar, if_neg low] at basic
    cases blank : Text.isBlank c with
    | false => rfl
    | true =>
        rw [blank, if_pos rfl] at basic
        exact absurd basic (by decide)

theorem ne_empty (numeral : IsNumeral text negative whole fraction exponent) :
    text.toList ≠ [] := by
  intro empty
  have basic := numeral.basic
  obtain ⟨_, _, chars, _⟩ := numeral.parts.head
  rw [empty, chars, List.map_nil, eq_comm, signed, List.append_eq_nil_iff] at basic
  cases basic.2

/-- A numeral has a visible character at each end. -/
theorem trimmed (numeral : IsNumeral text negative whole fraction exponent) :
    Text.Trimmed text where
  starts := Text.startsVisibly_of_forall numeral.ne_empty numeral.visible
  ends := Text.startsVisibly_of_forall (by simpa using numeral.ne_empty) fun c held =>
    numeral.visible c (List.mem_reverse.mp held)

/-- What a reader sees of a numeral. -/
theorem chars (numeral : IsNumeral text negative whole fraction exponent) :
    (dropLowLines? false (numeralChars text)) =
      some (signed negative (whole ++ (fraction ++ exponent))) := by
  rw [numeralChars_eq numeral.basic (numeral.basic ▸ numeral.visible_basic), dropLowLines?_eq]
  intro held
  cases numeral.parts.mem negative _ held with
  | inl digit => exact absurd digit (by decide)
  | inr mark => simp at mark

/-- An integer is read unless it has too many digits. -/
theorem readInt? (numeral : IsNumeral text negative whole [] []) :
    readInt? text =
      if maxIntegerDigits < whole.length then none
      else some (if negative then -(digitsValue whole : Int) else digitsValue whole) := by
  have split := numeral.parts.splitSign negative
  obtain ⟨nonempty, digits⟩ := numeral.parts.isWhole
  have all : whole.all isPlainDigit = true := List.all_eq_true.mpr digits
  have some? : whole.isEmpty = false := by simpa using nonempty
  rw [Number.readInt?, numeral.chars]
  simp only [List.append_nil] at split ⊢
  simp only [Option.bind_eq_bind, Option.bind_some, split, all, some?, Bool.not_true,
    Bool.or_false, Bool.false_or, decide_eq_true_eq]

/-- A double is read from the digits before and behind the point and the exponent. -/
theorem readDouble? (numeral : IsNumeral text negative whole fraction exponent) {power : Int}
    (reads : readExponent? exponent = some power) :
    readDouble? text = some (.ofDecimal negative (digitsValue (whole ++ fraction.tail))
      (power - fraction.tail.length)) := by
  have behindWhole : ∀ c more, fraction ++ exponent = c :: more → isPlainDigit c = false := by
    intro c more same
    cases numeral.parts.isFraction with
    | none => exact (numeral.parts.isExponent.head c more same).1
    | some =>
        cases same
        decide
  obtain ⟨wholeTaken, wholeDropped⟩ := numeral.parts.isWhole.span behindWhole
  have nonempty := numeral.parts.isWhole.1
  have magnitude : readMagnitude? negative (whole ++ (fraction ++ exponent)) =
      some (.ofDecimal negative (digitsValue (whole ++ fraction.tail))
        (power - fraction.tail.length)) := by
    rw [readMagnitude?]
    simp only [wholeTaken, wholeDropped]
    cases numeral.parts.isFraction with
    | none =>
        rw [List.nil_append]
        split
        · next after =>
            exact absurd rfl (numeral.parts.isExponent.head '.' _ rfl).2
        · simp [reads, nonempty]
    | some areDigits =>
        obtain ⟨taken, dropped⟩ := areDigits.span fun c more same =>
          (numeral.parts.isExponent.head c more same).1
        simp [taken, dropped, reads, nonempty]
  obtain ⟨c, more, textEq, digit⟩ := numeral.parts.head
  have named (word : String) (letter : Char) (rest : List Char)
      (wordEq : word.toList = letter :: rest) (isLetter : isPlainDigit letter = false) :
      String.ofList ((whole ++ (fraction ++ exponent)).map Char.toLower) ≠ word := by
    intro same
    have first := congrArg String.toList same
    rw [String.toList_ofList, textEq, List.map_cons, wordEq, toLower_of_isPlainDigit digit,
      List.cons.injEq] at first
    rw [← first.1, digit] at isLetter
    cases isLetter
  rw [Number.readDouble?, numeral.chars]
  simp only [Option.bind_eq_bind, Option.bind_some, numeral.parts.splitSign negative]
  rw [if_neg, if_neg, magnitude]
  · exact named "nan" 'n' _ rfl (by decide)
  · rw [not_or]
    exact ⟨named "inf" 'i' _ rfl (by decide), named "infinity" 'i' _ rfl (by decide)⟩

end IsNumeral

/-! ## Integers -/

/-- What an integer is read from: its digits, behind a minus if it is negative. -/
theorem toString_toList (n : Int) :
    (toString n).toList = signed (n < 0) (Nat.toDigits 10 n.natAbs) := by
  rw [Int.toString_eq_repr]
  cases n with
  | ofNat m => simp [Int.repr, signed]
  | negSucc m => simp [Int.repr, Int.negSucc_lt_zero, signed]

/-- A numeral in basic Latin characters is its own basic form. -/
theorem NumeralParts.isNumeral {text : String} {negative : Bool}
    {unsigned whole fraction exponent : List Char} (eq : text.toList = signed negative unsigned)
    (parts : NumeralParts unsigned whole fraction exponent) :
    IsNumeral text negative whole fraction exponent := by
  have mem := parts.mem negative
  obtain ⟨rfl, isWhole, isFraction, isExponent⟩ := parts
  refine ⟨?_, rfl, isWhole, isFraction, isExponent⟩
  rw [eq]
  refine (List.map_congr_left (g := id) fun c held => ?_).trans (List.map_id _)
  have basic : c.toNat < 128 := by
    cases mem c held with
    | inl digit =>
        have range := (isPlainDigit_iff c).mp digit
        omega
    | inr mark =>
        simp only [List.mem_cons, List.not_mem_nil, or_false] at mark
        rcases mark with rfl | rfl | rfl | rfl | rfl <;> decide
  rw [plainChar, if_pos basic, id]

theorem isNumeral_toString (n : Int) :
    IsNumeral (toString n) (n < 0) (Nat.toDigits 10 n.natAbs) [] [] :=
  NumeralParts.isNumeral (toString_toList n) ⟨by simp, areDigits_toDigits n.natAbs, .none, .none⟩

/-- The digits of an integer and its sign denote it. -/
theorem digitsValue_natAbs (n : Int) :
    (if (decide (n < 0)) = true then -(digitsValue (Nat.toDigits 10 n.natAbs) : Int)
      else digitsValue (Nat.toDigits 10 n.natAbs)) = n := by
  rw [digitsValue_toDigits]
  by_cases negative : n < 0
  · simp only [negative, decide_true, if_true]
    omega
  · simp only [negative, decide_false, Bool.false_eq_true, if_false]
    omega

/-- An integer has no more digits than what it is read from. -/
theorem length_toDigits_natAbs {digits : List Char} (all : ∀ c ∈ digits, isPlainDigit c = true)
    (bounded : digits.length ≤ maxIntegerDigits) (negative : Bool) :
    (Nat.toDigits 10 (if negative then -(digitsValue digits : Int)
      else digitsValue digits).natAbs).length ≤ maxIntegerDigits := by
  have value : (if negative then -(digitsValue digits : Int)
      else digitsValue digits).natAbs = digitsValue digits := by
    cases negative <;> simp
  rw [value, Nat.length_toDigits_le_iff (by decide) (by decide)]
  exact (digitsValue_lt all).trans_le (Nat.pow_le_pow_right (by decide) bounded)

/-- The text of an integer reads back unless it has too many digits. -/
theorem readInt?_toString (n : Int) :
    readInt? (toString n) =
      if maxIntegerDigits < (Nat.toDigits 10 n.natAbs).length then none else some n := by
  rw [(isNumeral_toString n).readInt?, digitsValue_natAbs]

/-! ## Exponents -/

/-- The digits of an exponent, of which there are at least two. -/
theorem exponentDigits (n : Nat) :
    ∃ digits, (if (digitsText n).length < 2 then '0' :: digitsText n else digitsText n) = digits ∧
      AreDigits digits ∧ digitsValue digits = n := by
  have areDigits := areDigits_digitsText n
  refine ⟨_, rfl, ?_⟩
  split
  · exact ⟨areDigits.of_subset (List.cons_ne_nil _ _) (by simp +contextual), digitsValue_toDigits n⟩
  · exact ⟨areDigits, digitsValue_toDigits n⟩

theorem isExponent_exponentText (exponent : Int) : IsExponent (exponentText exponent) := by
  obtain ⟨digits, text, areDigits, -⟩ := exponentDigits exponent.natAbs
  rw [exponentText, text]
  refine .signed (.inl rfl) ?_ areDigits
  split
  · exact .inr rfl
  · exact .inl rfl

theorem readExponent?_exponentText (exponent : Int) :
    readExponent? (exponentText exponent) = some exponent := by
  obtain ⟨digits, text, ⟨nonempty, all⟩, value⟩ := exponentDigits exponent.natAbs
  have all' : digits.all isPlainDigit = true := List.all_eq_true.mpr all
  rw [exponentText, text]
  by_cases negative : exponent < 0
  · simp only [readExponent?, splitSign, negative, if_true, value, all', true_or,
      List.isEmpty_eq_false_iff.mpr nonempty, Bool.not_false, true_and, Option.some.injEq]
    omega
  · simp only [readExponent?, splitSign, negative, Bool.false_eq_true, if_true, if_false, value,
      all', true_or, List.isEmpty_eq_false_iff.mpr nonempty, Bool.not_false, true_and,
      Option.some.injEq]
    omega

/-! ## Decimals -/

/-- The parts of the text of a decimal.  They denote the decimal, and it is not the text of
an integer. -/
structure DecimalParts (decimal : Decimal) (whole fraction exponent : List Char) (power : Int) :
    Prop extends NumeralParts decimal.text whole fraction exponent where
  notInteger : fraction ≠ [] ∨ exponent ≠ []
  reads : readExponent? exponent = some power
  value : decimalValue (digitsValue (whole ++ fraction.tail)) (power - fraction.tail.length) =
    decimalValue decimal.digits decimal.exponent

/-- Zeros behind the digits of a decimal lower its exponent. -/
theorem decimalValue_zeros (digits zeros : Nat) (exponent : Int) :
    decimalValue (10 ^ zeros * digits) (exponent - zeros) = decimalValue digits exponent := by
  have nonzero : (10 : ℚ) ≠ 0 := by norm_num
  rw [decimalValue, decimalValue, zpow_sub₀ nonzero, zpow_natCast, Nat.cast_mul, Nat.cast_pow,
    Nat.cast_ofNat]
  field_simp

theorem Decimal.text_parts (decimal : Decimal) :
    ∃ whole fraction exponent power, DecimalParts decimal whole fraction exponent power := by
  obtain ⟨n, shift⟩ := decimal
  have areDigits := areDigits_digitsText n
  have value : digitsValue (digitsText n) = n := digitsValue_toDigits n
  obtain ⟨text, same⟩ : ∃ text, Decimal.text ⟨n, shift⟩ = text := ⟨_, rfl⟩
  have textEq := same.symm
  rw [Decimal.text] at textEq
  dsimp only at textEq
  generalize digitsText n = chars at areDigits value textEq
  -- where the digits are those of the decimal, the place of the point tells its exponent
  have denotes {digits : List Char} {exponent : Int} (same : digitsValue digits = n)
      (level : exponent = shift) :
      decimalValue (digitsValue digits) exponent = decimalValue n shift := by
    rw [same, level]
  split at textEq
  · split at textEq
    · exact absurd rfl areDigits.1
    · next d _ =>
        exact ⟨[d], [], _, _, ⟨same.trans textEq, areDigits, .none, isExponent_exponentText _⟩,
          .inr (List.cons_ne_nil _ _), readExponent?_exponentText _, denotes value (by simp)⟩
    · next d rest notSingle _ =>
        have nonempty : rest ≠ [] := fun nil => notSingle (nil ▸ rfl)
        refine ⟨[d], '.' :: rest, _, (d :: rest).length + shift - 1,
          ⟨?_, ?_, .some ?_, isExponent_exponentText _⟩,
          .inl (List.cons_ne_nil _ _), readExponent?_exponentText _, denotes value ?_⟩
        · rw [same, textEq]
          simp
        · exact areDigits.of_subset (by simp) (by simp)
        · exact areDigits.of_subset nonempty (by simp +contextual)
        · simp only [List.length_cons, List.tail_cons]
          omega
  · split at textEq
    · refine ⟨['0'], '.' :: (List.replicate (-(chars.length + shift)).toNat '0' ++ chars), [], 0,
        ⟨?_, ?_, .some ?_, .none⟩, .inl (List.cons_ne_nil _ _), rfl, denotes ?_ ?_⟩
      · rw [same, textEq]
        simp
      · exact areDigits.of_subset (by simp) (by simp)
      · refine areDigits.of_subset (by simp [areDigits.1]) ?_
        intro c held
        rw [List.mem_append, List.mem_replicate] at held
        exact held.symm.imp_right And.right
      · rw [List.tail_cons, digitsValue_append, digitsValue_append, digitsValue_zeros, value]
        change _ * 0 + (_ * 0 + n) = n
        omega
      · simp only [List.tail_cons, List.length_append, List.length_replicate]
        omega
    · split at textEq
      · next long =>
          refine ⟨chars ++ List.replicate (chars.length + shift - chars.length).toNat '0',
            ['.', '0'], [], 0, ⟨?_, ?_, .some ?_, .none⟩, .inl (List.cons_ne_nil _ _), rfl, ?_⟩
          · rw [same, textEq]
            simp
          · refine areDigits.of_subset (by simp [areDigits.1]) ?_
            intro c held
            rw [List.mem_append, List.mem_replicate] at held
            exact held.imp_right And.right
          · exact areDigits.of_subset (by simp) (by simp)
          · have zeros : chars ++ List.replicate (chars.length + shift - chars.length).toNat '0' ++
                ['0'] = chars ++ List.replicate (shift.toNat + 1) '0' := by
              rw [List.append_assoc, ← List.replicate_succ',
                show (chars.length + shift - chars.length).toNat = shift.toNat by omega]
            rw [List.tail_cons, zeros, digitsValue_append, digitsValue_zeros, value, Nat.add_zero,
              List.length_replicate, ← decimalValue_zeros n (shift.toNat + 1) shift]
            congr 1
            simp only [List.length_singleton]
            omega
      · -- the point falls inside the digits
        refine ⟨chars.take (chars.length + shift).toNat,
          '.' :: chars.drop (chars.length + shift).toNat, [], 0, ⟨?_, ?_, .some ?_, .none⟩,
          .inl (List.cons_ne_nil _ _), rfl, denotes ?_ ?_⟩
        · rw [same, textEq]
          simp
        · refine areDigits.of_subset ?_ fun c held => .inl (List.mem_of_mem_take held)
          simp only [ne_eq, List.take_eq_nil_iff, not_or]
          exact ⟨by omega, areDigits.1⟩
        · refine areDigits.of_subset ?_ fun c held => .inl (List.mem_of_mem_drop held)
          simp only [ne_eq, List.drop_eq_nil_iff]
          omega
        · rw [List.tail_cons, List.take_append_drop, value]
        · simp only [List.tail_cons, List.length_drop]
          omega

/-! ## Doubles -/

theorem Finite.isNumeral_text (x : Finite) :
    ∃ whole fraction exponent power, DecimalParts x.shortest whole fraction exponent power ∧
      IsNumeral x.text x.negative whole fraction exponent := by
  obtain ⟨whole, fraction, exponent, power, parts⟩ := x.shortest.text_parts
  refine ⟨whole, fraction, exponent, power, parts, ?_⟩
  exact NumeralParts.isNumeral (by rw [text, String.toList_ofList]; rfl) parts.toNumeralParts

/-- The text of a double reads back to it. -/
theorem Finite.readDouble?_text (x : Finite) : readDouble? x.text = some (.finite x) := by
  obtain ⟨whole, fraction, exponent, power, parts, numeral⟩ := x.isNumeral_text
  rw [numeral.readDouble? parts.reads, Double.ofDecimal_congr parts.value, x.shortest_readsBack]

end Scim.Number
