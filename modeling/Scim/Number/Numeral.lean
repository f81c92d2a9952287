import Scim.Number.Shortest
import Scim.Text.CharClass

/-!
# Numerals

The text of a double and the reading of integers and doubles from text. Reading accepts decimal
digits of any script, surrounding white space, a sign, and single low lines between digits.
-/

namespace Scim.Number

/-- Decimal digits of a number. -/
def digitsText (n : Nat) : List Char := Nat.toDigits 10 n

/-- The exponent of a numeral, with a sign and at least two digits. -/
def exponentText (exponent : Int) : List Char :=
  let digits := digitsText exponent.natAbs
  'e' :: (if exponent < 0 then '-' else '+') ::
    (if digits.length < 2 then '0' :: digits else digits)

/-- The text of a decimal: positional when its leading digit stands between the fourth place after
the point and the sixteenth before it, else with an exponent. A positional numeral always shows a
digit after the point. -/
def Decimal.text (decimal : Decimal) : List Char :=
  let digits := digitsText decimal.digits
  let point : Int := digits.length + decimal.exponent
  if point < -3 ∨ 16 < point then
    match digits with
    | [] => []
    | [d] => d :: exponentText (point - 1)
    | d :: rest => d :: '.' :: rest ++ exponentText (point - 1)
  else if point ≤ 0 then
    '0' :: '.' :: List.replicate (-point).toNat '0' ++ digits
  else if (digits.length : Int) ≤ point then
    digits ++ List.replicate (point - digits.length).toNat '0' ++ ['.', '0']
  else
    digits.take point.toNat ++ '.' :: digits.drop point.toNat

/-- The text of a finite double: its sign and its shortest decimal. -/
def Finite.text (x : Finite) : String :=
  String.ofList ((if x.negative then ['-'] else []) ++ x.shortest.text)

/-- The text of a double, given the words for infinity and for a NaN. -/
def Double.text (infinity nan : String) : Double → String
  | .finite x => x.text
  | .infinite negative => if negative then "-" ++ infinity else infinity
  | .nan => nan

/-- The largest number of digits an integer may be written with. -/
def maxIntegerDigits : Nat := 4300

/-- The basic form of a character of a numeral: blanks beyond ASCII become spaces and digits of any
script those of the basic Latin block. -/
def plainChar (c : Char) : Char :=
  if c.toNat < 128 then c
  else if Text.isBlank c then ' '
  else
    match Text.digitValue? c with
    | some value => Char.ofNat (48 + value)
    | none => c

/-- White space around a numeral. -/
def isPad (c : Char) : Bool := c == ' ' || ('\t' ≤ c && c ≤ '\r')

/-- A basic Latin digit. -/
def isPlainDigit (c : Char) : Bool := '0' ≤ c && c ≤ '9'

/-- The characters of a numeral in basic form, without the white space around it. -/
def numeralChars (text : String) : List Char :=
  (((text.toList.map plainChar).dropWhile isPad).reverse.dropWhile isPad).reverse

/-- Removes low lines that stand between two digits; there is no result if one stands elsewhere.
`afterDigit` tells whether a digit stands before the text. -/
def dropLowLines? (afterDigit : Bool) : List Char → Option (List Char)
  | [] => some []
  | '_' :: c :: rest =>
    if afterDigit && isPlainDigit c then (dropLowLines? true rest).map (c :: ·) else none
  | c :: rest =>
    if c = '_' then none else (dropLowLines? (isPlainDigit c) rest).map (c :: ·)

/-- A sign and what follows it; whether it is a minus. -/
def splitSign : List Char → Bool × List Char
  | '-' :: rest => (true, rest)
  | '+' :: rest => (false, rest)
  | rest => (false, rest)

/-- The value of a sequence of basic Latin digits. -/
def digitsValue (digits : List Char) : Nat :=
  digits.foldl (fun value c => 10 * value + (c.toNat - 48)) 0

/-- Reads an integer. -/
def readInt? (text : String) : Option Int := do
  let (negative, digits) := splitSign (← dropLowLines? false (numeralChars text))
  if digits.isEmpty || !digits.all isPlainDigit || maxIntegerDigits < digits.length then none
  else
    let magnitude : Int := digitsValue digits
    some (if negative then -magnitude else magnitude)

/-- Reads the exponent of a numeral, which may be absent. -/
def readExponent? : List Char → Option Int
  | [] => some 0
  | c :: rest =>
    let (negative, digits) := splitSign rest
    if (c = 'e' ∨ c = 'E') ∧ !digits.isEmpty ∧ digits.all isPlainDigit then
      let magnitude : Int := digitsValue digits
      some (if negative then -magnitude else magnitude)
    else none

/-- Reads an unsigned numeral with an optional fraction and exponent. -/
def readMagnitude? (negative : Bool) (text : List Char) : Option Double := do
  let whole := text.takeWhile isPlainDigit
  let rest := text.dropWhile isPlainDigit
  let (fraction, rest) := match rest with
    | '.' :: after => (after.takeWhile isPlainDigit, after.dropWhile isPlainDigit)
    | rest => ([], rest)
  let exponent ← readExponent? rest
  let digits := whole ++ fraction
  if digits.isEmpty then none
  else some (.ofDecimal negative (digitsValue digits) (exponent - fraction.length))

/-- Reads a double. Infinities and NaNs are written by name in any letter case. -/
def readDouble? (text : String) : Option Double := do
  let (negative, body) := splitSign (← dropLowLines? false (numeralChars text))
  let word := String.ofList (body.map Char.toLower)
  if word = "inf" ∨ word = "infinity" then some (.infinite negative)
  else if word = "nan" then some .nan
  else readMagnitude? negative body

end Scim.Number
