import Scim.Json.Basic
import Scim.Number.Numeral

/-!
# Reading JSON text

`Json.read` accepts the JSON grammar, and besides it the words `NaN`, `Infinity` and `-Infinity`. A
refusal names its cause and the character at which it lies. An escaped half of a surrogate pair that
stands alone is read as the replacement character.
-/

namespace Scim.Json

open Number (Double)

/-- Why a text is not JSON. -/
inductive Malformation where
  | byteOrderMark
  | expectedValue
  | expectedName
  | expectedColon
  | expectedComma
  | unterminatedString
  | controlCharacter
  | invalidEscape
  | invalidUnicodeEscape
  | extraData
  deriving DecidableEq

/-- A refused text: malformed at a character, counted from zero, or well formed with an integer of
more digits than an integer may have. -/
inductive ReadError where
  | malformed (cause : Malformation) (position : Nat)
  | integerTooLong
  deriving DecidableEq

/-- The wording of a cause. -/
def Malformation.message : Malformation → String
  | .byteOrderMark => "Unexpected UTF-8 BOM (decode using utf-8-sig)"
  | .expectedValue => "Expecting value"
  | .expectedName => "Expecting property name enclosed in double quotes"
  | .expectedColon => "Expecting ':' delimiter"
  | .expectedComma => "Expecting ',' delimiter"
  | .unterminatedString => "Unterminated string starting at"
  | .controlCharacter => "Invalid control character at"
  | .invalidEscape => "Invalid \\escape"
  | .invalidUnicodeEscape => "Invalid \\uXXXX escape"
  | .extraData => "Extra data"

/-- A cause with its place by line and column, both counted from one, and by character. -/
def Malformation.describe (cause : Malformation) (position : Nat) (text : List Char) : String :=
  let before := text.take position
  let line := before.count '\n' + 1
  let column := (before.reverse.takeWhile (· ≠ '\n')).length + 1
  s!"{cause.message}: line {line} column {column} (char {position})"

namespace Reader

/-- A refusal inside the text: the cause, and the number of characters from its place to the end. -/
inductive Refusal where
  | malformed (cause : Malformation) (remaining : Nat)
  | integerTooLong

/-- Refuses the text at the start of what remains. -/
def refuse {α : Type} (cause : Malformation) (remaining : List Char) : Except Refusal α :=
  .error (.malformed cause remaining.length)

/-- White space between tokens. -/
def isSpace (c : Char) : Bool := c == ' ' || c == '\t' || c == '\n' || c == '\r'

/-- Drops white space. -/
def skip (text : List Char) : List Char := text.dropWhile isSpace

/-- The value of a hexadecimal digit. -/
def hexValue? (c : Char) : Option Nat :=
  if '0' ≤ c ∧ c ≤ '9' then some (c.toNat - 48)
  else if 'a' ≤ c ∧ c ≤ 'f' then some (c.toNat - 87)
  else if 'A' ≤ c ∧ c ≤ 'F' then some (c.toNat - 55)
  else none

/-- The value of four hexadecimal digits. -/
def hexUnit? (a b c d : Char) : Option Nat := do
  some ((((← hexValue? a) * 16 + (← hexValue? b)) * 16 + (← hexValue? c)) * 16 + (← hexValue? d))

/-- The character of a single-letter escape. -/
def escapee? : Char → Option Char
  | '"' => some '"'
  | '\\' => some '\\'
  | '/' => some '/'
  | 'b' => some '\x08'
  | 'f' => some '\x0c'
  | 'n' => some '\n'
  | 'r' => some '\r'
  | 't' => some '\t'
  | _ => none

/-- The first half of a surrogate pair. -/
def isHighSurrogate (unit : Nat) : Bool := 0xD800 ≤ unit && unit < 0xDC00

/-- The second half of a surrogate pair. -/
def isLowSurrogate (unit : Nat) : Bool := 0xDC00 ≤ unit && unit < 0xE000

/-- The character of a surrogate pair. -/
def joinSurrogates (high low : Nat) : Char :=
  Char.ofNat (0x10000 + (high - 0xD800) * 0x400 + (low - 0xDC00))

/-- The character of a single unit. -/
def unitChar (unit : Nat) : Char :=
  if isHighSurrogate unit || isLowSurrogate unit then '\uFFFD' else Char.ofNat unit

/-- Puts a character in front of the result of a step. -/
def consChar (c : Char) (step : Except Refusal (List Char × List Char)) :
    Except Refusal (List Char × List Char) :=
  step.map fun (chars, rest) => (c :: chars, rest)

/-- The characters of a string up to its closing quote. `whole` is the number of characters from the
opening quote to the end of the text. -/
def stringBody (whole : Nat) : List Char → Except Refusal (List Char × List Char)
  | [] => .error (.malformed .unterminatedString whole)
  | '"' :: rest => .ok ([], rest)
  | '\\' :: 'u' :: a :: b :: c :: d :: rest =>
    if rest.isEmpty then refuse .invalidUnicodeEscape ('u' :: a :: b :: c :: d :: rest)
    else
      match hexUnit? a b c d with
      | none => refuse .invalidUnicodeEscape ('u' :: a :: b :: c :: d :: rest)
      | some unit =>
        match rest with
        | '\\' :: 'u' :: e :: f :: g :: h :: after =>
          if isHighSurrogate unit && !after.isEmpty then
            match hexUnit? e f g h with
            | none => refuse .invalidUnicodeEscape ('u' :: e :: f :: g :: h :: after)
            | some low =>
              if isLowSurrogate low then consChar (joinSurrogates unit low) (stringBody whole after)
              else
                consChar (unitChar unit)
                  (stringBody whole ('\\' :: 'u' :: e :: f :: g :: h :: after))
          else
            consChar (unitChar unit)
              (stringBody whole ('\\' :: 'u' :: e :: f :: g :: h :: after))
        | rest => consChar (unitChar unit) (stringBody whole rest)
  | '\\' :: 'u' :: rest => refuse .invalidUnicodeEscape ('u' :: rest)
  | ['\\'] => .error (.malformed .unterminatedString whole)
  | '\\' :: c :: rest =>
    match escapee? c with
    | some e => consChar e (stringBody whole rest)
    | none => refuse .invalidEscape ('\\' :: c :: rest)
  | c :: rest =>
    if c.toNat < 32 then refuse .controlCharacter (c :: rest)
    else consChar c (stringBody whole rest)

/-- A string, from behind its opening quote. -/
def string (text : List Char) : Except Refusal (String × List Char) :=
  (stringBody (text.length + 1) text).map fun (chars, rest) => (String.ofList chars, rest)

/-- The digits at the start of a text. -/
def digits (text : List Char) : List Char × List Char :=
  (text.takeWhile Number.isPlainDigit, text.dropWhile Number.isPlainDigit)

/-- The whole part of a number: a zero, or digits that do not start with one. -/
def wholePart (text : List Char) : List Char × List Char :=
  match text with
  | '0' :: rest => (['0'], rest)
  | _ => digits text

/-- The fraction of a number, empty if no digit follows a point. -/
def fractionPart (text : List Char) : List Char × List Char :=
  match text with
  | '.' :: after =>
    match digits after with
    | ([], _) => ([], text)
    | (fraction, rest) => ('.' :: fraction, rest)
  | _ => ([], text)

/-- The exponent of a number, empty if it has no digits. -/
def exponentPart (text : List Char) : List Char × List Char :=
  match text with
  | e :: after =>
    if e = 'e' ∨ e = 'E' then
      let (sign, after) := match after with
        | '+' :: more => (['+'], more)
        | '-' :: more => (['-'], more)
        | more => ([], more)
      match digits after with
      | ([], _) => ([], text)
      | (exponent, rest) => (e :: sign ++ exponent, rest)
    else ([], text)
  | [] => ([], text)

/-- A number: an integer, or a double if it has a fraction or an exponent. -/
def number (text : List Char) : Except Refusal (Json × List Char) :=
  let (sign, body) := match text with
    | '-' :: body => (['-'], body)
    | body => ([], body)
  match wholePart body with
  | ([], _) => refuse .expectedValue text
  | (whole, rest) =>
    let (fraction, rest) := fractionPart rest
    let (exponent, rest) := exponentPart rest
    let numeral := String.ofList (sign ++ whole ++ fraction ++ exponent)
    if fraction.isEmpty && exponent.isEmpty then
      match Number.readInt? numeral with
      | some n => .ok (.int n, rest)
      | none => .error .integerTooLong
    else
      match Number.readDouble? numeral with
      | some d => .ok (.double d, rest)
      | none => refuse .expectedValue text

/-- A word that stands for a value, or else a number. -/
def scalar (text : List Char) : Except Refusal (Json × List Char) :=
  match text with
  | 'n' :: 'u' :: 'l' :: 'l' :: rest => .ok (.null, rest)
  | 't' :: 'r' :: 'u' :: 'e' :: rest => .ok (.bool true, rest)
  | 'f' :: 'a' :: 'l' :: 's' :: 'e' :: rest => .ok (.bool false, rest)
  | 'N' :: 'a' :: 'N' :: rest => .ok (.double .nan, rest)
  | 'I' :: 'n' :: 'f' :: 'i' :: 'n' :: 'i' :: 't' :: 'y' :: rest =>
    .ok (.double (.infinite false), rest)
  | '-' :: 'I' :: 'n' :: 'f' :: 'i' :: 'n' :: 'i' :: 't' :: 'y' :: rest =>
    .ok (.double (.infinite true), rest)
  | _ => number text

mutual

/-- A value. Each step takes one unit of fuel, and twice the length of the text suffices. -/
def value : Nat → List Char → Except Refusal (Json × List Char)
  | 0, text => refuse .expectedValue text
  | fuel + 1, text =>
    match text with
    | '"' :: rest => do
      let (s, rest) ← string rest
      return (.str s, rest)
    | '[' :: rest =>
      match skip rest with
      | ']' :: rest => .ok (.arr [], rest)
      | rest => do
        let (items, rest) ← items fuel rest
        return (.arr items, rest)
    | '{' :: rest =>
      match skip rest with
      | '}' :: rest => .ok (.obj [], rest)
      | rest => do
        let (pairs, rest) ← pairs fuel rest
        return (.obj (Members.ofList pairs), rest)
    | text => scalar text

/-- The items of an array up to its closing bracket. -/
def items : Nat → List Char → Except Refusal (List Json × List Char)
  | 0, text => refuse .expectedValue text
  | fuel + 1, text => do
    let (item, rest) ← value fuel text
    match skip rest with
    | ']' :: rest => return ([item], rest)
    | ',' :: rest => do
      let (more, rest) ← items fuel (skip rest)
      return (item :: more, rest)
    | rest => refuse .expectedComma rest

/-- The members of an object up to its closing brace. -/
def pairs : Nat → List Char → Except Refusal (List (String × Json) × List Char)
  | 0, text => refuse .expectedName text
  | fuel + 1, text =>
    match text with
    | '"' :: rest => do
      let (name, rest) ← string rest
      match skip rest with
      | ':' :: rest => do
        let (value, rest) ← value fuel (skip rest)
        match skip rest with
        | '}' :: rest => return ([(name, value)], rest)
        | ',' :: rest => do
          let (more, rest) ← pairs fuel (skip rest)
          return ((name, value) :: more, rest)
        | rest => refuse .expectedComma rest
      | rest => refuse .expectedColon rest
    | text => refuse .expectedName text

end

/-- A whole text: one value with white space around it. -/
def document (text : List Char) : Except Refusal Json :=
  if text.head? = some '\uFEFF' then refuse .byteOrderMark text
  else do
    let (result, rest) ← value (2 * text.length + 2) (skip text)
    match skip rest with
    | [] => return result
    | rest => refuse .extraData rest

end Reader

/-- Reads a JSON text. -/
def read (text : String) : Except ReadError Json :=
  match Reader.document text.toList with
  | .ok value => .ok value
  | .error .integerTooLong => .error .integerTooLong
  | .error (.malformed cause remaining) => .error (.malformed cause (text.length - remaining))

end Scim.Json
