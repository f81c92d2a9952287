import Scim.Json.Basic
import Scim.Number.Numeral
import Scim.Text.Quoted

/-!
# Writing JSON text

`Json.compact` writes a value on one line with a space after each comma and colon, `Json.indented`
writes every item and member on a line of its own. Both use basic Latin characters only: all others
are escaped by their sixteen-bit units.
-/

namespace Scim.Json

open Number (Double)

/-- A sixteen-bit unit, escaped. -/
def escapeUnit (unit : Nat) : List Char := '\\' :: 'u' :: Text.hexPadded 4 unit

/-- One character of a string. -/
def escapeChar (c : Char) : List Char :=
  if c = '"' then ['\\', '"']
  else if c = '\\' then ['\\', '\\']
  else if c = '\n' then ['\\', 'n']
  else if c = '\r' then ['\\', 'r']
  else if c = '\t' then ['\\', 't']
  else if c = '\x0c' then ['\\', 'f']
  else if c = '\x08' then ['\\', 'b']
  else if ' ' ≤ c ∧ c ≤ '~' then [c]
  else if c.toNat < 0x10000 then escapeUnit c.toNat
  else
    let code := c.toNat - 0x10000
    escapeUnit (0xD800 + code / 0x400) ++ escapeUnit (0xDC00 + code % 0x400)

/-- A string with its quotes. -/
def stringText (s : String) : String :=
  String.ofList ('"' :: s.toList.flatMap escapeChar ++ ['"'])

/-- A double; the infinities and a NaN are written as words. -/
def doubleText (d : Double) : String := d.text "Infinity" "NaN"

/-- A value that is neither an array nor an object. -/
def scalarText : Json → String
  | .null => "null"
  | .bool b => if b then "true" else "false"
  | .int n => toString n
  | .double d => doubleText d
  | .str s => stringText s
  | .arr _ | .obj _ => ""

mutual

/-- A value on one line. -/
def compact : Json → String
  | .arr items => "[" ++ ", ".intercalate (compactItems items) ++ "]"
  | .obj members => "\x7b" ++ ", ".intercalate (compactMembers members) ++ "\x7d"
  | scalar => scalarText scalar

/-- The items of an array, each on one line. -/
def compactItems : List Json → List String
  | [] => []
  | item :: rest => compact item :: compactItems rest

/-- The members of an object, each on one line. -/
def compactMembers : List (String × Json) → List String
  | [] => []
  | (name, value) :: rest => (stringText name ++ ": " ++ compact value) :: compactMembers rest

end

/-- A line break and the indentation of a depth. -/
def newline (depth : Nat) : String := "\n" ++ "".pushn ' ' (2 * depth)

/-- Bracketed lines at one depth below the brackets. -/
def block (opening closing : String) (depth : Nat) (lines : List String) : String :=
  if lines.isEmpty then opening ++ closing
  else
    opening ++ newline (depth + 1) ++ ("," ++ newline (depth + 1)).intercalate lines ++
      newline depth ++ closing

mutual

/-- A value over several lines, standing at a depth. -/
def indentedAt (depth : Nat) : Json → String
  | .arr items => block "[" "]" depth (indentedItems (depth + 1) items)
  | .obj members => block "\x7b" "\x7d" depth (indentedMembers (depth + 1) members)
  | scalar => scalarText scalar

/-- The items of an array at a depth. -/
def indentedItems (depth : Nat) : List Json → List String
  | [] => []
  | item :: rest => indentedAt depth item :: indentedItems depth rest

/-- The members of an object at a depth. -/
def indentedMembers (depth : Nat) : List (String × Json) → List String
  | [] => []
  | (name, value) :: rest =>
    (stringText name ++ ": " ++ indentedAt depth value) :: indentedMembers depth rest

end

/-- A value over several lines. -/
def indented (value : Json) : String := indentedAt 0 value

end Scim.Json
