import Scim.Json.Basic
import Scim.Number.Numeral
import Scim.Text.Quoted

/-!
# Values in messages

A message shows a value in brackets and braces with its texts quoted; a text by itself may also be
shown as it is.
-/

namespace Scim.Json

mutual

/-- A value as a message shows it, with texts quoted. -/
def shown : Json → String
  | .null => "None"
  | .bool b => if b then "True" else "False"
  | .int n => toString n
  | .double d => d.text "inf" "nan"
  | .str s => Text.quoted s
  | .arr items => "[" ++ ", ".intercalate (shownItems items) ++ "]"
  | .obj members => "\x7b" ++ ", ".intercalate (shownMembers members) ++ "\x7d"

/-- The items of an array as a message shows them. -/
def shownItems : List Json → List String
  | [] => []
  | item :: rest => shown item :: shownItems rest

/-- The members of an object as a message shows them. -/
def shownMembers : List (String × Json) → List String
  | [] => []
  | (name, value) :: rest => (Text.quoted name ++ ": " ++ shown value) :: shownMembers rest

end

/-- A value as plain text: a text as it is, any other value as a message shows it. -/
def plain : Json → String
  | .str s => s
  | value => shown value

end Scim.Json
