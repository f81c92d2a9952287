import Scim.Text.Tables.Case
import Scim.Text.Tables.Sigma

/-!
# Letter case

Lower-casing, upper-casing and case folding of whole texts with the full mappings, in which one
character may become several. Names, keywords and header fields are matched by equal lower-case
forms, case-insensitive values by equal foldings.
-/

namespace Scim.Text

/-- The lower-case form of a character outside any context. -/
def lowerChar (c : Char) : List Char :=
  if c.toNat < 128 then [c.toLower]
  else applyMapping Tables.lowerExpansions Tables.lowerShifts c

/-- The upper-case form of a character. -/
def upperChar (c : Char) : List Char :=
  if c.toNat < 128 then [c.toUpper]
  else applyMapping Tables.upperExpansions Tables.upperShifts c

/-- The case folding of a character. -/
def foldChar (c : Char) : List Char :=
  if c.toNat < 128 then [c.toLower]
  else applyMapping Tables.foldExpansions Tables.foldShifts c

/-- Whether a character carries case. -/
def isCased (c : Char) : Bool := inSpans Tables.cased c.toNat

/-- Whether a character is looked through when a neighbour that carries case is sought. -/
def isCaseIgnorable (c : Char) : Bool := inSpans Tables.caseIgnorable c.toNat

/-- Whether the first character that is not looked through carries case. -/
def startsCased (text : List Char) : Bool :=
  (text.find? (!isCaseIgnorable ·)).any isCased

/-- Lower-case form of a text, given the characters before it with the nearest first. A capital
sigma with a character that carries case before it and none after it ends a word and takes its final
form. -/
def lowerChars (before : List Char) : List Char → List Char
  | [] => []
  | c :: rest =>
    if c = 'Σ' then
      (if startsCased before && !startsCased rest then 'ς' else 'σ') ::
        lowerChars (c :: before) rest
    else lowerChar c ++ lowerChars (c :: before) rest

/-- Lower-case form of a text. -/
def lower (text : String) : String :=
  String.ofList (lowerChars [] text.toList)

/-- Upper-case form of a text. -/
def upper (text : String) : String :=
  String.ofList (text.toList.flatMap upperChar)

/-- Case folding of a text. -/
def fold (text : String) : String :=
  String.ofList (text.toList.flatMap foldChar)

end Scim.Text
