/-!
# Parts of a text

Whether a text occurs in another one, anywhere, at its start or at its end. The empty text occurs
everywhere.
-/

namespace Scim.Text

/-- Whether one text occurs somewhere in another. -/
def occursIn (part : List Char) : List Char → Bool
  | [] => part.isEmpty
  | c :: rest => part.isPrefixOf (c :: rest) || occursIn part rest

/-- Whether a text starts with another. -/
def startsWith (part whole : String) : Bool := part.toList.isPrefixOf whole.toList

/-- Whether a text ends with another. -/
def endsWith (part whole : String) : Bool := part.toList.isSuffixOf whole.toList

/-- Splits a text at each occurrence of a character; the empty text has one empty part. -/
def splitAt (separator : Char) : List Char → List (List Char)
  | [] => [[]]
  | c :: rest =>
    if c = separator then [] :: splitAt separator rest
    else
      match splitAt separator rest with
      | [] => [[c]]
      | first :: others => (c :: first) :: others

@[simp] theorem splitAt_nil (separator : Char) : splitAt separator [] = [[]] := by rw [splitAt]

/-- The text before and after the last occurrence of a character. -/
def splitLast? (separator : Char) : List Char → Option (List Char × List Char)
  | [] => none
  | c :: rest =>
    match splitLast? separator rest with
    | some (before, after) => some (c :: before, after)
    | none => if c = separator then some ([], rest) else none

@[simp] theorem splitLast?_nil (separator : Char) : splitLast? separator [] = none := by
  rw [splitLast?]

end Scim.Text
