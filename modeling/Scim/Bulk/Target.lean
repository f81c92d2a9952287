import Scim.Text.CharClass

/-!
# Targets of bulk operations

The path of a bulk operation names an endpoint and possibly a resource at it: `/Users`, `/Users/17`.
Slashes around it and a line break at its end make no difference.
-/

namespace Scim

/-- Where a bulk operation is directed. -/
structure BulkTarget where
  endpoint : String
  id : Option String
  deriving DecidableEq

namespace BulkTarget

/-- What may follow a complete path. -/
def isEnd (rest : List Char) : Bool := rest.isEmpty || rest == ['\n']

/-- The resource that the rest of a path names, if any; no result if the rest is malformed. -/
def readId? (rest : List Char) : Option (Option String) :=
  match rest with
  | '/' :: rest =>
    let id := rest.takeWhile (· ≠ '/')
    match id, rest.dropWhile (· ≠ '/') with
    | [], after => if isEnd after then some none else none
    | id, [] => some (some (String.ofList id))
    | id, _ :: after => if isEnd after then some (some (String.ofList id)) else none
  | rest => if isEnd rest then some none else none

/-- Characters of an endpoint. -/
def isNameChar (c : Char) : Bool := Text.isWord c || c == '-'

/-- The target of a path that starts at the name of the endpoint. -/
def ofName? (path : List Char) : Option BulkTarget :=
  match path with
  | [] => none
  | first :: _ =>
    if Text.isLatinLetter first then
      (readId? (path.dropWhile isNameChar)).map fun id =>
        ⟨String.ofList (path.takeWhile isNameChar), id⟩
    else none

/-- The target of a path. -/
def ofPath? (path : String) : Option BulkTarget :=
  match path.toList with
  | '/' :: rest => ofName? rest
  | rest => ofName? rest

end BulkTarget

end Scim
