import Scim.Filter.Basic
import Scim.Json.Printer

/-!
# The canonical text of a filter

Keywords are written in lower case and literals as JSON. Parentheses stand where the tree has them,
and besides around a disjunction under a conjunction and around either connective under a negation,
so the text reads back with the same meaning.
-/

namespace Scim

namespace PathOf

/-- The URN and attribute of a path; a URN by itself if there is no attribute. -/
def head {φ : Type} (path : PathOf φ) : String :=
  match path.attr with
  | none => path.uri.getD ""
  | some attr =>
    match path.uri with
    | none | some "" => attr
    | some uri => uri ++ ":" ++ attr

/-- The sub-attribute of a path behind a point; nothing if it has no attribute. -/
def tail {φ : Type} (path : PathOf φ) : String :=
  match path.attr, path.sub with
  | none, _ | _, none | _, some "" => ""
  | some _, some sub => "." ++ sub

end PathOf

namespace Filter

/-- A text, in parentheses if the condition holds. -/
def parenthesized (condition : Bool) (text : String) : String :=
  if condition then "(" ++ text ++ ")" else text

mutual

/-- The canonical text of a filter. -/
def text : Filter → String
  | .compare path op value => pathText path ++ " " ++ op.keyword ++ " " ++ value.compact
  | .present path => pathText path ++ " pr"
  | .and left right =>
    parenthesized left.isOr (text left) ++ " and " ++ parenthesized right.isOr (text right)
  | .or left right => text left ++ " or " ++ text right
  | .not expr => "not " ++ parenthesized (expr.isAnd || expr.isOr) (text expr)
  | .group expr => "(" ++ text expr ++ ")"
  | .valuePath path expr => pathText path ++ "[" ++ text expr ++ "]"

/-- The text of a path. -/
def pathText : PathOf Filter → String
  | ⟨uri, attr, restriction, sub⟩ =>
    let path : PathOf Unit := ⟨uri, attr, none, sub⟩
    path.head ++ (if attr.isNone then "" else restrictionText restriction) ++ path.tail

/-- The text of a restriction, in brackets. -/
def restrictionText : Option Filter → String
  | none => ""
  | some expr => "[" ++ text expr ++ "]"

end

end Filter

/-- The text of a path. -/
def PathOf.text (path : AttributePath) : String := Filter.pathText path

end Scim
