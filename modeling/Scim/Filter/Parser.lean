import Scim.Filter.Basic
import Scim.Filter.Token
import Scim.Json.Reader
import Scim.Schema.Builtin
import Scim.Text.Part

/-!
# Reading filters and paths

The grammar, from the loosest connective to the tightest:

* a filter is a row of conjunctions joined by `or`;
* a conjunction is a row of operands joined by `and`;
* an operand is `not` before an operand, a filter in parentheses, an attribute with a filter in
  brackets, an attribute with `pr`, or an attribute, an operator and a literal.

Rows combine from the left, keywords and operators may be written in any letter case, and a filter
in brackets holds no further brackets. A path is an attribute with an optional filter in brackets
and an optional sub-attribute behind it. A refusal names the token at fault.
-/

namespace Scim

namespace Filter

/-- What is wrong with a filter or a path. -/
inductive Problem where
  | unterminatedString
  | unexpectedCharacter
  | invalidAttributePath
  | emptyFilter
  | emptyPath
  | unexpectedToken
  | expected (what : String)
  | misplacedRestriction
  | nestedRestriction
  | emptyRestriction
  | uriIsNoAttribute
  | unknownOperator (word : String)
  | invalidString
  deriving DecidableEq

/-- The wording of a problem. -/
def Problem.message : Problem → String
  | .unterminatedString => "Unterminated string literal"
  | .unexpectedCharacter => "Unexpected character"
  | .invalidAttributePath => "Invalid attribute path"
  | .emptyFilter => "Empty filter"
  | .emptyPath => "Empty path"
  | .unexpectedToken => "Unexpected token"
  | .expected what => "Expected " ++ what
  | .misplacedRestriction => "Value filter must directly follow an attribute name"
  | .nestedRestriction => "Nested value filters are not allowed"
  | .emptyRestriction => "Empty value filter"
  | .uriIsNoAttribute => "Schema URI is not an attribute"
  | .unknownOperator word => "Unknown operator " ++ Text.quoted word
  | .invalidString => "Invalid string literal"

/-- Why a text is not a filter: a problem with its place and the text found there, brackets or
negations nested too deeply, or an integer of too many digits. -/
inductive Refusal where
  | malformed (problem : Problem) (position : Nat) (fragment : String)
  | tooDeep
  | integerTooLong
  deriving DecidableEq

/-- The refusal of a text that cannot be cut into tokens. -/
def Refusal.ofToken : Token.Refusal → Refusal
  | .unterminatedString position fragment => .malformed .unterminatedString position fragment
  | .unexpectedCharacter position fragment => .malformed .unexpectedCharacter position fragment

/-- A problem at a token. The end of the text is named as such. -/
def Refusal.at (problem : Problem) (token : Token) : Refusal :=
  .malformed problem token.position (if token.text = "" then "<end of input>" else token.text)

end Filter

namespace PathOf

/-- Whether a text is the name of an attribute; a line feed at its end does not matter. -/
def isName (text : List Char) : Bool :=
  let text := if text.getLast? = some '\n' then text.dropLast else text
  match text with
  | [] => false
  | c :: rest => Token.isNameStart c && rest.all Token.isNameChar

/-- Splits a path without brackets: the URN ends at the last colon, and the sub-attribute follows a
point. A URN of the registry is a path by itself. -/
def split? {φ : Type} (text : String) : Option (PathOf φ) :=
  let chars := text.toList
  if chars.contains ':' && (Schema.find? text).isSome then some ⟨some text, none, none, none⟩
  else
    let (uri, rest) := match Text.splitLast? ':' chars with
      | some (uri, rest) => (some (String.ofList uri), rest)
      | none => (none, chars)
    match Text.splitAt '.' rest with
    | [attr] => if isName attr then some ⟨uri, some (String.ofList attr), none, none⟩ else none
    | [attr, sub] =>
      if isName attr && isName sub then
        some ⟨uri, some (String.ofList attr), none, some (String.ofList sub)⟩
      else none
    | _ => none

end PathOf

namespace Filter

/-- The deepest nesting: a negation counts one level, parentheses and brackets count two. -/
def maxNesting : Nat := 1000

/-- The first token; the end of the text if there is none. -/
def current : List Token → Token
  | [] => ⟨.eof, "", 0⟩
  | token :: _ => token

/-- Whether a token is a keyword in any letter case. -/
def isKeyword (word : String) (token : Token) : Bool :=
  token.kind = .word && Text.lower token.text = word

/-- Takes a token of a kind. -/
def expect (kind : TokenKind) (what : String) (tokens : List Token) :
    Except Refusal (Token × List Token) :=
  match tokens with
  | token :: rest =>
    if token.kind = kind then .ok (token, rest) else .error (.at (.expected what) token)
  | [] => .error (.at (.expected what) (current []))

/-- Takes a path without brackets. -/
def attributePath (tokens : List Token) : Except Refusal (AttributePath × List Token) := do
  let (token, rest) ← expect .word "attribute path" tokens
  match PathOf.split? token.text with
  | some path => return (path, rest)
  | none => .error (.malformed .invalidAttributePath token.position token.text)

/-- The value of a literal word. -/
def wordValue? (word : String) : Option Json :=
  match Text.lower word with
  | "true" => some (.bool true)
  | "false" => some (.bool false)
  | "null" => some .null
  | _ => none

/-- The value of a number: a double if it has a fraction or an exponent, else an integer. -/
def numberValue? (numeral : String) : Option Json :=
  if numeral.toList.any (fun c => c = '.' ∨ c = 'e' ∨ c = 'E') then
    (Number.readDouble? numeral).map .double
  else (Number.readInt? numeral).map .int

/-- Takes a literal. -/
def literal (tokens : List Token) : Except Refusal (Json × List Token) :=
  match tokens with
  | [] => .error (.at (.expected "comparison value") (current []))
  | token :: rest =>
    match token.kind with
    | .string =>
      match Json.read token.text with
      | .ok value => .ok (value, rest)
      | .error _ => .error (.at .invalidString token)
    | .number =>
      match numberValue? token.text with
      | some value => .ok (value, rest)
      | none => .error .integerTooLong
    | .word =>
      match wordValue? token.text with
      | some value => .ok (value, rest)
      | none => .error (.at (.expected "comparison value") token)
    | _ => .error (.at (.expected "comparison value") token)

/-- Takes an operator, and a literal if the operator needs one, after a path. -/
def condition (path : AttributePath) (tokens : List Token) :
    Except Refusal (Filter × List Token) :=
  let token := current tokens
  if token.kind ≠ .word then .error (.at (.expected "operator") token)
  else if Text.lower token.text = "pr" then .ok (.present path, tokens.tail)
  else
    match CompareOp.ofKeyword? (Text.lower token.text) with
    | none => .error (.at (.unknownOperator token.text) token)
    | some op => do
      let (value, rest) ← literal tokens.tail
      return (.compare path op value, rest)

/-- Takes a filter in brackets, given how to take a filter. -/
def restriction (nested : List Token → Except Refusal (Filter × List Token))
    (tokens : List Token) : Except Refusal (Filter × List Token) := do
  let (_, rest) ← expect .lbracket "'['" tokens
  if (current rest).kind = .rbracket then .error (.at .emptyRestriction (current rest))
  else
    let (expr, rest) ← nested rest
    let (_, rest) ← expect .rbracket "']'" rest
    return (expr, rest)

/-- Takes an operand without a negation, given how to take a filter inside or outside brackets.
`bracketed` tells whether the operand itself stands in brackets. -/
def atom (nested : Bool → List Token → Except Refusal (Filter × List Token)) (bracketed : Bool)
    (tokens : List Token) : Except Refusal (Filter × List Token) :=
  let token := current tokens
  match token.kind with
  | .lparen => do
    let (expr, rest) ← nested bracketed tokens.tail
    let (_, rest) ← expect .rparen "')'" rest
    return (.group expr, rest)
  | .word => do
    let (path, rest) ← attributePath tokens
    if (current rest).kind = .lbracket then
      if bracketed then .error (.at .nestedRestriction (current rest))
      else if path.sub.isSome || path.attr.isNone then
        .error (.at .misplacedRestriction (current rest))
      else
        let (expr, rest) ← restriction (nested true) rest
        return (.valuePath path expr, rest)
    else if path.attr.isNone then .error (.at .uriIsNoAttribute token)
    else condition path rest
  | _ => .error (.at (.expected "attribute path or '('") token)

/-- Takes further operands while the keyword stands before them. Each round takes a keyword, so the
number of tokens bounds the number of rounds. -/
def chain (keyword : String) (combine : Filter → Filter → Filter)
    (operand : List Token → Except Refusal (Filter × List Token)) :
    Nat → Filter → List Token → Except Refusal (Filter × List Token)
  | 0, left, tokens => .ok (left, tokens)
  | rounds + 1, left, tokens =>
    if isKeyword keyword (current tokens) then do
      let (right, rest) ← operand tokens.tail
      chain keyword combine operand rounds (combine left right) rest
    else .ok (left, tokens)

/-- Takes a row of operands joined by a keyword. -/
def row (keyword : String) (combine : Filter → Filter → Filter)
    (operand : List Token → Except Refusal (Filter × List Token)) (tokens : List Token) :
    Except Refusal (Filter × List Token) := do
  let (first, rest) ← operand tokens
  if isKeyword keyword (current rest) then chain keyword combine operand rest.length first rest
  else return (first, rest)

mutual

/-- Takes a filter nested at most so many levels deep. -/
def expression : Nat → Bool → List Token → Except Refusal (Filter × List Token)
  | 0, _, _ => .error .tooDeep
  | depth + 1, bracketed, tokens =>
    row "or" .or (row "and" .and (negation depth bracketed)) tokens

/-- Takes an operand nested at most so many levels deep. -/
def negation : Nat → Bool → List Token → Except Refusal (Filter × List Token)
  | 0, _, _ => .error .tooDeep
  | depth + 1, bracketed, tokens =>
    if isKeyword "not" (current tokens) then do
      let (expr, rest) ← negation depth bracketed tokens.tail
      return (.not expr, rest)
    else atom (expression depth) bracketed tokens

end

/-- The filter that some tokens form. -/
def ofTokens (tokens : List Token) : Except Refusal Filter :=
  if (current tokens).kind = .eof then .error (.malformed .emptyFilter 0 "")
  else do
    let (expr, rest) ← expression maxNesting false tokens
    if (current rest).kind = .eof then return expr
    else .error (.at .unexpectedToken (current rest))

/-- Reads a filter. -/
def read (text : String) : Except Refusal Filter :=
  match Token.tokenize text with
  | .ok tokens => ofTokens tokens
  | .error refusal => .error (.ofToken refusal)

/-- A refusal as an error of the protocol. -/
def Refusal.toFailure : Refusal → Failure
  | .malformed problem position fragment =>
    .scim (.invalidFilter problem.message (some position) fragment)
  | .tooDeep => .scim (.invalidFilter "Filter is nested too deeply" none "")
  | .integerTooLong => .fault .badArgument

/-- Reads a filter or refuses it as invalid. -/
def parse (text : String) : Except Failure Filter :=
  (read text).mapError Refusal.toFailure

end Filter

namespace PathOf

/-- The path that some tokens form. -/
def ofTokens (tokens : List Token) : Except Filter.Refusal AttributePath :=
  if (Filter.current tokens).kind = .eof then .error (.malformed .emptyPath 0 "")
  else do
    let (path, rest) ← Filter.attributePath tokens
    let (path, rest) ←
      if (Filter.current rest).kind = .lbracket then
        if path.sub.isSome || path.attr.isNone then
          .error (.at .misplacedRestriction (Filter.current rest))
        else do
          let (expr, rest) ←
            Filter.restriction (Filter.expression Filter.maxNesting true) rest
          if (Filter.current rest).kind = .subattr then
            let name := String.ofList ((Filter.current rest).text.toList.drop 1)
            pure (⟨path.uri, path.attr, some expr, some name⟩, rest.tail)
          else pure (⟨path.uri, path.attr, some expr, none⟩, rest)
      else pure (path, rest)
    if (Filter.current rest).kind = .eof then return path
    else .error (.at .unexpectedToken (Filter.current rest))

/-- Reads a path as it stands. -/
def read (text : String) : Except Filter.Refusal AttributePath :=
  match Token.tokenize text with
  | .ok tokens => ofTokens tokens
  | .error refusal => .error (.ofToken refusal)

/-- Reads a path of a request, with blanks around it, or refuses it as invalid. The refusal quotes
the whole text and says where the trimmed one is at fault. -/
def parse (text : String) : Except Failure AttributePath :=
  if Text.trim text = "" then refuse (.invalidPath "Empty attribute path" "")
  else
    match read (Text.trim text) with
    | .ok path => .ok path
    | .error (.malformed problem position fragment) =>
      refuse (.invalidPath
        (ScimError.invalidFilter problem.message (some position) fragment).detail text)
    | .error .tooDeep => failWith .tooDeep
    | .error .integerTooLong => failWith .badArgument

end PathOf

end Scim
