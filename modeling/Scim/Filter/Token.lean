import Scim.Text.CharClass

/-!
# Tokens of a filter

The text of a filter is cut into tokens with blanks between them. A token carries the position of
its first character, and the list ends with a token for the end of the text.
-/

namespace Scim

/-- The kinds of token. -/
inductive TokenKind where
  | lparen | rparen | lbracket | rbracket
  | string | number
  /-- A point and the name of a sub-attribute. -/
  | subattr
  /-- A keyword, or a path without brackets. -/
  | word
  /-- The end of the text. -/
  | eof
  deriving DecidableEq

/-- The name of a kind of token. -/
def TokenKind.label : TokenKind → String
  | .lparen => "lparen"
  | .rparen => "rparen"
  | .lbracket => "lbracket"
  | .rbracket => "rbracket"
  | .string => "string"
  | .number => "number"
  | .subattr => "subattr"
  | .word => "word"
  | .eof => "eof"

/-- A token: its kind, its text, and the position of its first character. -/
structure Token where
  kind : TokenKind
  text : String
  position : Nat
  deriving DecidableEq

namespace Token

/-- Characters that start a name. -/
def isNameStart (c : Char) : Bool := Text.isLatinLetter c || c == '_' || c == '$'

/-- Characters of a name. -/
def isNameChar (c : Char) : Bool := Text.isWord c || c == '$' || c == '-'

/-- Characters of a word: those of a name, and the separators of a path. -/
def isWordChar (c : Char) : Bool := isNameChar c || c == '.' || c == ':'

/-- A string behind its opening quote, up to and with its closing quote: a backslash goes together
with the character after it, which is no line feed. -/
def stringTail? : List Char → Option (List Char)
  | [] => none
  | ['\\'] => none
  | '\\' :: c :: rest =>
    if c = '\n' then none else (stringTail? rest).map fun tail => '\\' :: c :: tail
  | c :: rest => if c = '"' then some ['"'] else (stringTail? rest).map (c :: ·)

/-- The digits at the start of a text. -/
def digits (text : List Char) : List Char := text.takeWhile Text.isDigit

/-- A point with digits after it, or nothing. -/
def fraction : List Char → List Char
  | '.' :: rest =>
    match digits rest with
    | [] => []
    | ds => '.' :: ds
  | _ => []

/-- The exponent of a number, or nothing. -/
def exponent : List Char → List Char
  | e :: rest =>
    if e = 'e' ∨ e = 'E' then
      match rest with
      | [] => []
      | s :: more =>
        if s = '+' ∨ s = '-' then
          match digits more with
          | [] => []
          | ds => e :: s :: ds
        else
          match digits rest with
          | [] => []
          | ds => e :: ds
    else []
  | [] => []

/-- An unsigned number at the start of a text, or nothing. -/
def magnitude (text : List Char) : List Char :=
  match digits text with
  | [] => []
  | whole =>
    let behind := text.drop whole.length
    let part := fraction behind
    whole ++ part ++ exponent (behind.drop part.length)

/-- The token at the start of a text, with its characters. -/
def lexeme? : List Char → Option (TokenKind × List Char)
  | [] => none
  | c :: rest =>
    if c = '(' then some (.lparen, [c])
    else if c = ')' then some (.rparen, [c])
    else if c = '[' then some (.lbracket, [c])
    else if c = ']' then some (.rbracket, [c])
    else if c = '"' then (stringTail? rest).map fun tail => (.string, c :: tail)
    else if c = '-' then
      match magnitude rest with
      | [] => none
      | ds => some (.number, c :: ds)
    else if Text.isDigit c then some (.number, magnitude (c :: rest))
    else if c = '.' then
      match rest with
      | s :: more =>
        if isNameStart s then some (.subattr, c :: s :: more.takeWhile isNameChar) else none
      | [] => none
    else if isNameStart c then some (.word, c :: rest.takeWhile isWordChar)
    else none

/-- Why a text cannot be cut into tokens: where, and what stands there. -/
inductive Refusal where
  | unterminatedString (position : Nat) (fragment : String)
  | unexpectedCharacter (position : Nat) (fragment : String)
  deriving DecidableEq

/-- The refusal of a text in which no token starts. -/
def refusalAt (position : Nat) (text : List Char) : Refusal :=
  if text.head? = some '"' then .unterminatedString position (String.ofList (text.take 20))
  else .unexpectedCharacter position (String.ofList (text.take 1))

/-- The tokens of a text that starts at a position, after the first `skip` of its characters. -/
def scan (position : Nat) : Nat → List Char → Except Refusal (List Token)
  | _, [] => .ok [⟨.eof, "", position⟩]
  | skip + 1, _ :: rest => scan (position + 1) skip rest
  | 0, c :: rest =>
    if Text.isBlank c then scan (position + 1) 0 rest
    else
      match lexeme? (c :: rest) with
      | none => .error (refusalAt position (c :: rest))
      | some (kind, chars) => do
        let tokens ← scan (position + 1) (chars.length - 1) rest
        return ⟨kind, String.ofList chars, position⟩ :: tokens

/-- The tokens of a text. -/
def tokenize (text : String) : Except Refusal (List Token) := scan 0 0 text.toList

end Token

end Scim
