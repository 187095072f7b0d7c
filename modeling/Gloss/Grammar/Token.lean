import Gloss.Text.Basic

/-!
# Tokens

The tokens of the fixture language.  A keyword ends where no word character of
any script follows, while names consist of ASCII letters, digits and
underscores only.
-/

namespace Gloss

inductive Keyword where
  | package
  | «class»
  | fun
  | val
  | var
  | if
  | else
  | true
  | false
  | null
  deriving DecidableEq, Repr

/-- The smallest pieces that a grammar speaks of. -/
inductive Token where
  | symbol (text : String)
  | keyword (keyword : Keyword)
  | binding
  | truth
  | name
  | digits
  /-- A text between double quotes, on one line. -/
  | quoted
  /-- White space and comments, or nothing at all. -/
  | blanks
  deriving DecidableEq, Repr

namespace Keyword

def all : List Keyword :=
  [.package, .class, .fun, .val, .var, .if, .else, .true, .false, .null]

def text : Keyword → String
  | .package => "package"
  | .class => "class"
  | .fun => "fun"
  | .val => "val"
  | .var => "var"
  | .if => "if"
  | .else => "else"
  | .true => "true"
  | .false => "false"
  | .null => "null"

end Keyword

namespace Token

def endsWord : List Char → Bool
  | [] => true
  | next :: _ => !Text.isWord next

def scanSymbol (symbol : List Char) (text : List Char) : Option Nat :=
  if symbol.isPrefixOf text then some symbol.length else none

/-- The length of a word, if the text begins with it and the word ends there. -/
def scanWord (word : List Char) (text : List Char) : Option Nat :=
  if word.isPrefixOf text && endsWord (text.drop word.length) then some word.length
  else none

def scanKeywords (keywords : List Keyword) (text : List Char) : Option Nat :=
  keywords.findSome? fun keyword => scanWord keyword.text.toList text

def scanName (text : List Char) : Option Nat :=
  match text with
  | [] => none
  | first :: rest =>
      if (scanKeywords Keyword.all text).isNone && Text.isNameStart first then
        some (1 + (rest.takeWhile Text.isNamePart).length)
      else none

def scanDigits (text : List Char) : Option Nat :=
  match (text.takeWhile Char.isDigit).length with
  | 0 => none
  | count + 1 => some (count + 1)

/-- The length of the rest of a quoted text, its closing quote included.  A
backslash takes the next character with it, whatever it is but a line end. -/
def scanQuotedRest : List Char → Option Nat
  | [] => none
  | '\\' :: escaped :: rest =>
      if escaped = '\n' then none else (scanQuotedRest rest).map (· + 2)
  | character :: rest =>
      if character = '\x22' then some 1
      else if character = '\n' || character = '\\' then none
      else (scanQuotedRest rest).map (· + 1)

def scanQuoted : List Char → Option Nat
  | '\x22' :: rest => (scanQuotedRest rest).map (· + 1)
  | _ => none

/-- The length of the white space and the comments at the start of a text.
Two slashes open a comment, which lasts to the end of the line. -/
def blankLength : (inComment : Bool) → List Char → Nat
  | _, [] => 0
  | true, character :: rest => 1 + blankLength (character != '\n') rest
  | false, '/' :: '/' :: rest => 2 + blankLength true rest
  | false, character :: rest =>
      if Text.isBlank character then 1 + blankLength false rest else 0

/-- The number of characters that a token takes at the start of a text. -/
def scan : Token → List Char → Option Nat
  | .symbol characters, text => scanSymbol characters.toList text
  | .keyword word, text => scanKeywords [word] text
  | .binding, text => scanKeywords [.val, .var] text
  | .truth, text => scanKeywords [.true, .false] text
  | .name, text => scanName text
  | .digits, text => scanDigits text
  | .quoted, text => scanQuoted text
  | .blanks, text => some (blankLength false text)

end Token

end Gloss
