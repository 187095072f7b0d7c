import Gloss.Document
import Gloss.Document.Scalar
import Gloss.Text.Basic

/-!
# Documents as YAML text

A collection that holds no collection is written between brackets, any other
one a line for each entry.  A text stands plain where it reads back as the
same text, between double quotes where it holds unusual characters, and
between apostrophes otherwise.
-/

namespace Gloss.Document.Yaml

inductive Style where
  | plain
  | apostrophes
  | quotes
  deriving DecidableEq, Repr

/-- Characters that may stand in a text without an escape. -/
def isUsual (character : Char) : Bool :=
  0x20 ≤ character.toNat && character.toNat ≤ 0x7e

/-- Whether a scalar cannot begin with the character, whatever follows it. -/
def isIndicator (character : Char) : Bool :=
  "#,[]\x7b\x7d&*!|>'\"%@`".toList.contains character

def isSpaced : List Char → Bool
  | [] => true
  | next :: _ => next == ' '

/-- Whether a colon before a space, or a number sign after one, breaks the text
off as a scalar.  Between brackets some more characters do. -/
def hasBreak (inFlow : Bool) : (previous : Char) → List Char → Bool
  | _, [] => false
  | previous, character :: rest =>
      (character == ':' && (inFlow || isSpaced rest)) ||
        (character == '#' && previous == ' ') ||
        (inFlow && ",?[]\x7b\x7d".toList.contains character) ||
        hasBreak inFlow character rest

def canStandPlain (inFlow : Bool) (text : List Char) : Bool :=
  match text with
  | [] => false
  | first :: rest =>
      let opening := isIndicator first ||
        ((first == '?' || first == ':') && (inFlow || isSpaced rest)) ||
        (first == '-' && isSpaced rest) ||
        "---".toList.isPrefixOf text || "...".toList.isPrefixOf text
      let spaces := first == ' ' || text.getLast? == some ' '
      !opening && !spaces && !hasBreak inFlow first rest

def style (inFlow : Bool) (text : String) : Style :=
  if !text.toList.all isUsual then .quotes
  else if canStandPlain inFlow text.toList && Scalar.reading text = .text then .plain
  else .apostrophes

def shortEscapes : List (Nat × Char) :=
  [(0x0, '0'), (0x7, 'a'), (0x8, 'b'), (0x9, 't'), (0xa, 'n'), (0xb, 'v'), (0xc, 'f'),
    (0xd, 'r'), (0x1b, 'e'), (0x22, '\x22'), (0x5c, '\\'), (0x85, 'N'), (0xa0, '_'),
    (0x2028, 'L'), (0x2029, 'P')]

def escape (character : Char) : List Char :=
  match shortEscapes.lookup character.toNat with
  | some letter => ['\\', letter]
  | none =>
      if isUsual character then [character]
      else
        let digits (width : Nat) : List Char :=
          (Text.hexadecimal width character.toNat).map Char.toUpper
        if character.toNat < 0x100 then '\\' :: 'x' :: digits 2
        else if character.toNat < 0x10000 then '\\' :: 'u' :: digits 4
        else '\\' :: 'U' :: digits 8

def scalarText (inFlow : Bool) (text : String) : String :=
  match style inFlow text with
  | .plain => text
  | .apostrophes =>
      let doubled := text.toList.flatMap fun character =>
        if character = '\x27' then ['\x27', '\x27'] else [character]
      String.ofList ('\x27' :: doubled ++ ['\x27'])
  | .quotes => String.ofList ('\x22' :: text.toList.flatMap escape ++ ['\x22'])

def scalar? (inFlow : Bool) : Document → Option String
  | .null => some "null"
  | .boolean true => some "true"
  | .boolean false => some "false"
  | .integer value => some (toString value)
  | .decimal digits places =>
      some (s!"{digits}e-{places}")
  | .text value => some (scalarText inFlow value)
  | .list _ | .object _ => none

def every {α : Type} : List (Option α) → Option (List α)
  | [] => some []
  | none :: _ => none
  | some value :: rest => (every rest).map (value :: ·)

/-- The document on one line, if it is a scalar or holds only scalars. -/
def inline? (document : Document) : Option String :=
  match document with
  | .list items =>
      (every (items.map (scalar? true))).map fun texts =>
        "[" ++ Text.joined ", " texts ++ "]"
  | .object members =>
      (every (members.map fun member => scalar? true member.2)).map fun texts =>
        "\x7b" ++
          Text.joined ", "
            ((members.zip texts).map fun entry =>
              scalarText true entry.1.1 ++ ": " ++ entry.2) ++
          "\x7d"
  | scalar => scalar? false scalar

def indent (lines : List String) : List String := lines.map fun line => "  " ++ line

def asItem : List String → List String
  | [] => ["-"]
  | first :: rest => ("- " ++ first) :: indent rest

/-- Lines under a key; those of a list are not indented. -/
def underKey (key : String) (document : Document) (lines : List String) : List String :=
  match inline? document, document with
  | some line, _ => [key ++ ": " ++ line]
  | none, .list _ => (key ++ ":") :: lines
  | none, _ => (key ++ ":") :: indent lines

mutual

def lines : Document → List String
  | .list items =>
      match inline? (.list items) with
      | some line => [line]
      | none => itemLines items
  | .object members =>
      match inline? (.object members) with
      | some line => [line]
      | none => memberLines members
  | scalar => (scalar? false scalar).toList

def itemLines : List Document → List String
  | [] => []
  | item :: rest => asItem (lines item) ++ itemLines rest

def memberLines : List (String × Document) → List String
  | [] => []
  | (key, value) :: rest =>
      underKey (scalarText false key) value (lines value) ++ memberLines rest

end

def render (document : Document) : String :=
  Text.joined "\n" (lines document) ++ "\n"

end Gloss.Document.Yaml
