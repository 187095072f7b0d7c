import Gloss.Document
import Gloss.Text.Basic

/-!
# Documents as JSON text

JSON in ASCII: every other character is written as an escape, those beyond
the basic plane as a surrogate pair.
-/

namespace Gloss.Document.Json

/-- How a document is spread over lines. -/
inductive Layout where
  | line
  /-- One item a line, each level indented by the given number of spaces. -/
  | indented (width : Nat)
  deriving DecidableEq, Repr

def escapeUnit (unit : Nat) : List Char :=
  '\\' :: 'u' :: Text.hexadecimal 4 unit

def escape (character : Char) : List Char :=
  if character = '\x22' then ['\\', '\x22']
  else if character = '\\' then ['\\', '\\']
  else if character = '\n' then ['\\', 'n']
  else if character = '\r' then ['\\', 'r']
  else if character = '\t' then ['\\', 't']
  else if character = '\x08' then ['\\', 'b']
  else if character = '\x0c' then ['\\', 'f']
  else if 0x20 ≤ character.toNat && character.toNat ≤ 0x7e then [character]
  else if character.toNat < 0x10000 then escapeUnit character.toNat
  else
    let beyond := character.toNat - 0x10000
    escapeUnit (0xd800 + beyond / 0x400) ++ escapeUnit (0xdc00 + beyond % 0x400)

def string (text : String) : String :=
  String.ofList ('\x22' :: text.toList.flatMap escape ++ ['\x22'])

def decimalText (digits : Int) (places : Nat) : String :=
  let sign := if digits < 0 then "-" else ""
  let scale := Nat.pow 10 places
  let fraction := Text.zeroPadded places (digits.natAbs % scale)
  sign ++ toString (digits.natAbs / scale) ++ "." ++ fraction

def lineStart (layout : Layout) (level : Nat) : String :=
  match layout with
  | .line => ""
  | .indented width => "\n" ++ String.ofList (List.replicate (width * level) ' ')

def separator (layout : Layout) (level : Nat) : String :=
  match layout with
  | .line => ", "
  | .indented _ => "," ++ lineStart layout level

/-- Items between brackets; without items the brackets stand together. -/
def enclosed (layout : Layout) (level : Nat) (opening closing : String)
    (items : List String) : String :=
  if items.isEmpty then opening ++ closing
  else
    opening ++ lineStart layout (level + 1) ++
      Text.joined (separator layout (level + 1)) items ++
      lineStart layout level ++ closing

mutual

def renderAt (layout : Layout) (level : Nat) : Document → String
  | .null => "null"
  | .boolean true => "true"
  | .boolean false => "false"
  | .integer value => toString value
  | .decimal digits places => decimalText digits places
  | .text value => string value
  | .list items => enclosed layout level "[" "]" (renderItems layout (level + 1) items)
  | .object members =>
      enclosed layout level "\x7b" "\x7d" (renderMembers layout (level + 1) members)

def renderItems (layout : Layout) (level : Nat) : List Document → List String
  | [] => []
  | item :: rest => renderAt layout level item :: renderItems layout level rest

def renderMembers (layout : Layout) (level : Nat) :
    List (String × Document) → List String
  | [] => []
  | (key, value) :: rest =>
      (string key ++ ": " ++ renderAt layout level value) ::
        renderMembers layout level rest

end

def render (layout : Layout) (document : Document) : String :=
  renderAt layout 0 document

end Gloss.Document.Json
