import Gloss.Text.WordRanges
import Gloss.Text.HiddenRanges

/-!
# Characters and pieces of text

Offsets and lengths count code points, so a text that is scanned is a list
of characters.  This file gives the character classes and the few cuts that
the rest of the library makes.
-/

namespace Gloss.Text

def inRanges (ranges : List (Nat × Nat)) (codePoint : Nat) : Bool :=
  ranges.any fun range => range.1 ≤ codePoint && codePoint ≤ range.2

/-- Letters, marks, digits and underscores of any script. -/
def isWord (character : Char) : Bool :=
  character.isAlphanum || character == '_' ||
    (128 ≤ character.toNat && inRanges wordRanges character.toNat)

/-- A character that a quoted text must write as an escape. -/
def isHidden (character : Char) : Bool :=
  character.toNat < 0x20 || character.toNat == 0x7f ||
    (128 ≤ character.toNat && inRanges hiddenRanges character.toNat)

/-- White space: the separators of every script and the control characters
that move the print position. -/
def isBlank (character : Char) : Bool :=
  inRanges
    [(0x9, 0xd), (0x20, 0x20), (0x85, 0x85), (0xa0, 0xa0), (0x1680, 0x1680),
      (0x2000, 0x200a), (0x2028, 0x2029), (0x202f, 0x202f), (0x205f, 0x205f),
      (0x3000, 0x3000)]
    character.toNat

def isNameStart (character : Char) : Bool :=
  character.isAlpha || character == '_'

/-- An ASCII letter, an ASCII digit or an underscore. -/
def isNamePart (character : Char) : Bool :=
  character.isAlphanum || character == '_'

/-- Whether the text begins with `start`; every text begins with the empty one. -/
def startsWith (start text : String) : Bool :=
  start.toList.isPrefixOf text.toList

def dropFirst (count : Nat) (text : String) : String :=
  String.ofList (text.toList.drop count)

def slice (start stop : Nat) (text : List Char) : List Char :=
  (text.take stop).drop start

def padLeft (width : Nat) (text : String) : String :=
  String.ofList (List.replicate (width - text.length) ' ') ++ text

def padRight (width : Nat) (text : String) : String :=
  text ++ String.ofList (List.replicate (width - text.length) ' ')

/-- The digits of a number in base sixteen, in lower case, filled up with
zeros on the left to at least `width` digits. -/
def hexadecimal (width codePoint : Nat) : List Char :=
  let digits := Nat.toDigits 16 codePoint
  List.replicate (width - digits.length) '0' ++ digits

/-- The digits of a number in base ten, filled up with zeros on the left to
at least `width` digits. -/
def zeroPadded (width number : Nat) : String :=
  let digits := Nat.toDigits 10 number
  String.ofList (List.replicate (width - digits.length) '0' ++ digits)

/-- The pieces of a text between the places where a character stands. -/
def splitOn (separator : Char) (text : String) : List String :=
  (text.toList.splitOn separator).map String.ofList

def joined (separator : String) (pieces : List String) : String :=
  separator.intercalate pieces

def withLineFeeds : List Char → List Char
  | [] => []
  | '\r' :: '\n' :: rest => '\n' :: withLineFeeds rest
  | '\r' :: rest => '\n' :: withLineFeeds rest
  | character :: rest => character :: withLineFeeds rest

end Gloss.Text
