import Gloss.Document.Yaml
import Gloss.Table

/-!
# Sheets

A sheet is a small YAML file: a scalar, or lists and mappings that are nested by
indentation, with brackets at most within a line.  `read?` gives the document
that a sheet holds, and nothing when the sheet is not well formed.
-/

namespace Gloss.Sheet

/-- A line that is neither blank nor a comment, without the spaces before it. -/
structure Line where
  indent : Nat
  body : List Char
  deriving DecidableEq, Repr

def isPrintable (character : Char) : Bool :=
  Text.inRanges
    [(0x9, 0xa), (0xd, 0xd), (0x20, 0x7e), (0x85, 0x85), (0xa0, 0xd7ff), (0xe000, 0xfffd),
      (0x10000, 0x10ffff)]
    character.toNat

def trimStart (text : List Char) : List Char := text.dropWhile (· == ' ')

def trimEnd (text : List Char) : List Char := (trimStart text.reverse).reverse

/-- Whether nothing but spaces and a comment is left of a line. -/
def isOver (rest : List Char) : Bool :=
  match trimStart rest with
  | [] => true
  | character :: _ => character == '#'

def beforeComment : (previous : Char) → List Char → List Char
  | _, [] => []
  | previous, character :: rest =>
      if character == '#' && previous == ' ' then []
      else character :: beforeComment character rest

/-- The value of digits in a base; characters that are no digits do not count. -/
def digitsValue (base : Nat) (digits : List Char) : Nat :=
  digits.foldl (fun value character =>
      if character.isDigit then value * base + (character.toNat - '0'.toNat)
      else if character.isAlpha then value * base + (character.toLower.toNat - 'a'.toNat + 10)
      else value) 0

/-- The value of a number without sign, written in any of the bases. -/
def magnitude : List Char → Nat
  | '0' :: 'b' :: digits => digitsValue 2 digits
  | '0' :: 'x' :: digits => digitsValue 16 digits
  | '0' :: digits => digitsValue 8 digits
  | digits =>
      let places := Text.splitOn ':' (String.ofList digits)
      places.foldl (fun value place => value * 60 + digitsValue 10 place.toList) 0

def splitSign : List Char → Bool × List Char
  | '-' :: rest => (true, rest)
  | '+' :: rest => (false, rest)
  | text => (false, text)

def integer (text : List Char) : Document :=
  let (negative, digits) := splitSign text
  let value := magnitude digits
  Document.integer (if negative then -(value : Int) else value)

/-- A number with a point and perhaps an exponent.  Infinities and numbers in
base sixty are kept as texts. -/
def decimal (text : List Char) : Document :=
  let (negative, unsigned) := splitSign text
  let whole := unsigned.takeWhile fun character => character.isDigit || character == '_'
  match unsigned.drop whole.length with
  | '.' :: rest =>
      let fraction := rest.takeWhile fun character => character.isDigit || character == '_'
      let (falling, exponentDigits) := splitSign ((rest.drop fraction.length).drop 1)
      let exponent := digitsValue 10 exponentDigits
      let digits := digitsValue 10 (whole ++ fraction)
      let places := fraction.countP Char.isDigit
      let (digits, places) :=
        if falling then (digits, places + exponent)
        else if exponent ≤ places then (digits, places - exponent)
        else (digits * Nat.pow 10 (exponent - places), 0)
      if whole.isEmpty && fraction.isEmpty || !(rest.all fun c => c != 'i' && c != 'n') then
        .text (String.ofList text)
      else .decimal (if negative then -(digits : Int) else digits) places
  | _ => .text (String.ofList text)

/-- What a scalar without quotes stands for.  Dates are kept as texts. -/
def plainValue? (text : List Char) : Option Document :=
  let written := String.ofList text
  match Document.Scalar.reading written with
  | .null => some .null
  | .truth => some (.boolean (Document.Scalar.yesShape.accepts written))
  | .integer => some (integer text)
  | .float => some (decimal text)
  | .timestamp | .text => some (.text written)
  | .merge | .default => none

/-- The character of an escape with the given number of digits in base sixteen,
and what follows. -/
def hexEscape? (count : Nat) (text : List Char) : Option (Char × List Char) :=
  let digits := text.take count
  let code := digitsValue 16 digits
  let isDigit (character : Char) : Bool := "0123456789abcdefABCDEF".toList.contains character
  if digits.length = count && digits.all isDigit && code.isValidChar then
    some (Char.ofNat code, text.drop count)
  else none

/-- The character of an escape, after its backslash, and what follows. -/
def unescape? : List Char → Option (Char × List Char)
  | [] => none
  | 'x' :: rest => hexEscape? 2 rest
  | 'u' :: rest => hexEscape? 4 rest
  | 'U' :: rest => hexEscape? 8 rest
  | letter :: rest =>
      if letter = ' ' || letter = '/' || letter = '\t' then some (letter, rest)
      else
        (Document.Yaml.shortEscapes.find? fun entry => entry.2 = letter).map fun entry =>
          (Char.ofNat entry.1, rest)

/-- A text up to its closing double quote, and what follows. -/
def quoted? : (limit : Nat) → List Char → Option (List Char × List Char)
  | 0, _ | _, [] => none
  | _ + 1, '\x22' :: rest => some ([], rest)
  | limit + 1, '\\' :: rest =>
      match unescape? rest with
      | none => none
      | some (character, after) =>
          (quoted? limit after).map fun found => (character :: found.1, found.2)
  | limit + 1, character :: rest =>
      (quoted? limit rest).map fun found => (character :: found.1, found.2)

/-- A text up to its closing apostrophe, and what follows; two apostrophes stand
for one. -/
def apostrophized? : List Char → Option (List Char × List Char)
  | [] => none
  | '\x27' :: '\x27' :: rest =>
      (apostrophized? rest).map fun found => ('\x27' :: found.1, found.2)
  | '\x27' :: rest => some ([], rest)
  | character :: rest =>
      (apostrophized? rest).map fun found => (character :: found.1, found.2)

/-- A text between quotes of either kind, and what follows. -/
def quotation? : List Char → Option (List Char × List Char)
  | '\x22' :: rest => quoted? (rest.length + 1) rest
  | '\x27' :: rest => apostrophized? rest
  | _ => none

def isQuotation : List Char → Bool
  | character :: _ => character == '\x22' || character == '\x27'
  | [] => false

def isKeyEnd : List Char → Bool
  | ':' :: rest => Document.Yaml.isSpaced rest
  | _ => false

/-- A text up to the colon that ends a key, and what follows the colon. -/
def splitKey? : List Char → Option (List Char × List Char)
  | [] => none
  | character :: rest =>
      if isKeyEnd (character :: rest) then some ([], rest)
      else (splitKey? rest).map fun found => (character :: found.1, found.2)

/-- Whether a scalar without quotes may begin like this. -/
def canBeginPlain : List Char → Bool
  | [] => false
  | character :: rest =>
      !Document.Yaml.isIndicator character && character != '\t' &&
        !((character == '-' || character == '?' || character == ':') && Document.Yaml.isSpaced rest)

/-- A scalar without quotes that takes up a whole line, comments aside. -/
def plain? (line : List Char) : Option (List Char) :=
  let text := trimEnd (beforeComment ' ' line)
  if canBeginPlain text && (splitKey? text).isNone && !text.contains '\t' then some text
  else none

/-- A scalar without quotes between brackets, and what follows. -/
def flowPlain (text : List Char) : List Char × List Char :=
  let isEnd (character : Char) : Bool := ",[]\x7b\x7d:".toList.contains character
  let written := text.takeWhile fun character => !isEnd character
  (trimEnd written, text.drop written.length)

mutual

def flow? : (limit : Nat) → List Char → Option (Document × List Char)
  | 0, _ => none
  | limit + 1, '[' :: rest => flowItems? limit [] (trimStart rest)
  | limit + 1, '\x7b' :: rest => flowMembers? limit .empty (trimStart rest)
  | _ + 1, text =>
      if isQuotation text then
        (quotation? text).map fun found => (.text (String.ofList found.1), trimStart found.2)
      else
        let (written, rest) := flowPlain text
        if written.isEmpty || !canBeginPlain written then none
        else (plainValue? written).map fun value => (value, rest)

def flowItems? : (limit : Nat) → (items : List Document) → List Char →
    Option (Document × List Char)
  | 0, _, _ => none
  | limit + 1, items, text =>
      match text with
      | ']' :: rest => some (.list items, rest)
      | _ =>
          match flow? limit text with
          | some (item, ',' :: rest) => flowItems? limit (items ++ [item]) (trimStart rest)
          | some (item, ']' :: rest) => some (.list (items ++ [item]), rest)
          | _ => none

/-- The members of a mapping up to its closing brace, and what follows. -/
def flowMembers? : (limit : Nat) → (members : Table String Document) → List Char →
    Option (Document × List Char)
  | 0, _, _ => none
  | limit + 1, members, text =>
      match text with
      | '\x7d' :: rest => some (.object members.entries, rest)
      | _ =>
          let (key, after) := (quotation? text).getD (flowPlain text)
          let name := String.ofList key
          match trimStart after with
          | ':' :: rest =>
              match flow? limit (trimStart rest) with
              | some (value, ',' :: rest) =>
                  flowMembers? limit (members.insert name value) (trimStart rest)
              | some (value, '\x7d' :: rest) =>
                  some (.object (members.insert name value).entries, rest)
              | _ => none
          | ',' :: rest => flowMembers? limit (members.insert name .null) (trimStart rest)
          | '\x7d' :: rest => some (.object (members.insert name .null).entries, rest)
          | _ => none

end

def closedValue? (line : List Char) : Option Document :=
  let found :=
    if isQuotation line then
      (quotation? line).map fun found => (Document.text (String.ofList found.1), found.2)
    else flow? (2 * line.length + 2) line
  found.bind fun (value, rest) => if isOver rest then some value else none

/-- A scalar without quotes and its further lines, with spaces between them. -/
def joinedPlain? (first : List Char) (more : List Line) : Option Document :=
  let texts := (first :: more.map Line.body).map plain?
  if texts.all Option.isSome then
    plainValue? ([' '].intercalate (texts.filterMap id))
  else none

def value? (line : List Char) (more : List Line) : Option Document :=
  match line with
  | '[' :: _ | '\x7b' :: _ | '\x22' :: _ | '\x27' :: _ =>
      if more.isEmpty then closedValue? line else none
  | _ => joinedPlain? line more

def item? : List Char → Option (List Char)
  | '-' :: rest => if Document.Yaml.isSpaced rest then some rest else none
  | _ => none

def member? (line : List Char) : Option (String × List Char) :=
  if isQuotation line then
    match quotation? line with
    | some (key, rest) =>
        let after := trimStart rest
        if isKeyEnd after then some (String.ofList key, after.drop 1) else none
    | none => none
  else if canBeginPlain line then
    (splitKey? (beforeComment ' ' line)).bind fun found =>
      if found.1.contains '\t' then none
      else (splitKey? line).map fun exact => (String.ofList (trimEnd found.1), exact.2)
  else none

/-- The lines that belong to an entry: those further in and, for a member
without a value of its own, the items on the same level. -/
def belonging (indent : Nat) (takesItems : Bool) (lines : List Line) : List Line :=
  lines.takeWhile fun line =>
    indent < line.indent || (takesItems && line.indent = indent && (item? line.body).isSome)

/-- A text as a line, with the spaces before it counted from an indentation. -/
def restLine (indent : Nat) (rest : List Char) : List Line :=
  if isOver rest then []
  else
    let body := trimStart rest
    [{ indent := indent + (rest.length - body.length), body }]

mutual

def block? : (limit : Nat) → List Line → Option Document
  | 0, _ => none
  | _ + 1, [] => some .null
  | limit + 1, first :: rest =>
      if (item? first.body).isSome then items? limit first.indent [] (first :: rest)
      else if (member? first.body).isSome then
        members? limit first.indent .empty (first :: rest)
      else value? first.body rest

def items? : (limit : Nat) → (indent : Nat) → (items : List Document) → List Line →
    Option Document
  | 0, _, _, _ => none
  | _ + 1, _, items, [] => some (.list items)
  | limit + 1, indent, items, line :: rest =>
      match item? line.body with
      | none => none
      | some own =>
          if line.indent ≠ indent then none
          else
            let nested := belonging indent false rest
            match block? limit (restLine (indent + 1) own ++ nested) with
            | none => none
            | some item => items? limit indent (items ++ [item]) (rest.drop nested.length)

def members? : (limit : Nat) → (indent : Nat) → (members : Table String Document) →
    List Line → Option Document
  | 0, _, _, _ => none
  | _ + 1, _, members, [] => some (.object members.entries)
  | limit + 1, indent, members, line :: rest =>
      match member? line.body with
      | none => none
      | some (key, own) =>
          if line.indent ≠ indent then none
          else
            let nested := belonging indent (isOver own) rest
            let value := if isOver own then block? limit nested
              else value? (trimStart own) nested
            match value with
            | none => none
            | some value =>
                members? limit indent (members.insert key value) (rest.drop nested.length)

end

def linesOf (text : String) : List Line :=
  (Text.splitOn '\n' text).filterMap fun line =>
    let characters := line.toList
    let body := trimStart characters
    if isOver body then none
    else some { indent := characters.length - body.length, body }

def isSeparator (word : String) (line : Line) : Bool :=
  line.indent = 0 && word.toList.isPrefixOf line.body && Document.Yaml.isSpaced (line.body.drop 3)

def read? (text : String) : Option Document :=
  let characters := match Text.withLineFeeds text.toList with
    | '\ufeff' :: rest => rest
    | all => all
  let lines := linesOf (String.ofList characters)
  let opened := match lines with
    | first :: rest =>
        if isSeparator "---" first then restLine 3 (first.body.drop 3) ++ rest else lines
    | [] => []
  let content := opened.takeWhile fun line => !isSeparator "..." line
  if !characters.all isPrintable || content.any (isSeparator "---") ||
      (opened.drop content.length).any (isSeparator "---") then none
  else block? (4 * characters.length + 4) content

end Gloss.Sheet
