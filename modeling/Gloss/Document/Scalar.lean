import Gloss.Text.Shape

/-!
# Plain YAML scalars

What a scalar without quotes stands for.  The words for truth values and for
null, numbers in several bases and dates have shapes of their own; every other
scalar is a text.
-/

namespace Gloss.Document.Scalar

open Gloss.Text

/-- What the form of a plain scalar says about its value. -/
inductive Reading where
  | null
  | truth
  | integer
  | float
  | timestamp
  /-- The mark that merges one object into another. -/
  | merge
  | default
  | text
  deriving DecidableEq, Repr

def nullShape : Shape := .words ["", "~", "null", "Null", "NULL"]

def yesShape : Shape :=
  .words ["yes", "Yes", "YES", "true", "True", "TRUE", "on", "On", "ON"]

def noShape : Shape :=
  .words ["no", "No", "NO", "false", "False", "FALSE", "off", "Off", "OFF"]

def sign : Shape := .optional (.among "+-")

def digitOrUnderscore : Shape := .one fun character => character.isDigit || character == '_'

/-- A colon and a number below sixty, once or more often. -/
def sexagesimal : Shape :=
  .some (.row [.literal ":", .optional (.among "012345"), .digit])

def leading : Shape := .both (.among "123456789") (.many digitOrUnderscore)

/-- Whole numbers: binary, octal, decimal, hexadecimal or in base sixty. -/
def integerShape : Shape :=
  .row [sign, .choice
    [.row [.literal "0b", .some (.among "01_")],
      .row [.literal "0", .some (.among "01234567_")],
      .literal "0",
      leading,
      .row [.literal "0x", .some (.among "0123456789abcdefABCDEF_")],
      .row [leading, sexagesimal]]]

def exponent : Shape := .row [.among "eE", .among "+-", .some .digit]

/-- Numbers with a point, infinities and the value that is no number. -/
def floatShape : Shape :=
  let number := Shape.both .digit (.many digitOrUnderscore)
  .choice
    [.row [sign, number, .literal ".", .many digitOrUnderscore, .optional exponent],
      .row [.literal ".", number, .optional exponent],
      .row [sign, number, sexagesimal, .literal ".", .many digitOrUnderscore],
      .row [sign, .words [".inf", ".Inf", ".INF"]],
      .words [".nan", ".NaN", ".NAN"]]

def timestampShape : Shape :=
  let oneOrTwo := Shape.row [.digit, .optional .digit]
  let two := Shape.row [.digit, .digit]
  let year := Shape.row [two, two, .literal "-"]
  let time := Shape.row
    [.either (.among "Tt") (.some (.among " \t")), oneOrTwo, .literal ":", two,
      .literal ":", two, .optional (.row [.literal ".", .many .digit]),
      .optional (.row [.many (.among " \t"),
        .either (.literal "Z")
          (.row [.among "+-", oneOrTwo, .optional (.row [.literal ":", two])])])]
  .either (.row [year, two, .literal "-", two])
    (.row [year, oneOrTwo, .literal "-", oneOrTwo, time])

def reading (text : String) : Reading :=
  if nullShape.accepts text then .null
  else if yesShape.accepts text || noShape.accepts text then .truth
  else if integerShape.accepts text then .integer
  else if floatShape.accepts text then .float
  else if timestampShape.accepts text then .timestamp
  else if text = "<<" then .merge
  else if text = "=" then .default
  else .text

end Gloss.Document.Scalar
