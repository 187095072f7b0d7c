import Gloss.Document
import Gloss.Fault.Code
import Gloss.Text.Place

/-!
# Reports of faults

A report is a message with its code, its place, notes and a hint.  It is
written as lines in the style of a compiler or as a document.
-/

namespace Gloss

structure Note where
  message : String
  place : Option Place := none
  label : String := ""
  deriving DecidableEq, Repr

/-- A message with everything that is known about it. -/
structure Report where
  code : Code
  message : String
  place : Place := {}
  severity : Severity := code.severity
  notes : List Note := []
  hint : String := ""
  deriving DecidableEq, Repr

namespace Note

/-- The remark on one line: its place and its label, if it has them, and the
message. -/
def render (note : Note) : String :=
  let labelled := if note.label = "" then note.message
    else note.label ++ ": " ++ note.message
  match note.place with
  | none => labelled
  | some place => place.render ++ ": " ++ labelled

end Note

namespace Report

def addNote (report : Report) (note : Note) : Report :=
  { report with notes := report.notes ++ [note] }

/-- The report as lines: the message, then the notes, then the hint. -/
def render (report : Report) : String :=
  let head := report.place.render ++ ": " ++ report.severity.label ++ ": " ++
    report.message ++ " [" ++ report.code.render ++ "]"
  let hint := if report.hint = "" then [] else ["hint: " ++ report.hint]
  Text.joined "\n" (head :: report.notes.map Note.render ++ hint)

def toDocument (report : Report) : Document :=
  .object
    [("code", .text report.code.render),
      ("message", .text report.message),
      ("severity", .text report.severity.label),
      ("location", .object
        [("file", .text report.place.file),
          ("offset", .integer report.place.offset),
          ("line", .integer report.place.line),
          ("column", .integer report.place.column)]),
      ("phase", .text report.code.phase.label),
      ("category", .text report.code.category.label),
      ("notes", .list (report.notes.map fun note =>
        .object [("message", .text note.message), ("label", .text note.label)])),
      ("hint", .text report.hint)]

end Report

end Gloss
