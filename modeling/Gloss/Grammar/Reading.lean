import Gloss.Fault
import Gloss.Grammar
import Gloss.Tree.Occurrence

/-!
# Reading source files

The rule for files matches some beginning of every text.  The text is a file
when that beginning is all of it; otherwise it is unreadable from the offset
on where the match ends.
-/

namespace Gloss.Grammar

def digitLimit : Nat := 4300

/-- The number of characters shown of a text that cannot be read. -/
def excerptLength : Nat := 20

def oversized? (occurrence : Occurrence) : Option Nat :=
  match occurrence.node with
  | .expression (.integer span _) =>
      if digitLimit < span.size then some span.size else none
  | _ => none

def unreadable (file : String) (text : List Char) (cursor : Cursor) : Fault :=
  let place := Place.ofOffset text cursor.offset file
  .of (.unreadable (String.ofList (cursor.rest.take excerptLength)) place.line place.column)
    place

def read (file : String) (text : List Char) : Except Fault Tree.File :=
  let start := Cursor.ofText text
  match matchRule .file start with
  | .matched tree next =>
      if next.rest.isEmpty then
        match tree.occurrences.findSome? oversized? with
        | none => .ok tree
        | some digits => .error (.of (.oversizedNumber digits digitLimit) { file })
      else .error (unreadable file text next)
  | _ => .error (unreadable file text start)

end Gloss.Grammar
