import Gloss.Text.Basic

/-!
# Places in a source text

A place names a file, an offset and, for display, a line and a column that
both count from one.  The line and the column are computed from the offset.
-/

namespace Gloss

/-- A position in a file; the defaults stand for an unknown place. -/
structure Place where
  file : String := ""
  offset : Int := -1
  line : Int := 0
  column : Int := 0
  deriving DecidableEq, Repr

namespace Place

/-- The place of an offset in a text.  An offset past the end is shown at the
end, and a negative one has neither line nor column. -/
def ofOffset (text : List Char) (offset : Int) (file : String) : Place :=
  if offset < 0 then { file, offset }
  else
    let before := text.take offset.toNat
    { file
      offset
      line := before.count '\n' + 1
      column := (before.reverse.takeWhile (· != '\n')).length + 1 }

/-- The place as a reader sees it: file, line and column with colons between
them, as far as they are known. -/
def render (place : Place) : String :=
  if place.file = "" && place.line = 0 then
    if 0 ≤ place.offset then s!"@{place.offset}" else "<unknown location>"
  else
    let file := if place.file = "" then [] else [place.file]
    let column := if 0 < place.column then [toString place.column] else []
    let line := if 0 < place.line then toString place.line :: column else []
    Text.joined ":" (file ++ line)

end Place

end Gloss
