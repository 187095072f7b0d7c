import Gloss.Document
import Gloss.Text.Quoted
import Gloss.Tree.Fold

/-!
# Trees as documents and as terms

The outline of a node is an object with its kind, its span and its parts; the
spans of names are left out.  The term of a node writes the title of its kind
with all parts, spans included, in parentheses.
-/

namespace Gloss

namespace Part

/-- A part as a member of an outline; a span has no place there. -/
def outline? : Part Document → Option Document
  | .absent => some .null
  | .flag value => some (.boolean value)
  | .number value => some (.natural value)
  | .text value => some (.text value)
  | .span _ => none
  | .node value => some value
  | .nodes values => some (.list values)

def spanTerm (span : Span) : String :=
  s!"Span(start={span.start}, end={span.stop})"

def term : Part String → String
  | .absent => "None"
  | .flag value => if value then "True" else "False"
  | .number value => toString value
  | .text value => Text.Quoted.encode value
  | .span value => spanTerm value
  | .node value => value
  | .nodes values => "[" ++ Text.joined ", " values ++ "]"

end Part

namespace Node

def spanDocument (span : Span) : Document :=
  .list [.natural span.start, .natural span.stop]

def outline (node : Node) : Document :=
  node.fold fun here below =>
    .object
      (("node", .text here.kind.label) :: ("span", spanDocument here.span) ::
        below.filterMap fun part => part.2.outline?.map fun document => (part.1, document))

def term (node : Node) : String :=
  node.fold fun here below =>
    let fields := ("span=" ++ Part.spanTerm here.span) ::
      below.map fun part => part.1 ++ "=" ++ part.2.term
    here.kind.title ++ "(" ++ Text.joined ", " fields ++ ")"

end Node

end Gloss
