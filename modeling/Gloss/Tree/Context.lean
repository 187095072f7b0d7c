import Gloss.Text.Place
import Gloss.Tree.Occurrence

/-!
# Nodes in context

Where a node stands, in the words that messages use, and the node that a
position means: of all acceptable nodes around it the one with the shortest
span, and of those with the same span the one furthest down.
-/

namespace Gloss

structure NodeContext where
  text : String
  location : String
  statement : String := ""
  declaration : String := ""
  deriving DecidableEq, Repr

namespace NodeContext

/-- The context in one phrase.  A statement that is just the node is left out. -/
def render (context : NodeContext) : String :=
  let statement := if context.statement = "" || context.statement = context.text then ""
    else " in " ++ context.statement
  let declaration := if context.declaration = "" then "" else " in " ++ context.declaration
  context.text ++ " at " ++ context.location ++ statement ++ declaration

end NodeContext

namespace Node

def excerpt (text : List Char) (node : Node) : String :=
  String.ofList (Text.slice node.span.start node.span.stop text)

end Node

namespace Occurrence

def context (text : List Char) (occurrence : Occurrence) : NodeContext :=
  let place := Place.ofOffset text occurrence.node.span.start ""
  { text := occurrence.node.excerpt text
    location := s!"{place.line}:{place.column}"
    statement := occurrence.statement.excerpt text
    declaration := (occurrence.declaration?.map Node.describe).getD "" }

def isInner (occurrence outer : Occurrence) : Bool :=
  occurrence.node.span.size < outer.node.span.size ||
    (occurrence.node.span.size = outer.node.span.size && outer.depth < occurrence.depth)

def innermost? : List Occurrence → Option Occurrence
  | [] => none
  | occurrence :: rest =>
      some (rest.foldl (fun best next => if next.isInner best then next else best) occurrence)

end Occurrence

namespace Tree.File

def innermost? (file : File) (accept : NodeKind → Bool) (position : Int) :
    Option Occurrence :=
  Occurrence.innermost? (file.occurrences.filter fun occurrence =>
    accept occurrence.node.kind && occurrence.node.span.contains position)

end Tree.File

end Gloss
