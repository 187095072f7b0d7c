/-!
# Shapes of texts

A shape describes a set of texts by choices, sequences and repetitions of
single characters.  `ends` gives what may be left of a text after a beginning
of that shape, and a text has the shape when nothing may be left.
-/

namespace Gloss.Text

inductive Shape where
  | nothing
  | one (test : Char → Bool)
  | both (first second : Shape)
  | either (first second : Shape)
  /-- Any number of texts of a shape, one after the other. -/
  | many (inner : Shape)

namespace Shape

/-- What may be left after any number of steps, at most `limit` of them. -/
def closure (step : List Char → List (List Char)) :
    (limit : Nat) → List Char → List (List Char)
  | 0, text => [text]
  | limit + 1, text =>
      text :: ((step text).filter fun rest => rest.length < text.length).flatMap
        (closure step limit)

/-- What may be left of a text after a beginning of the shape. -/
def ends : Shape → List Char → List (List Char)
  | .nothing, text => [text]
  | .one _, [] => []
  | .one test, character :: rest => if test character then [rest] else []
  | .both first second, text => (ends first text).flatMap (ends second)
  | .either first second, text => ends first text ++ ends second text
  | .many inner, text => closure (ends inner) text.length text

def accepts (shape : Shape) (text : String) : Bool :=
  (shape.ends text.toList).any List.isEmpty

def literal (text : String) : Shape :=
  text.toList.foldr (fun expected rest => .both (.one (· == expected)) rest) .nothing

def among (characters : String) : Shape :=
  .one fun character => characters.toList.contains character

def optional (inner : Shape) : Shape := .either inner .nothing

def some (inner : Shape) : Shape := .both inner (.many inner)

def row (shapes : List Shape) : Shape := shapes.foldr .both .nothing

/-- A text of one of the shapes; of none when there are none. -/
def choice : List Shape → Shape
  | [] => .one fun _ => false
  | [only] => only
  | first :: rest => .either first (choice rest)

def words (texts : List String) : Shape := choice (texts.map literal)

def digit : Shape := .one Char.isDigit

end Shape

end Gloss.Text
