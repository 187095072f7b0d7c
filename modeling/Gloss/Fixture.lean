import Gloss.Document
import Gloss.Fault
import Gloss.Fixture.Marker
import Gloss.Table

/-!
# Fixtures

A fixture is a source text without its markers, together with what the
markers expect of it.  The cuts that `cutMarkers` makes are entered into three
tables one after the other; the first cut that collides with an entry, or that
asserts a type of nothing, is the fault of the text.
-/

namespace Gloss

/-- What the markers of a text expect, by name and by position. -/
structure Expectations where
  declarations : Table String Int
  references : Table Int String
  typeAssertions : Table Int String
  deriving DecidableEq, Repr

/-- A clean text with the expectations and the markers found in it. -/
structure Fixture where
  text : List Char
  expectations : Expectations
  markers : List Marker
  file : String
  deriving DecidableEq, Repr

namespace Expectations

def empty : Expectations := ⟨.empty, .empty, .empty⟩

def isEmpty (expectations : Expectations) : Bool :=
  expectations.declarations.isEmpty && expectations.references.isEmpty &&
    expectations.typeAssertions.isEmpty

def positions (expectations : Expectations) : List Int :=
  let mentioned := expectations.declarations.values ++
    expectations.references.keys ++ expectations.typeAssertions.keys
  (mentioned.mergeSort fun first second => first ≤ second).eraseDups

def ascending (table : Table Int String) : List (Int × String) :=
  table.entries.mergeSort fun first second => first.1 ≤ second.1

def toDocument (expectations : Expectations) : Document :=
  let byPosition (table : Table Int String) : Document :=
    .object ((ascending table).map fun entry => (toString entry.1, .text entry.2))
  .object
    [("declarations", .object (expectations.declarations.entries.map fun entry =>
        (entry.1, .integer entry.2))),
      ("references", byPosition expectations.references),
      ("type_assertions", byPosition expectations.typeAssertions)]

/-- Enters a cut into the table of its kind.  The text of the cut, with the
marker in it, gives the place of a fault. -/
def enter (file : String) (expectations : Expectations) (cut : Cut) :
    Except Fault Expectations :=
  let marker := cut.marker
  let fault (position : Int) (cause : Cause) : Fault :=
    .of cause (.ofOffset cut.whole position file)
  match marker.kind with
  | .declaration =>
      match expectations.declarations.get? marker.payload with
      | some previous =>
          .error (fault cut.start (.duplicateDeclaration marker.payload cut.start previous))
      | none =>
          .ok { expectations with
            declarations := expectations.declarations.insert marker.payload marker.offset }
  | .type =>
      if marker.offset < 0 then
        .error (fault cut.start (.danglingTypeAssertion marker.payload))
      else
        match expectations.typeAssertions.get? marker.offset with
        | some previous =>
            .error (fault marker.offset
              (.duplicatePosition marker.offset marker.payload previous "type"))
        | none =>
            .ok { expectations with
              typeAssertions := expectations.typeAssertions.insert marker.offset marker.payload }
  | .reference =>
      match expectations.references.get? marker.offset with
      | some previous =>
          .error (fault marker.offset
            (.duplicatePosition marker.offset marker.payload previous "reference"))
      | none =>
          .ok { expectations with
            references := expectations.references.insert marker.offset marker.payload }

/-- Enters cuts in order, up to the first fault. -/
def enterAll (file : String) (expectations : Expectations) :
    List Cut → Except Fault Expectations
  | [] => .ok expectations
  | cut :: later =>
      match expectations.enter file cut with
      | .error fault => .error fault
      | .ok entered => enterAll file entered later

end Expectations

namespace Fixture

def extract (file : String) (text : List Char) : Except Fault Fixture :=
  let (cuts, clean) := cutMarkers text
  match Expectations.empty.enterAll file cuts with
  | .error fault => .error fault
  | .ok expectations =>
      .ok { text := clean, expectations, markers := cuts.map Cut.marker, file }

def place (fixture : Fixture) (offset : Int) : Place :=
  .ofOffset fixture.text offset fixture.file

/-- The text without its markers; places of faults are in an unnamed fixture. -/
def strip (text : List Char) : Except Fault (List Char) :=
  (extract "<fixture>" text).map Fixture.text

end Fixture

end Gloss
