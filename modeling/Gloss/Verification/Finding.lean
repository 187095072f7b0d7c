import Gloss.Fixture

/-!
# Expectations and findings

The entries of the tables of a fixture are judged one by one: all references
in the order of their positions, then all type assertions likewise.  A finding
is what came of one entry.
-/

namespace Gloss

inductive Aspect where
  | reference
  | type
  deriving DecidableEq, Repr

/-- One entry of the tables of a fixture. -/
structure Expectation where
  aspect : Aspect
  position : Int
  payload : String
  deriving DecidableEq, Repr

/-- An expectation that was judged, with its failure if it failed. -/
structure Finding where
  expectation : Expectation
  failure : Option Fault
  deriving DecidableEq, Repr

namespace Aspect

def label : Aspect → String
  | .reference => "reference"
  | .type => "type"

end Aspect

namespace Expectations

def ofAspect (aspect : Aspect) (table : Table Int String) : List Expectation :=
  (ascending table).map fun entry => { aspect, position := entry.1, payload := entry.2 }

def inOrder (expectations : Expectations) : List Expectation :=
  ofAspect .reference expectations.references ++ ofAspect .type expectations.typeAssertions

end Expectations

namespace Expectation

def marker (expectation : Expectation) : String :=
  match expectation.aspect with
  | .reference => expectation.payload
  | .type => ":" ++ expectation.payload

end Expectation

namespace Finding

def passed (finding : Finding) : Bool := finding.failure.isNone

def describe (finding : Finding) : String :=
  let expectation := finding.expectation
  expectation.aspect.label ++ " `" ++ expectation.marker ++ "`" ++
    s!" @{expectation.position}: " ++ (if finding.passed then "ok" else "FAILED")

def toDocument (finding : Finding) : Document :=
  let failure := match finding.failure with
    | none => []
    | some fault => [("error", fault.report.toDocument)]
  .object
    ([("kind", .text finding.expectation.aspect.label),
      ("position", .integer finding.expectation.position),
      ("payload", .text finding.expectation.payload),
      ("passed", .boolean finding.passed)] ++ failure)

end Finding

end Gloss
