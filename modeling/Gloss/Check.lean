import Gloss.Resolution
import Gloss.Tree.Outline
import Gloss.Verification

/-!
# Checking fixtures

A fixture is checked by stripping its markers, analysing the clean text and
judging what the markers expect.  Any analyzer will do; `Resolution.analyze` is
the one that comes with the fixture language.
-/

namespace Gloss

/-- Why an analyzer has no analysis of a text. -/
inductive AnalysisFailure where
  | fault (fault : Fault)
  /-- The analyzer itself broke down. -/
  | breakdown (detail : String)
  deriving DecidableEq, Repr

/-- Turns the name of a file and its clean text into an analysis. -/
abbrev Analyzer (ν δ κ : Type) :=
  (file : String) → (text : List Char) → Except AnalysisFailure (Analysis ν δ κ)

namespace AnalysisFailure

def toFault (file : String) : AnalysisFailure → Fault
  | .fault found => found
  | .breakdown detail => .of (.breakdown file detail) {}

end AnalysisFailure

namespace Resolution

def model (resolution : Resolution) : BindingModel NodeRef Descriptor TypeConstructor where
  declarationAt := resolution.declarationAt?
  referenceAt := resolution.referenceAt?
  expressionAt := resolution.expressionAt?
  target := resolution.target?
  targetDeclaration := resolution.targetDeclaration?
  isUnresolved := resolution.isUnresolved
  isAmbiguous := resolution.isAmbiguous
  isError := Descriptor.isError
  type := fun node => (resolution.type? node).map fun type =>
    { constructor := type.constructor, text := type.render }
  descriptor := resolution.descriptor?
  constructorParameter := resolution.constructorParameter?
  isParameter := fun node => node.kind.isParameter
  unwrapVariable := Descriptor.unwrapVariable
  generic := Descriptor.generic
  typeConstructor := resolution.typeConstructor?
  context := resolution.context

/-- The things of a resolution in words; a node is written out in full. -/
def wording (resolution : Resolution) : Wording NodeRef Descriptor TypeConstructor where
  node := fun node =>
    ((resolution.file.occurrence? node).map fun found => found.node.term).getD node.render
  descriptor := resolution.describeOption
  constructor := TypeConstructor.name

def classifier? (resolution : Resolution) (name : String) : Option TypeConstructor :=
  (Library.classifier? resolution.state.functionArities name).map fun entry =>
    entry.descriptor.constructor

def externalNames : List String := ["println", "listOf", "identity", "Int.plus", "Int.toString"]

/-- What the payloads mean that name functions of the library. -/
def externalDescriptors : Table String Descriptor :=
  .ofList (externalNames.filterMap fun name =>
    (Library.function? name).map fun descriptor => ("std::" ++ name, descriptor))

def analysis (resolution : Resolution) : Analysis NodeRef Descriptor TypeConstructor where
  model := resolution.model
  wording := resolution.wording
  classifier := resolution.classifier?
  externalDescriptors

def analyze : Analyzer NodeRef Descriptor TypeConstructor := fun file text =>
  match read file text with
  | .error fault => .error (.fault fault)
  | .ok resolution => .ok resolution.analysis

end Resolution

/-- Checks a text with markers: extracts the fixture, analyses its clean text
and verifies it. -/
def check {ν δ κ : Type} [DecidableEq ν] [DecidableEq δ] [DecidableEq κ]
    (analyzer : Analyzer ν δ κ) (options : Options) (file : String) (text : List Char) :
    Except Fault (Verification ν) :=
  match Fixture.extract file text with
  | .error fault => .error fault
  | .ok fixture =>
      match analyzer file fixture.text with
      | .error failure => .error (failure.toFault file)
      | .ok analysis => Verification.verify options analysis fixture

end Gloss
