import Gloss.Options
import Gloss.Verification.Finding
import Gloss.Verification.Model

/-!
# Judging expectations

A judgement holds a single expectation against a resolved text.  It comes to
nothing when the expectation is met, to a mismatch when it is not, and to a
fault when the markers leave nothing that could be judged.
-/

namespace Gloss

/-- What comes of an expectation: a fault, or a mismatch unless it is met. -/
abbrev Verdict := Except Fault (Option Fault)

structure Bench (ν δ κ : Type) where
  analysis : Analysis ν δ κ
  prefixes : Prefixes
  /-- The declarations that the markers of the fixture name. -/
  declared : Table String ν
  place : Int → Place

namespace Verdict

def met : Verdict := .ok none

def mismatch (fault : Fault) : Verdict := .ok (some fault)

def fault (fault : Fault) : Verdict := .error fault

end Verdict

namespace Bench

variable {ν δ κ : Type}

def classify (bench : Bench ν δ κ) (payload : String) : PayloadKind :=
  .classify bench.prefixes payload

def parameterName (bench : Bench ν δ κ) (payload : String) : String :=
  Text.dropFirst bench.prefixes.parameter.length payload

def libraryName (bench : Bench ν δ κ) (payload : String) : String :=
  Text.dropFirst bench.prefixes.library.length payload

/-- The name of a node: that of its last marker, else the node in words. -/
def nameOf [DecidableEq ν] (bench : Bench ν δ κ) (node : ν) : String :=
  match bench.declared.entries.reverse.find? fun entry => entry.2 = node with
  | some (name, _) => name
  | none => bench.analysis.wording.node node

def nameOfOption [DecidableEq ν] (bench : Bench ν δ κ) (node : Option ν) : String :=
  (node.map bench.nameOf).getD "null"

def context (bench : Bench ν δ κ) (node : ν) : String :=
  (bench.analysis.model.context node).render

def describe (bench : Bench ν δ κ) (descriptor : Option δ) : String :=
  bench.analysis.wording.descriptor descriptor

def hasOutcome (bench : Bench ν δ κ) (reference : ν) : Sentinel → Bool
  | .unresolved => bench.analysis.model.isUnresolved reference
  | .ambiguous => bench.analysis.model.isAmbiguous reference
  | .null =>
      (bench.analysis.model.target reference).isNone &&
        !bench.analysis.model.isAmbiguous reference
  | .error => (bench.analysis.model.target reference).any bench.analysis.model.isError

def judgeSentinel (bench : Bench ν δ κ) (place : Place) (reference : ν)
    (sentinel : Sentinel) : Verdict :=
  if bench.hasOutcome reference sentinel then .met
  else
    let actual := bench.describe (bench.analysis.model.target reference)
    let message := "Must have been " ++ sentinel.description ++ ": " ++
      bench.context reference ++ " but was resolved to " ++ actual
    .mismatch (.of
      (.mismatch .sentinel
        { message, payload := sentinel.payload, expected := sentinel.description, actual })
      place)

/-- The node that a payload names. -/
inductive Expected (ν : Type) where
  | declaration (node : ν)
  | constructorParameter (node : ν)

/-- The node that a payload names: a marked declaration, else that of a
constructor parameter, else a node outside of the markers. -/
def expected? (bench : Bench ν δ κ) (payload : String) : Option (Expected ν) :=
  let parameter :=
    if bench.classify payload = .constructorParameter then
      bench.declared.get? (bench.parameterName payload)
    else none
  match bench.declared.get? payload, parameter with
  | some node, _ => some (.declaration node)
  | none, some node => some (.constructorParameter node)
  | none, none => (bench.analysis.externalNodes.get? payload).map .declaration

/-- A reference that resolves to something else than its payload names. -/
def wrongTarget [DecidableEq ν] (bench : Bench ν δ κ) (place : Place) (reference : ν)
    (payload expected actual : String) : Fault :=
  let target := bench.nameOfOption (bench.analysis.model.targetDeclaration reference)
  let message := "Reference `" ++ payload ++ "` " ++ bench.context reference ++
    " is resolved into " ++ target ++ "."
  (Fault.of (.mismatch .target { message, payload, expected, actual }) place
    |>.addNote { message := "expected: " ++ expected, label := "note" })
    |>.addNote { message := "actual: " ++ actual, label := "note" }

def judgeDescriptor [DecidableEq ν] [DecidableEq δ] (bench : Bench ν δ κ) (place : Place)
    (reference : ν) (payload : String) (expected : δ) : Verdict :=
  let model := bench.analysis.model
  let actual := (model.target reference).map model.unwrapVariable
  if actual = some expected then .met
  else
    .mismatch (bench.wrongTarget place reference payload (bench.describe (some expected))
      (bench.describe actual))

/-- Judges a reference by the declaration that it must resolve to.  Parameters
are compared by their descriptors, everything else by the declaring nodes. -/
def judgeDeclaration [DecidableEq ν] [DecidableEq δ] (bench : Bench ν δ κ) (place : Place)
    (reference : ν) (payload : String) (expected : ν) : Verdict :=
  let model := bench.analysis.model
  let actual := model.targetDeclaration reference
  if model.isParameter expected || actual.any model.isParameter then
    match model.descriptor expected with
    | none => .fault (.of (.missingDescriptor (bench.nameOf expected)) place)
    | some descriptor => bench.judgeDescriptor place reference payload descriptor
  else if actual = some expected then .met
  else
    .mismatch (bench.wrongTarget place reference payload (bench.nameOf expected)
      (bench.nameOfOption actual))

/-- Judges a reference by the constructor parameter that it must resolve to. -/
def judgeConstructorParameter [DecidableEq ν] [DecidableEq δ] (bench : Bench ν δ κ)
    (place : Place) (reference : ν) (payload : String) (expected : ν) : Verdict :=
  match bench.analysis.model.constructorParameter expected with
  | none => .fault (.of (.missingConstructorParameter (bench.parameterName payload)) place)
  | some descriptor => bench.judgeDescriptor place reference payload descriptor

/-- Judges a reference by what it must resolve to in the library.  A function
of the library may be specialized for the call. -/
def judgeLibraryTarget [DecidableEq δ] (bench : Bench ν δ κ) (place : Place)
    (reference : ν) (payload : String) (expected : δ) : Verdict :=
  let model := bench.analysis.model
  let target := model.target reference
  if target.map model.generic = some (model.generic expected) then .met
  else
    let actual := bench.describe target
    let message := "Expected: " ++ payload ++ ", but " ++ bench.context reference ++
      " was resolved to " ++ actual
    .mismatch (.of
      (.mismatch .target
        { message, payload, expected := bench.describe (some expected), actual })
      place)

def wrongType (bench : Bench ν δ κ) (place : Place) (message payload : String)
    (expected : κ) (actual : ObservedType κ) : Fault :=
  .of
    (.mismatch .typeConstructor
      { message, payload, expected := bench.analysis.wording.constructor expected
        actual := bench.analysis.wording.constructor actual.constructor })
    place

def judgeLibraryType [DecidableEq κ] (bench : Bench ν δ κ) (place : Place)
    (reference : ν) (payload : String) (expected : κ) : Verdict :=
  match bench.analysis.model.type reference with
  | none =>
      let message :=
        "Type " ++ payload ++ " not resolved for reference " ++ bench.context reference
      .mismatch (.of (.mismatch .missingType { message, payload, expected := payload }) place)
  | some actual =>
      if actual.constructor = expected then .met
      else
        let message := "Type resolution mismatch: " ++ bench.context reference ++
          " has type " ++ actual.text ++ ", expected " ++ payload
        .mismatch (bench.wrongType place message payload expected actual)

/-- Judges a reference by a payload that names something in the library. -/
def judgeExternal [DecidableEq δ] [DecidableEq κ] (bench : Bench ν δ κ) (place : Place)
    (reference : ν) (payload : String) : Verdict :=
  match bench.analysis.externalDescriptors.get? payload with
  | some expected => bench.judgeLibraryTarget place reference payload expected
  | none =>
      match bench.analysis.classifier (bench.libraryName payload) with
      | none => .fault (.of (.unknownClassifier payload) place)
      | some expected => bench.judgeLibraryType place reference payload expected

def judgeReference [DecidableEq ν] [DecidableEq δ] [DecidableEq κ] (bench : Bench ν δ κ)
    (place : Place) (reference : ν) (payload : String) : Verdict :=
  match bench.classify payload with
  | .sentinel sentinel => bench.judgeSentinel place reference sentinel
  | kind =>
      match bench.expected? payload with
      | some (.declaration node) => bench.judgeDeclaration place reference payload node
      | some (.constructorParameter node) =>
          bench.judgeConstructorParameter place reference payload node
      | none =>
          if kind = .external then bench.judgeExternal place reference payload
          else .fault (.of (.undeclaredName payload) place)

def expectedConstructor (bench : Bench ν δ κ) (place : Place) (name : String) :
    Except Fault κ :=
  if bench.classify name = .external then
    match bench.analysis.classifier (bench.libraryName name) with
    | none => .error (.of (.unknownClassifier name) place)
    | some constructor => .ok constructor
  else
    match bench.declared.get? name with
    | none => .error (.of (.undeclaredName name) place)
    | some declaration =>
        match bench.analysis.model.typeConstructor declaration with
        | none =>
            let shown := bench.analysis.wording.node declaration
            .error (.of (.unsupportedTypeAssertion name shown) place)
        | some constructor => .ok constructor

/-- Judges an expression by the type constructor that its type must have. -/
def judgeType [DecidableEq κ] (bench : Bench ν δ κ) (position : Int) (expression : ν)
    (name : String) (expected : κ) : Verdict :=
  let place := bench.place position
  match bench.analysis.model.type expression with
  | none =>
      let message := (bench.analysis.model.context expression).text ++ " type is null"
      .mismatch (.of
        (.mismatch .missingType { message, payload := name, expected := name }) place)
  | some actual =>
      if actual.constructor = expected then .met
      else
        let message := s!"At {position}: " ++ bench.context expression ++ " has type " ++
          actual.text ++ ", expected " ++ name
        .mismatch (bench.wrongType place message name expected actual)

def judge [DecidableEq ν] [DecidableEq δ] [DecidableEq κ] (bench : Bench ν δ κ)
    (expectation : Expectation) : Verdict :=
  let place := bench.place expectation.position
  let model := bench.analysis.model
  match expectation.aspect with
  | .reference =>
      match model.referenceAt expectation.position with
      | none => .fault (.of (.missingReference expectation.payload) place)
      | some reference => bench.judgeReference place reference expectation.payload
  | .type =>
      match model.expressionAt expectation.position with
      | none => .fault (.of (.missingExpression expectation.payload) place)
      | some expression =>
          match bench.expectedConstructor place expectation.payload with
          | .error fault => .fault fault
          | .ok expected =>
              bench.judgeType expectation.position expression expectation.payload expected

end Bench

end Gloss
