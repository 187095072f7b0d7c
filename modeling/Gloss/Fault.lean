import Gloss.Fault.Report
import Gloss.Text.Quoted

/-!
# Faults

A fault is a cause together with the place where it was found.  The cause
determines the wording, the code and the family.  Malformed fixtures and
missing contexts end the check of a fixture; mismatches are failed
expectations, one each.
-/

namespace Gloss

/-- What a failed expectation expected and what it met. -/
structure Mismatch where
  message : String
  payload : String
  expected : String := ""
  actual : String := ""
  deriving DecidableEq, Repr

/-- The ways in which an expectation can fail. -/
inductive MismatchKind where
  | general
  /-- The outcome a sentinel asks for did not occur. -/
  | sentinel
  /-- The reference resolves to something else. -/
  | target
  | missingType
  | typeConstructor
  deriving DecidableEq, Repr

/-- Why a fixture cannot be judged, or why it fails. -/
inductive Cause where
  | general (message : String)
  /-- The analyzer could not process the clean text. -/
  | analysis (message : String)
  | breakdown (file detail : String)
  /-- The clean text stops being a file of the language at a line and column. -/
  | unreadable (excerpt : String) (line column : Int)
  | oversizedNumber (digits limit : Nat)
  /-- A malformed fixture, for a reason given in words. -/
  | malformed (message name : String)
  | duplicateDeclaration (name : String) (position previous : Int)
  | duplicatePosition (position : Int) (payload previous table : String)
  | danglingTypeAssertion (payload : String)
  | misplacedDeclaration (name : String)
  | undeclaredName (name : String)
  | unknownClassifier (name : String)
  | missingConstructorParameter (name : String)
  | missingDescriptor (name : String)
  /-- A type assertion that names neither a class nor a type parameter. -/
  | unsupportedTypeAssertion (name declaration : String)
  /-- A marker without context, for a reason given in words. -/
  | missingContext (message payload : String)
  | missingReference (payload : String)
  | missingExpression (payload : String)
  | mismatch (kind : MismatchKind) (details : Mismatch)
  | verificationFailed (count : Nat) (file : String)
  deriving DecidableEq, Repr

/-- A cause, with what a report says beside it. -/
structure Fault where
  cause : Cause
  report : Report
  deriving DecidableEq, Repr

namespace MismatchKind

def code : MismatchKind → Code
  | .general => .targetMismatch
  | .sentinel => .sentinelMismatch
  | .target => .targetMismatch
  | .missingType => .missingType
  | .typeConstructor => .typeConstructorMismatch

end MismatchKind

namespace Cause

def message : Cause → String
  | .general message | .analysis message => message
  | .unreadable excerpt line column =>
      "Syntax error: Rule 'file' matched in its entirety, but it didn't consume all " ++
        "the text. The non-matching portion of the text begins with '" ++ excerpt ++
        s!"' (line {line}, column {column})."
  | .oversizedNumber digits limit =>
      s!"Could not build AST: ValueError: Exceeds the limit ({limit} digits) for integer " ++
        s!"string conversion: value has {digits} digits; " ++
        "use sys.set_int_max_str_digits() to increase the limit"
  | .breakdown file detail => "Analyzer failed on " ++ file ++ ": " ++ detail
  | .malformed message _ => message
  | .duplicateDeclaration name _ _ => "Redeclaration: " ++ name
  | .duplicatePosition position payload previous table =>
      s!"Two {table} markers at offset {position}: " ++
        Text.Quoted.encode previous ++ " and " ++ Text.Quoted.encode payload
  | .danglingTypeAssertion payload =>
      "Type assertion `" ++ payload ++ "` has no preceding expression"
  | .misplacedDeclaration name =>
      "Declaration marker '" ++ name ++ "' is not inside a declaration"
  | .undeclaredName name => "No declaration for " ++ name
  | .unknownClassifier name => "Expected class not found: " ++ name
  | .missingConstructorParameter name =>
      "Declaration '" ++ name ++ "' has no associated constructor parameter"
  | .missingDescriptor name =>
      "Declaration '" ++ name ++ "' has no descriptor to compare against"
  | .unsupportedTypeAssertion name declaration =>
      "Unsupported declaration: " ++ (if declaration = "" then name else declaration)
  | .missingContext message _ => message
  | .missingReference payload =>
      "No reference expression at marker `" ++ payload ++ "`"
  | .missingExpression payload =>
      "No expression before type marker `:" ++ payload ++ "`"
  | .mismatch _ details => details.message
  | .verificationFailed count file =>
      s!"{count} resolution expectation(s) failed" ++
        (if file = "" then "" else " in " ++ file)

def code : Cause → Code
  | .general _ | .breakdown _ _ => .internalFault
  | .analysis _ | .unreadable _ _ _ | .oversizedNumber _ _ => .malformedText
  | .malformed _ _ | .misplacedDeclaration _ => .misplacedDeclarationMarker
  | .duplicateDeclaration _ _ _ => .duplicateDeclaration
  | .duplicatePosition _ _ _ _ => .duplicateMarkerPosition
  | .danglingTypeAssertion _ => .danglingTypeAssertion
  | .undeclaredName _ => .undeclaredName
  | .unknownClassifier _ => .unknownExternalClassifier
  | .missingConstructorParameter _ => .missingConstructorParameter
  | .missingDescriptor _ => .missingDescriptor
  | .unsupportedTypeAssertion _ _ => .unsupportedTypeAssertion
  | .missingContext _ _ | .missingReference _ => .missingReferenceContext
  | .missingExpression _ => .missingExpressionContext
  | .mismatch kind _ => kind.code
  | .verificationFailed _ _ => .verificationFailed

def notes : Cause → List Note
  | .duplicateDeclaration _ _ previous =>
      [{ message := s!"previously declared at offset {previous}", label := "note" }]
  | _ => []

def hint : Cause → String
  | .misplacedDeclaration _ => "Move the marker onto the declared name"
  | .unsupportedTypeAssertion _ _ =>
      "Type assertions may only name classes or type parameters"
  | _ => ""

def isMalformed : Cause → Bool
  | .malformed _ _ | .duplicateDeclaration _ _ _ | .duplicatePosition _ _ _ _
  | .danglingTypeAssertion _ | .misplacedDeclaration _ | .undeclaredName _
  | .unknownClassifier _ | .missingConstructorParameter _ | .missingDescriptor _
  | .unsupportedTypeAssertion _ _ => true
  | _ => false

/-- Whether no node of the required kind encloses a marker. -/
def isMissingContext : Cause → Bool
  | .missingContext _ _ | .missingReference _ | .missingExpression _ => true
  | _ => false

def isAssertion : Cause → Bool
  | .mismatch _ _ | .verificationFailed _ _ => true
  | _ => false

end Cause

namespace Fault

def of (cause : Cause) (place : Place) : Fault where
  cause
  report :=
    { code := cause.code, message := cause.message, place
      severity := cause.code.severity, notes := cause.notes, hint := cause.hint }

def addNote (fault : Fault) (note : Note) : Fault :=
  { fault with report := fault.report.addNote note }

def message (fault : Fault) : String := fault.report.message

def place (fault : Fault) : Place := fault.report.place

def render (fault : Fault) : String := fault.report.render

def verificationFailed (failures : List Fault) (file : String) (place : Place) : Fault :=
  failures.foldl
    (fun total failure => total.addNote
      { message := failure.message, place := some failure.place, label := "failed" })
    (of (.verificationFailed failures.length file) place)

/-- Three for a fixture that cannot be judged because of its markers, two for
any other fault. -/
def exitCode (fault : Fault) : Nat :=
  if fault.cause.isMalformed || fault.cause.isMissingContext then 3 else 2

end Fault

end Gloss
