import Gloss.Text.Basic

/-!
# Fault codes

Each code stands for one kind of problem.  It is written `ROC-` and a number
of four digits, and it fixes the category, the phase in which the problem is
found and how severe it is.
-/

namespace Gloss

/-- How far a fault reaches. -/
inductive Severity where
  | fatal
  | error
  deriving DecidableEq, Repr

/-- The step of the work in which a fault is found. -/
inductive Phase where
  | extraction
  | analysis
  | verification
  | internal
  deriving DecidableEq, Repr

/-- The kind of problem, coarser than the code. -/
inductive Category where
  | duplicateDeclaration
  | duplicatePosition
  | danglingMarker
  | misplacedMarker
  | undeclaredName
  | unknownExternal
  | unsupportedAssertion
  | missingContext
  | sentinelMismatch
  | targetMismatch
  | typeMismatch
  | malformedText
  | internalFault
  deriving DecidableEq, Repr

/-- The codes a fault can carry. -/
inductive Code where
  | duplicateDeclaration
  | duplicateMarkerPosition
  | danglingTypeAssertion
  | misplacedDeclarationMarker
  | undeclaredName
  | unknownExternalClassifier
  | unsupportedTypeAssertion
  | missingConstructorParameter
  | missingDescriptor
  | missingReferenceContext
  | missingExpressionContext
  | sentinelMismatch
  | targetMismatch
  | missingType
  | typeConstructorMismatch
  | verificationFailed
  | malformedText
  | internalFault
  deriving DecidableEq, Repr

namespace Severity

def label : Severity → String
  | .fatal => "fatal"
  | .error => "error"

end Severity

namespace Phase

def label : Phase → String
  | .extraction => "extraction"
  | .analysis => "analysis"
  | .verification => "verification"
  | .internal => "internal"

end Phase

namespace Category

def label : Category → String
  | .duplicateDeclaration => "DUPLICATE_DECLARATION"
  | .duplicatePosition => "DUPLICATE_POSITION"
  | .danglingMarker => "DANGLING_MARKER"
  | .misplacedMarker => "MISPLACED_MARKER"
  | .undeclaredName => "UNDECLARED_NAME"
  | .unknownExternal => "UNKNOWN_EXTERNAL"
  | .unsupportedAssertion => "UNSUPPORTED_ASSERTION"
  | .missingContext => "MISSING_CONTEXT"
  | .sentinelMismatch => "SENTINEL_MISMATCH"
  | .targetMismatch => "TARGET_MISMATCH"
  | .typeMismatch => "TYPE_MISMATCH"
  | .malformedText => "SYNTAX"
  | .internalFault => "INTERNAL_ERROR"

end Category

namespace Code

def all : List Code :=
  [.duplicateDeclaration, .duplicateMarkerPosition, .danglingTypeAssertion,
    .misplacedDeclarationMarker, .undeclaredName, .unknownExternalClassifier,
    .unsupportedTypeAssertion, .missingConstructorParameter, .missingDescriptor,
    .missingReferenceContext, .missingExpressionContext, .sentinelMismatch,
    .targetMismatch, .missingType, .typeConstructorMismatch,
    .verificationFailed, .malformedText, .internalFault]

def label : Code → String
  | .duplicateDeclaration => "DUPLICATE_DECLARATION"
  | .duplicateMarkerPosition => "DUPLICATE_MARKER_POSITION"
  | .danglingTypeAssertion => "DANGLING_TYPE_ASSERTION"
  | .misplacedDeclarationMarker => "MISPLACED_DECLARATION_MARKER"
  | .undeclaredName => "UNDECLARED_NAME"
  | .unknownExternalClassifier => "UNKNOWN_EXTERNAL_CLASSIFIER"
  | .unsupportedTypeAssertion => "UNSUPPORTED_TYPE_ASSERTION"
  | .missingConstructorParameter => "MISSING_CONSTRUCTOR_PARAMETER"
  | .missingDescriptor => "MISSING_DESCRIPTOR"
  | .missingReferenceContext => "MISSING_REFERENCE_CONTEXT"
  | .missingExpressionContext => "MISSING_EXPRESSION_CONTEXT"
  | .sentinelMismatch => "SENTINEL_MISMATCH"
  | .targetMismatch => "TARGET_MISMATCH"
  | .missingType => "MISSING_TYPE"
  | .typeConstructorMismatch => "TYPE_CONSTRUCTOR_MISMATCH"
  | .verificationFailed => "VERIFICATION_FAILED"
  | .malformedText => "SYNTAX_ERROR"
  | .internalFault => "INTERNAL_ERROR"

/-- The number of a code; its thousands tell the family. -/
def number : Code → Nat
  | .duplicateDeclaration => 1
  | .duplicateMarkerPosition => 2
  | .danglingTypeAssertion => 3
  | .misplacedDeclarationMarker => 1000
  | .undeclaredName => 1001
  | .unknownExternalClassifier => 1002
  | .unsupportedTypeAssertion => 1003
  | .missingConstructorParameter => 1004
  | .missingDescriptor => 1005
  | .missingReferenceContext => 2000
  | .missingExpressionContext => 2001
  | .sentinelMismatch => 3000
  | .targetMismatch => 3001
  | .missingType => 3002
  | .typeConstructorMismatch => 3003
  | .verificationFailed => 3999
  | .malformedText => 4000
  | .internalFault => 9000

def category : Code → Category
  | .duplicateDeclaration => .duplicateDeclaration
  | .duplicateMarkerPosition => .duplicatePosition
  | .danglingTypeAssertion => .danglingMarker
  | .misplacedDeclarationMarker => .misplacedMarker
  | .undeclaredName => .undeclaredName
  | .unknownExternalClassifier => .unknownExternal
  | .unsupportedTypeAssertion => .unsupportedAssertion
  | .missingConstructorParameter => .misplacedMarker
  | .missingDescriptor => .misplacedMarker
  | .missingReferenceContext => .missingContext
  | .missingExpressionContext => .missingContext
  | .sentinelMismatch => .sentinelMismatch
  | .targetMismatch => .targetMismatch
  | .missingType => .typeMismatch
  | .typeConstructorMismatch => .typeMismatch
  | .verificationFailed => .targetMismatch
  | .malformedText => .malformedText
  | .internalFault => .internalFault

def phase : Code → Phase
  | .duplicateDeclaration | .duplicateMarkerPosition | .danglingTypeAssertion =>
      .extraction
  | .malformedText => .analysis
  | .internalFault => .internal
  | _ => .verification

/-- Failed expectations are errors, everything else ends the fixture. -/
def severity : Code → Severity
  | .sentinelMismatch | .targetMismatch | .missingType
  | .typeConstructorMismatch | .verificationFailed => .error
  | _ => .fatal

def render (code : Code) : String :=
  "ROC-" ++ Text.zeroPadded 4 code.number

def ofLabel? (label : String) : Option Code :=
  all.find? fun code => code.label = label

end Code

end Gloss
