import Gloss.Text.Place
import Gloss.Typing.NominalType

/-!
# Problems of a file

What can be wrong with the names and types of a file that is otherwise well
formed.  Problems are reported at a node and never stop the resolution.
-/

namespace Gloss

/-- Something wrong with the names or types of a file. -/
inductive Problem where
  | redeclaration (name : String)
  | wrongTypeArguments (name : String) (expected actual : Nat)
  | recursiveType (name : String)
  | typeMismatch (inferred expected : NominalType)
  | missingPropertyType (name : String)
  /-- A local variable has neither a type nor an initializer. -/
  | missingVariableType (name : String)
  | callableReferenceAmbiguity (name : String) (count : Nat)
  | notCallable (type : NominalType)
  /-- A function value is called with the wrong number of arguments. -/
  | argumentCount (expected actual : Nat)
  | argumentMismatch (arguments : List NominalType) (candidate : String)
  | noneApplicable (count : Nat) (name : String) (arguments : List NominalType)
  /-- Several candidates accept the arguments equally well. -/
  | overloadAmbiguity (name : String) (count : Nat)
  | unresolvedReference (name : String)
  deriving DecidableEq, Repr

/-- A problem and the node where it was found. -/
structure Diagnostic where
  problem : Problem
  node : NodeRef
  deriving DecidableEq, Repr

namespace Problem

def label : Problem → String
  | .redeclaration _ => "redeclaration"
  | .wrongTypeArguments _ _ _ => "wrong-type-arguments"
  | .recursiveType _ => "recursive-type"
  | .typeMismatch _ _ => "type-mismatch"
  | .missingPropertyType _ | .missingVariableType _ => "missing-type"
  | .callableReferenceAmbiguity _ _ => "callable-reference-ambiguity"
  | .notCallable _ => "not-callable"
  | .argumentCount _ _ | .argumentMismatch _ _ => "argument-mismatch"
  | .noneApplicable _ _ _ => "none-applicable"
  | .overloadAmbiguity _ _ => "overload-ambiguity"
  | .unresolvedReference _ => "unresolved-reference"

def listed (types : List NominalType) : String :=
  Text.joined ", " (types.map NominalType.render)

def message : Problem → String
  | .redeclaration name => "Conflicting declarations of '" ++ name ++ "'"
  | .wrongTypeArguments name expected actual =>
      "'" ++ name ++ "'" ++ s!" expects {expected} type argument(s), got {actual}"
  | .recursiveType name =>
      "Type of '" ++ name ++ "' cannot be inferred: it depends on itself"
  | .typeMismatch inferred expected =>
      "Type mismatch: inferred " ++ inferred.render ++ " but " ++ expected.render ++
        " was expected"
  | .missingPropertyType name => "Property '" ++ name ++ "' needs a type or an initializer"
  | .missingVariableType name => "Variable '" ++ name ++ "' needs a type or an initializer"
  | .callableReferenceAmbiguity name count =>
      "Callable reference '::" ++ name ++ "'" ++ s!" matches {count} overloads"
  | .notCallable type => "Expression of type " ++ type.render ++ " cannot be called"
  | .argumentCount expected actual => s!"Expected {expected} argument(s), got {actual}"
  | .argumentMismatch arguments candidate =>
      "Arguments (" ++ listed arguments ++ ") do not match " ++ candidate
  | .noneApplicable count name arguments =>
      s!"None of {count} candidates for '" ++ name ++ "' accepts (" ++ listed arguments ++ ")"
  | .overloadAmbiguity name count =>
      "Overload resolution ambiguity for '" ++ name ++ "'" ++ s!": {count} candidates"
  | .unresolvedReference name => "Unresolved reference: " ++ name

end Problem

namespace Diagnostic

def render (text : List Char) (file : String) (diagnostic : Diagnostic) : String :=
  let place := Place.ofOffset text diagnostic.node.span.start file
  place.render ++ ": error: [" ++ diagnostic.problem.label ++ "] " ++
    diagnostic.problem.message

end Diagnostic

end Gloss
