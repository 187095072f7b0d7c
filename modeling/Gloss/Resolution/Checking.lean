import Gloss.Resolution.Declarations
import Gloss.Resolution.Inference

/-!
# Checking bodies

The second half of a resolution goes through the bodies of functions and the
initializers of properties.  Types that are still open are inferred here at the
latest; where a type is declared, the expression is compared with it.
-/

namespace Gloss.Resolver

/-- Infers an expression in a scope and compares its type with the expected
one. -/
def check (scope : Nat) (expression : Tree.Expr) (expected : NominalType) : Resolver Unit := do
  let type ← infer demand scope expression
  expect type expected expression.node.ref

/-- Infers the initializer of a local variable, if there is one, and compares it
with the declared type, if there is one. -/
def checkInitializer (scope : Nat) (declared : Option NominalType) :
    Option Tree.Expr → Resolver (Option NominalType)
  | none => return none
  | some initializer => do
      let type ← infer demand scope initializer
      match declared with
      | none => pure ()
      | some expected => expect type expected initializer.node.ref
      return some type

/-- The type of a local variable: the declared one, else that of its
initializer. -/
def localType (declaration : Tree.Property) :
    (type : Option NominalType) → Resolver NominalType
  | some type => return type
  | none => do
      report (.missingVariableType declaration.name) (Node.property declaration).ref
      return .error

/-- Declares a local variable.  Its own name is not yet in scope in its
initializer. -/
def declareLocal (scope : Nat) (declaration : Tree.Property) : Resolver Unit := do
  let node := (Node.property declaration).ref
  let declared ← resolveType? scope declaration.type
  let inferred ← checkInitializer scope declared declaration.initializer
  let type ← localType declaration (declared.or inferred)
  let descriptor : Descriptor :=
    .variable (.local
      { name := declaration.name, declaration := some node, type
        binding := declaration.binding })
  define scope { name := declaration.name, kind := .variable, descriptor } node
  declare node descriptor

def checkStatements (scope : Nat) : List Tree.Statement → Resolver Unit
  | [] => pure ()
  | .variable declaration :: rest => do
      declareLocal scope declaration
      checkStatements scope rest
  | .expression expression :: rest => do
      let _ ← infer demand scope expression
      checkStatements scope rest

def checkFunction (function : Tree.Function) : Resolver Unit := do
  let node := (Node.function function).ref
  let state ← get
  match state.declarations.get? node, state.functionScopes.get? node with
  | some (.function descriptor), some scope => do
      let returned ← returnType demand descriptor
      match function.body with
      | .block block => do
          let inner ← openScope scope "block" "block"
          checkStatements inner block.statements
      | .expression body =>
          if function.returnType.isSome then check scope body returned
  | _, _ => pure ()

def checkProperty (property : Tree.Property) : Resolver Unit := do
  let node := (Node.property property).ref
  let state ← get
  match state.declarations.get? node, state.initializerScopes.get? node with
  | some (.variable descriptor), some scope => do
      let type ← variableType demand descriptor
      match property.initializer with
      | some initializer =>
          if property.type.isSome then check scope initializer type
      | none => pure ()
  | _, _ => pure ()

def checkMembers : List Tree.Member → Resolver Unit
  | [] => pure ()
  | .function function :: rest => do
      checkFunction function
      checkMembers rest
  | .property property :: rest => do
      checkProperty property
      checkMembers rest

/-- Checks the declarations of a file in order, those in a class like those
outside. -/
def checkContents : List Tree.TopLevel → Resolver Unit
  | [] => pure ()
  | .class declaration :: rest => do
      checkMembers declaration.members
      checkContents rest
  | .member declaration :: rest => do
      checkMembers [declaration]
      checkContents rest

def resolveFile (file : Tree.File) : Resolver Unit := do
  declareFile file
  checkContents file.declarations

end Gloss.Resolver
