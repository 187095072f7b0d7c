import Gloss.Resolution.Bindings
import Gloss.Resolution.Problem
import Gloss.Resolution.Scope
import Gloss.Typing.Library

/-!
# The state of a resolution

What is known about a file while its names are resolved, and the single steps
that add to it.  Nodes are known by their kind and span.
-/

namespace Gloss

/-- A body or an initializer whose type is inferred on first use. -/
structure Deferred where
  name : String
  body : Tree.Expr
  scope : Nat

/-- What is known about a file. -/
structure ResolutionState where
  scopes : Scopes Descriptor
  classes : Table TypeConstructor ClassEntry
  bindings : Bindings NodeRef Descriptor
  types : Table NodeRef NominalType
  declarations : Table NodeRef Descriptor
  constructorParameters : Table NodeRef Descriptor
  headerScopes : Table NodeRef Nat
  functionScopes : Table NodeRef Nat
  initializerScopes : Table NodeRef Nat
  deferred : Table NodeRef Deferred
  inferred : InferredTypes
  /-- The numbers of parameters of the function types met so far. -/
  functionArities : List Nat
  diagnostics : List Diagnostic

abbrev Resolver := StateM ResolutionState

namespace ResolutionState

def libraryScope : Nat := 0

def fileScope : Nat := 1

def librarySymbols : List (Symbol Descriptor) :=
  Library.classes.map (fun entry =>
      { name := entry.descriptor.name, kind := .class, descriptor := .class entry.descriptor }) ++
    Library.functions.map (fun declared =>
      { name := declared.name, kind := .function, descriptor := .function declared })

def libraryScopes : Scopes Descriptor :=
  librarySymbols.foldl (fun scopes symbol => scopes.define libraryScope symbol)
    (.root "std" "std")

def initial : ResolutionState where
  scopes := libraryScopes.openIn libraryScope "file" "file"
  classes := .empty
  bindings := .empty
  types := .empty
  declarations := .empty
  constructorParameters := .empty
  headerScopes := .empty
  functionScopes := .empty
  initializerScopes := .empty
  deferred := .empty
  inferred := .empty
  functionArities := []
  diagnostics := []

def class? (state : ResolutionState) (constructor : TypeConstructor) : Option ClassEntry :=
  match constructor.origin with
  | .function arity => some { descriptor := Library.functionClass arity }
  | .library _ =>
      Library.classes.find? fun entry => entry.descriptor.constructor = constructor
  | .declared _ => state.classes.get? constructor
  | _ => none

end ResolutionState

namespace Resolver

def report (problem : Problem) (node : NodeRef) : Resolver Unit :=
  modify fun state =>
    { state with diagnostics := state.diagnostics ++ [{ problem, node }] }

def record (reference : NodeRef) (target : Descriptor) : Resolver Unit :=
  modify fun state => { state with bindings := state.bindings.record reference target }

def markAmbiguous (reference : NodeRef) (candidates : List Descriptor) : Resolver Unit :=
  modify fun state =>
    { state with bindings := state.bindings.markAmbiguous reference candidates }

def markUnresolved (reference : NodeRef) : Resolver Unit :=
  modify fun state => { state with bindings := state.bindings.markUnresolved reference }

/-- Marks a reference as unresolved and reports the name that means nothing. -/
def unresolved (reference : NodeRef) (name : String) : Resolver Unit := do
  markUnresolved reference
  report (.unresolvedReference name) reference

def recordType (node : NodeRef) (type : NominalType) : Resolver Unit :=
  modify fun state => { state with types := state.types.insert node type }

def typed (node : NodeRef) (type : NominalType) : Resolver NominalType := do
  recordType node type
  return type

/-- Reports a mismatch at a node unless the actual type fits the expected one. -/
def expect (actual expected : NominalType) (node : NodeRef) : Resolver Unit :=
  if actual.isSubtype expected then pure ()
  else report (.typeMismatch actual expected) node

/-- Notes that a function type with the given number of parameters is in use. -/
def noteArity (arity : Nat) : Resolver Unit :=
  modify fun state =>
    if arity ∈ state.functionArities then state
    else { state with functionArities := state.functionArities ++ [arity] }

def openScope (parent : Nat) (name kind : String) : Resolver Nat :=
  modifyGet fun state =>
    (state.scopes.size, { state with scopes := state.scopes.openIn parent name kind })

def define (scope : Nat) (symbol : Symbol Descriptor) (node : NodeRef) : Resolver Unit := do
  let state ← get
  match state.scopes.conflict? scope symbol with
  | some _ => report (.redeclaration symbol.name) node
  | none => pure ()
  modify fun state => { state with scopes := state.scopes.define scope symbol }

def declare (node : NodeRef) (descriptor : Descriptor) : Resolver Unit :=
  modify fun state =>
    { state with declarations := state.declarations.insert node descriptor }

def updateClass (constructor : TypeConstructor) (change : ClassEntry → ClassEntry) :
    Resolver Unit :=
  modify fun state =>
    match state.classes.get? constructor with
    | none => state
    | some entry => { state with classes := state.classes.insert constructor (change entry) }

end Resolver

end Gloss
