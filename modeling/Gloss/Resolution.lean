import Gloss.Grammar.Reading
import Gloss.Resolution.Checking
import Gloss.Tree.Context

/-!
# Resolved files

A resolution answers questions about a file whose names are resolved: what a
reference means, which type an expression has, what a declaration declares.
Nodes are asked for by their kind and span.
-/

namespace Gloss

/-- A file with everything that resolving it has found. -/
structure Resolution where
  file : Tree.File
  text : List Char
  name : String
  state : ResolutionState

namespace Resolution

def ofFile (name : String) (text : List Char) (file : Tree.File) : Resolution where
  file
  text
  name
  state := ((Resolver.resolveFile file).run .initial).2

def read (name : String) (text : List Char) : Except Fault Resolution :=
  (Grammar.read name text).map (ofFile name text)

/-- What was found wrong with the names and types, in the order in which it was
found. -/
def diagnostics (resolution : Resolution) : List Diagnostic :=
  resolution.state.diagnostics

def describe (resolution : Resolution) (descriptor : Descriptor) : String :=
  descriptor.render resolution.state.inferred

def describeOption (resolution : Resolution) (descriptor : Option Descriptor) : String :=
  Descriptor.renderOption resolution.state.inferred descriptor

def declarationAt? (resolution : Resolution) (position : Int) : Option NodeRef :=
  (resolution.file.innermost? NodeKind.isDeclaration position).map Occurrence.ref

def referenceAt? (resolution : Resolution) (position : Int) : Option NodeRef :=
  (resolution.file.innermost? NodeKind.isReference position).map Occurrence.ref

def expressionAt? (resolution : Resolution) (position : Int) : Option NodeRef :=
  (resolution.file.innermost? NodeKind.isExpression position).map Occurrence.ref

def target? (resolution : Resolution) (reference : NodeRef) : Option Descriptor :=
  resolution.state.bindings.targets.get? reference

def candidates? (resolution : Resolution) (reference : NodeRef) : Option (List Descriptor) :=
  resolution.state.bindings.ambiguous.get? reference

def targetDeclaration? (resolution : Resolution) (reference : NodeRef) : Option NodeRef :=
  (resolution.target? reference).bind fun target =>
    target.unwrapVariable.generic.declaration

def isAmbiguous (resolution : Resolution) (reference : NodeRef) : Bool :=
  resolution.state.bindings.isAmbiguous reference

def isUnresolved (resolution : Resolution) (reference : NodeRef) : Bool :=
  resolution.state.bindings.isUnresolved reference

def type? (resolution : Resolution) (node : NodeRef) : Option NominalType :=
  resolution.state.types.get? node

def descriptor? (resolution : Resolution) (declaration : NodeRef) : Option Descriptor :=
  resolution.state.declarations.get? declaration

/-- The parameter that a constructor parameter declares, property or not. -/
def constructorParameter? (resolution : Resolution) (declaration : NodeRef) :
    Option Descriptor :=
  resolution.state.constructorParameters.get? declaration

def typeConstructor? (resolution : Resolution) (declaration : NodeRef) :
    Option TypeConstructor :=
  (resolution.descriptor? declaration).bind Descriptor.typeConstructor?

def context (resolution : Resolution) (node : NodeRef) : NodeContext :=
  match resolution.file.occurrence? node with
  | some occurrence => occurrence.context resolution.text
  | none => { text := "", location := "" }

end Resolution

end Gloss
