import Gloss.Resolution.State

/-!
# Written types

`TypeRef.denote` is the type that a written type means, given what the names of
types mean.  `Resolver.resolveType` records this for the written type and for
every type inside of it, together with the meanings of the names.
-/

namespace Gloss

/-- What a name of a type means, if it means anything. -/
abbrev Classifiers := String → Option (Symbol Descriptor)

namespace Tree.TypeRef

mutual

/-- The type that a written type means; the error type for an unknown name. -/
def denote (classifiers : Classifiers) : TypeRef → NominalType
  | .named _ nullable name _ arguments =>
      match (classifiers name).bind fun symbol => symbol.descriptor.typeConstructor? with
      | none => .error
      | some constructor =>
          { constructor, arguments := denoteAll classifiers arguments, nullable }
  | .function _ nullable parameters result =>
      Library.functionType (denoteAll classifiers parameters) (denote classifiers result)
        nullable

def denoteAll (classifiers : Classifiers) : List TypeRef → List NominalType
  | [] => []
  | type :: rest => denote classifiers type :: denoteAll classifiers rest

end

def node (type : TypeRef) : NodeRef := (Node.type type).ref

end Tree.TypeRef

namespace ResolutionState

def classifiers (state : ResolutionState) (scope : Nat) : Classifiers :=
  state.scopes.classifier? scope

end ResolutionState

namespace Resolver

def expectedArguments? (symbol : Symbol Descriptor) : Option Nat :=
  match symbol.kind, symbol.descriptor with
  | .class, .class descriptor => some descriptor.typeParameters.length
  | _, _ => none

/-- Records the meaning of the name of a written type with some arguments. -/
def resolveTypeName (scope : Nat) (node : NodeRef) (name : String) (arguments : Nat) :
    Resolver Unit := do
  let state ← get
  match state.classifiers scope name with
  | none => unresolved node name
  | some symbol => do
      record node symbol.descriptor
      match expectedArguments? symbol with
      | none => pure ()
      | some expected =>
          if arguments = expected then pure ()
          else report (.wrongTypeArguments name expected arguments) node

mutual

def resolveType (scope : Nat) : Tree.TypeRef → Resolver NominalType
  | .named span nullable name nameSpan arguments => do
      let type := Tree.TypeRef.named span nullable name nameSpan arguments
      resolveTypes scope arguments
      resolveTypeName scope type.node name arguments.length
      let state ← get
      typed type.node (type.denote (state.classifiers scope))
  | .function span nullable parameters result => do
      let type := Tree.TypeRef.function span nullable parameters result
      resolveTypes scope parameters
      let _ ← resolveType scope result
      noteArity parameters.length
      let state ← get
      typed type.node (type.denote (state.classifiers scope))

def resolveTypes (scope : Nat) : List Tree.TypeRef → Resolver Unit
  | [] => pure ()
  | type :: rest => do
      let _ ← resolveType scope type
      resolveTypes scope rest

end

def resolveType? (scope : Nat) : Option Tree.TypeRef → Resolver (Option NominalType)
  | none => return none
  | some type => return some (← resolveType scope type)

end Resolver

end Gloss
