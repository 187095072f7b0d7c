import Gloss.Text.Basic
import Gloss.Typing.NominalType

/-!
# Descriptors

A descriptor is what a name means: a class, a function, a variable and so on.
Descriptors of a file name the node that declares them; descriptors of the
library do not.  The type of a function or a property may be left open until
it is inferred, so rendering takes the types inferred so far.
-/

namespace Gloss

abbrev InferredTypes := Table NodeRef NominalType

/-- A type parameter; the container is the class that declares it, if one does. -/
structure TypeParameterDescriptor where
  name : String
  declaration : Option NodeRef
  container : Option String
  constructor : TypeConstructor
  deriving DecidableEq, Repr

structure ClassDescriptor where
  name : String
  declaration : Option NodeRef
  constructor : TypeConstructor
  typeParameters : List TypeParameterDescriptor
  deriving DecidableEq, Repr

structure ParameterDescriptor where
  name : String
  declaration : Option NodeRef
  type : NominalType
  index : Nat
  deriving DecidableEq, Repr

/-- A function; the container is the class that it is a member of. -/
structure FunctionDescriptor where
  name : String
  declaration : Option NodeRef
  container : Option String
  typeParameters : List TypeParameterDescriptor
  parameters : List ParameterDescriptor
  returnType : Option NominalType
  deriving DecidableEq, Repr

/-- A generic function as it is seen at one call. -/
structure SpecializedFunction where
  generic : FunctionDescriptor
  substitution : Substitution
  returnType : Option NominalType
  deriving DecidableEq, Repr

structure PropertyDescriptor where
  name : String
  declaration : Option NodeRef
  container : Option String
  type : Option NominalType
  binding : Tree.Binding
  deriving DecidableEq, Repr

structure LocalDescriptor where
  name : String
  declaration : Option NodeRef
  type : NominalType
  binding : Tree.Binding
  deriving DecidableEq, Repr

inductive ParameterOwner where
  | «class» (owner : ClassDescriptor)
  | function (owner : FunctionDescriptor)
  | specialized (owner : SpecializedFunction)
  deriving DecidableEq, Repr

inductive VariableDescriptor where
  | parameter (owner : ParameterOwner) (parameter : ParameterDescriptor)
  | property (property : PropertyDescriptor)
  | local (descriptor : LocalDescriptor)
  deriving DecidableEq, Repr

/-- What a name can mean. -/
inductive Descriptor where
  | «class» (descriptor : ClassDescriptor)
  | typeParameter (descriptor : TypeParameterDescriptor)
  | function (descriptor : FunctionDescriptor)
  | specialized (descriptor : SpecializedFunction)
  | variable (descriptor : VariableDescriptor)
  | invoke (called : VariableDescriptor) (functionType : NominalType)
  /-- A member of something that has no meaning itself. -/
  | error (name : String)
  deriving DecidableEq, Repr

def qualified (container : Option String) (name : String) : String :=
  match container with
  | none => name
  | some owner => owner ++ "." ++ name

namespace ClassDescriptor

def defaultType (descriptor : ClassDescriptor) : NominalType :=
  { constructor := descriptor.constructor
    arguments := descriptor.typeParameters.map fun parameter =>
      { constructor := parameter.constructor } }

def render (descriptor : ClassDescriptor) : String := "class " ++ descriptor.name

end ClassDescriptor

namespace FunctionDescriptor

def returnType? (inferred : InferredTypes) (descriptor : FunctionDescriptor) :
    Option NominalType :=
  match descriptor.returnType with
  | some type => some type
  | none => descriptor.declaration.bind inferred.get?

def signature (typeParameters : List String) (name : String)
    (parameters : List ParameterDescriptor) (returnType : Option NominalType) : String :=
  let generic := if typeParameters.isEmpty then ""
    else "<" ++ Text.joined ", " typeParameters ++ "> "
  let inner := Text.joined ", "
    (parameters.map fun parameter => parameter.name ++ ": " ++ parameter.type.render)
  "fun " ++ generic ++ name ++ "(" ++ inner ++ "): " ++
    ((returnType.map NominalType.render).getD "?")

def render (inferred : InferredTypes) (descriptor : FunctionDescriptor) : String :=
  signature (descriptor.typeParameters.map TypeParameterDescriptor.name)
    (qualified descriptor.container descriptor.name) descriptor.parameters
    (descriptor.returnType? inferred)

/-- The function with its type parameters replaced, its return type being known
as given. -/
def specialize (inferred : InferredTypes) (descriptor : FunctionDescriptor)
    (substitution : Substitution) : SpecializedFunction where
  generic := descriptor
  substitution
  returnType := (descriptor.returnType? inferred).map (NominalType.substitute substitution)

end FunctionDescriptor

namespace SpecializedFunction

def parameters (descriptor : SpecializedFunction) : List ParameterDescriptor :=
  descriptor.generic.parameters.map fun parameter =>
    { parameter with type := parameter.type.substitute descriptor.substitution }

def render (descriptor : SpecializedFunction) : String :=
  FunctionDescriptor.signature []
    (qualified descriptor.generic.container descriptor.generic.name)
    descriptor.parameters descriptor.returnType

end SpecializedFunction

namespace ParameterOwner

def render (inferred : InferredTypes) : ParameterOwner → String
  | .class owner => owner.render
  | .function owner => owner.render inferred
  | .specialized owner => owner.render

end ParameterOwner

namespace VariableDescriptor

def name : VariableDescriptor → String
  | .parameter _ declared => declared.name
  | .property declared => declared.name
  | .local declared => declared.name

def declaration : VariableDescriptor → Option NodeRef
  | .parameter _ declared => declared.declaration
  | .property declared => declared.declaration
  | .local declared => declared.declaration

/-- The name of the variable, after that of its class.  A constructor parameter
counts as a part of its class. -/
def qualifiedName : VariableDescriptor → String
  | .parameter (.class owner) declared => qualified (some owner.name) declared.name
  | .parameter _ declared => declared.name
  | .property declared => qualified declared.container declared.name
  | .local declared => declared.name

def type? (inferred : InferredTypes) : VariableDescriptor → Option NominalType
  | .parameter _ declared => some declared.type
  | .property declared =>
      match declared.type with
      | some type => some type
      | none => declared.declaration.bind inferred.get?
  | .local declared => some declared.type

def render (inferred : InferredTypes) (descriptor : VariableDescriptor) : String :=
  let type := ((descriptor.type? inferred).map NominalType.render).getD "None"
  match descriptor with
  | .parameter owner declared =>
      "value parameter " ++ declared.name ++ ": " ++ type ++ " of " ++ owner.render inferred
  | .property declared =>
      declared.binding.keyword ++ " " ++ descriptor.qualifiedName ++ ": " ++ type
  | .local declared =>
      "local " ++ declared.binding.keyword ++ " " ++ declared.name ++ ": " ++ type

end VariableDescriptor

namespace Descriptor

def name : Descriptor → String
  | .class declared => declared.name
  | .typeParameter declared => declared.name
  | .function declared => declared.name
  | .specialized declared => declared.generic.name
  | .variable declared => declared.name
  | .invoke called _ => called.name
  | .error missing => missing

def declaration : Descriptor → Option NodeRef
  | .class declared => declared.declaration
  | .typeParameter declared => declared.declaration
  | .function declared => declared.declaration
  | .specialized declared => declared.generic.declaration
  | .variable declared => declared.declaration
  | .invoke called _ => called.declaration
  | .error _ => none

def qualifiedName : Descriptor → String
  | .class declared => declared.name
  | .typeParameter declared => qualified declared.container declared.name
  | .function declared => qualified declared.container declared.name
  | .specialized declared => qualified declared.generic.container declared.generic.name
  | .variable declared => declared.qualifiedName
  | .invoke called _ => called.qualifiedName
  | .error missing => missing

/-- The generic form of a specialized function; of anything else, itself. -/
def generic : Descriptor → Descriptor
  | .specialized declared => .function declared.generic
  | other => other

/-- The variable that a call goes through; of anything else, itself. -/
def unwrapVariable : Descriptor → Descriptor
  | .invoke called _ => .variable called
  | other => other

def isError : Descriptor → Bool
  | .error _ => true
  | _ => false

def typeConstructor? : Descriptor → Option TypeConstructor
  | .class declared => some declared.constructor
  | .typeParameter declared => some declared.constructor
  | _ => none

def render (inferred : InferredTypes) : Descriptor → String
  | .class declared => declared.render
  | .typeParameter declared =>
      "type parameter " ++ qualified declared.container declared.name
  | .function declared => declared.render inferred
  | .specialized declared => declared.render
  | .variable declared => declared.render inferred
  | .invoke called _ => "invoke of " ++ called.render inferred
  | .error missing => "[error: " ++ missing ++ "]"

def renderOption (inferred : InferredTypes) : Option Descriptor → String
  | none => "null"
  | some descriptor => descriptor.render inferred

end Descriptor

end Gloss
