import Gloss.Proofs.Order.Likeness
import Gloss.Resolution.Declarations

/-!
# What declarations say

What the head of a declaration introduces, and what is written down about it, can be
told from the meanings of the names of types around it.  Only the conflicts with other
symbols depend on what was declared before.
-/

namespace Gloss

/-- A symbol and the node that introduces it. -/
structure Introduction where
  symbol : Symbol Descriptor
  node : NodeRef

namespace Introduction

/-- The remark that declares what is introduced. -/
def declared (introduction : Introduction) : Remark :=
  .declared introduction.node introduction.symbol.descriptor

/-- What is reported where a symbol is introduced on a level. -/
def clash (level : List (Symbol Descriptor)) (introduction : Introduction) : List Remark :=
  match (level.filter fun earlier => earlier.name = introduction.symbol.name).find? fun earlier =>
      !(introduction.symbol.kind = .function && earlier.kind = .function) with
  | some _ =>
      [.problem
        { problem := .redeclaration introduction.symbol.name, node := introduction.node }]
  | none => []

/-- What is written down where symbols are introduced one after the other. -/
def remarksOfAll (level : List (Symbol Descriptor)) : List Introduction → List Remark
  | [] => []
  | first :: rest =>
      first.clash level ++ first.declared :: remarksOfAll (level ++ [first.symbol]) rest

end Introduction

/-- What the names of types mean inside of a level. -/
def Classifiers.inside (outer : Classifiers) (level : List (Symbol Descriptor)) : Classifiers :=
  fun name =>
    ((level.filter fun symbol => symbol.name = name).filter
      fun symbol => symbol.kind.isClassifier).head?.or (outer name)

namespace Tree

def TypeRef.remarksOf? (classifiers : Classifiers) (type : Option TypeRef) : List Remark :=
  (type.map (TypeRef.remarks classifiers)).getD []

namespace TypeParameter

def describe (container : Option String) (parameter : TypeParameter) :
    TypeParameterDescriptor where
  name := parameter.name
  declaration := some (Node.typeParameter parameter).ref
  container
  constructor :=
    { origin := .declared (Node.typeParameter parameter).ref, name := parameter.name
      kind := .typeParameter }

def introduction (container : Option String) (parameter : TypeParameter) : Introduction where
  symbol :=
    { name := parameter.name, kind := .typeParameter
      descriptor := .typeParameter (parameter.describe container) }
  node := (Node.typeParameter parameter).ref

end TypeParameter

namespace Function

def typeParameterIntroductions (function : Function) : List Introduction :=
  function.typeParameters.map (TypeParameter.introduction none)

variable (owner : Option ClassDescriptor) (classifiers : Classifiers) (function : Function)

/-- What the names of types mean in the head and the body of a function. -/
def inner : Classifiers :=
  classifiers.inside (function.typeParameterIntroductions.map Introduction.symbol)

def describe : FunctionDescriptor where
  name := function.name
  declaration := some (Node.function function).ref
  container := owner.map ClassDescriptor.name
  typeParameters := function.typeParameters.map (TypeParameter.describe none)
  parameters := Resolver.describeParameters (function.inner classifiers) function.parameters
  returnType := Resolver.describeReturnType (function.inner classifiers) function

def introduction : Introduction where
  symbol :=
    { name := function.name, kind := .function
      descriptor := .function (function.describe owner classifiers) }
  node := (Node.function function).ref

end Function

/-- A parameter as the descriptor of its function knows it. -/
def parameterIntroduction (function : FunctionDescriptor)
    (parameter : ValueParameter × ParameterDescriptor) : Introduction where
  symbol :=
    { name := parameter.1.name, kind := .parameter
      descriptor := .variable (.parameter (.function function) parameter.2) }
  node := (Node.valueParameter parameter.1).ref

def parameterRemarks (classifiers : Classifiers) (function : FunctionDescriptor)
    (level : List (Symbol Descriptor)) :
    List (ValueParameter × ParameterDescriptor) → List Remark
  | [] => []
  | first :: rest =>
      let introduction := parameterIntroduction function first
      first.1.type.remarks classifiers ++ (introduction.clash level ++ introduction.declared ::
        parameterRemarks classifiers function (level ++ [introduction.symbol]) rest)

namespace Function

variable (owner : Option ClassDescriptor) (classifiers : Classifiers) (function : Function)

def described : List (ValueParameter × ParameterDescriptor) :=
  function.parameters.zip (function.describe owner classifiers).parameters

/-- The symbols that are seen in a function only. -/
def level : List (Symbol Descriptor) :=
  function.typeParameterIntroductions.map Introduction.symbol ++
    ((function.described owner classifiers).map
      (parameterIntroduction (function.describe owner classifiers))).map Introduction.symbol

def headRemarks : List Remark :=
  Introduction.remarksOfAll [] function.typeParameterIntroductions ++
    (parameterRemarks (function.inner classifiers) (function.describe owner classifiers)
        (function.typeParameterIntroductions.map Introduction.symbol)
        (function.described owner classifiers) ++
      TypeRef.remarksOf? (function.inner classifiers) function.returnType)

end Function

namespace Property

variable (owner : Option ClassDescriptor) (classifiers : Classifiers) (property : Property)

/-- The type of a property as far as it is clear without its initializer. -/
def describeType : Option NominalType :=
  match property.type, property.initializer with
  | some type, _ => some (type.denote classifiers)
  | none, some _ => none
  | none, none => some .error

def describe : PropertyDescriptor where
  name := property.name
  declaration := some (Node.property property).ref
  container := owner.map ClassDescriptor.name
  type := property.describeType classifiers
  binding := property.binding

def introduction : Introduction where
  symbol :=
    { name := property.name, kind := .property
      descriptor := .variable (.property (property.describe owner classifiers)) }
  node := (Node.property property).ref

/-- What is reported about a property with neither a type nor an initializer. -/
def missingType : List Remark :=
  match property.type, property.initializer with
  | none, none =>
      [.problem
        { problem := .missingPropertyType property.name, node := (Node.property property).ref }]
  | _, _ => []

def headRemarks : List Remark :=
  TypeRef.remarksOf? classifiers property.type ++ property.missingType

end Property

namespace Member

variable (owner : Option ClassDescriptor) (classifiers : Classifiers)

def introduction : Member → Introduction
  | .function declared => declared.introduction owner classifiers
  | .property declared => declared.introduction owner classifiers

def headRemarks : Member → List Remark
  | .function declared => declared.headRemarks owner classifiers
  | .property declared => declared.headRemarks classifiers

/-- What is written down where a member is declared on a level. -/
def remarks (level : List (Symbol Descriptor)) (member : Member) : List Remark :=
  member.headRemarks owner classifiers ++ ((member.introduction owner classifiers).clash level ++
    [(member.introduction owner classifiers).declared])

/-- What is written down where members are declared one after the other. -/
def remarksOfAll (level : List (Symbol Descriptor)) : List Member → List Remark
  | [] => []
  | first :: rest =>
      first.remarks owner classifiers level ++
        remarksOfAll (level ++ [(first.introduction owner classifiers).symbol]) rest

end Member

namespace ConstructorParameter

variable (owner : ClassDescriptor) (classifiers : Classifiers) (index : Nat)
  (parameter : ConstructorParameter)

def describe : ParameterDescriptor where
  name := parameter.name
  declaration := some (Node.constructorParameter parameter).ref
  type := parameter.type.denote classifiers
  index

/-- The parameter of the constructor. -/
def introduction : Introduction where
  symbol :=
    { name := parameter.name, kind := .parameter
      descriptor := .variable (.parameter (.class owner) (parameter.describe classifiers index)) }
  node := (Node.constructorParameter parameter).ref

def describeProperty (binding : Binding) : Descriptor :=
  .variable (.property
    { name := parameter.name, declaration := some (Node.constructorParameter parameter).ref
      container := some owner.name, type := some (parameter.type.denote classifiers), binding })

/-- The property of the class, if the parameter is one. -/
def property : Option Introduction :=
  parameter.binding.map fun binding =>
    { symbol :=
        { name := parameter.name, kind := .property
          descriptor := parameter.describeProperty owner classifiers binding }
      node := (Node.constructorParameter parameter).ref }

/-- What the parameter declares: the property, if it is one. -/
def declared : Introduction :=
  (parameter.property owner classifiers).getD (parameter.introduction owner classifiers index)

/-- What is written down where a parameter is declared in a constructor and a class. -/
def remarks (constructor members : List (Symbol Descriptor)) : List Remark :=
  parameter.type.remarks classifiers ++
    ((parameter.introduction owner classifiers index).clash constructor ++
      (((parameter.property owner classifiers).toList.flatMap (Introduction.clash members)) ++
        [(parameter.declared owner classifiers index).declared]))

def describeAll : Nat → List ConstructorParameter → List ParameterDescriptor
  | _, [] => []
  | index, first :: rest => first.describe classifiers index :: describeAll (index + 1) rest

def introductions : Nat → List ConstructorParameter → List Introduction
  | _, [] => []
  | index, first :: rest =>
      first.introduction owner classifiers index :: introductions (index + 1) rest

def properties (parameters : List ConstructorParameter) : List Introduction :=
  parameters.flatMap fun parameter => (parameter.property owner classifiers).toList

def remarksOfAll (constructor members : List (Symbol Descriptor)) :
    Nat → List ConstructorParameter → List Remark
  | _, [] => []
  | index, first :: rest =>
      first.remarks owner classifiers index constructor members ++
        remarksOfAll (constructor ++ [(first.introduction owner classifiers index).symbol])
          (members ++ (first.property owner classifiers).toList.map Introduction.symbol)
          (index + 1) rest

end ConstructorParameter

namespace Class

variable (classifiers : Classifiers) (declaration : Class)

def header : List Introduction :=
  declaration.typeParameters.map (TypeParameter.introduction (some declaration.name))

/-- What the names of types mean in a class. -/
def inner : Classifiers := classifiers.inside (declaration.header.map Introduction.symbol)

def describe : ClassDescriptor where
  name := declaration.name
  declaration := some (Node.class declaration).ref
  constructor :=
    { origin := .declared (Node.class declaration).ref, name := declaration.name, kind := .class }
  typeParameters :=
    declaration.typeParameters.map (TypeParameter.describe (some declaration.name))

def introduction : Introduction where
  symbol :=
    { name := declaration.name, kind := .class, descriptor := .class declaration.describe }
  node := (Node.class declaration).ref

/-- What is written down where a class is declared, as yet without members. -/
def headRemarks (level : List (Symbol Descriptor)) : List Remark :=
  Introduction.remarksOfAll [] declaration.header ++
    (declaration.introduction.clash level ++ [declaration.introduction.declared])

/-- The symbols that are seen where the initializers of properties are. -/
def constructorLevel : List (Symbol Descriptor) :=
  (ConstructorParameter.introductions declaration.describe (declaration.inner classifiers) 0
    declaration.constructorParameters).map Introduction.symbol

def properties : List Introduction :=
  ConstructorParameter.properties declaration.describe (declaration.inner classifiers)
    declaration.constructorParameters

/-- What the members of a class are and what its constructor declares beside them. -/
def memberIntroductions : List Introduction :=
  declaration.properties classifiers ++
    declaration.members.map
      (Member.introduction (some declaration.describe) (declaration.inner classifiers))

/-- What is written down where the members of a class are declared. -/
def contentRemarks : List Remark :=
  ConstructorParameter.remarksOfAll declaration.describe (declaration.inner classifiers) [] [] 0
      declaration.constructorParameters ++
    Member.remarksOfAll (some declaration.describe) (declaration.inner classifiers)
      ((declaration.properties classifiers).map Introduction.symbol) declaration.members

def entry : ClassEntry where
  descriptor := declaration.describe
  parameters :=
    ConstructorParameter.describeAll (declaration.inner classifiers) 0
      declaration.constructorParameters
  members := (declaration.memberIntroductions classifiers).map fun member => member.symbol.descriptor

end Class

namespace TopLevel

/-- The classes among some declarations. -/
def classes : List TopLevel → List Class
  | [] => []
  | .class declared :: rest => declared :: classes rest
  | .member _ :: rest => classes rest

/-- What is written down where classes are declared one after the other. -/
def classRemarks (level : List (Symbol Descriptor)) : List TopLevel → List Remark
  | [] => []
  | .class declared :: rest =>
      declared.headRemarks level ++ classRemarks (level ++ [declared.introduction.symbol]) rest
  | .member _ :: rest => classRemarks level rest

/-- What is written down where members are declared one after the other. -/
def contentRemarks (classifiers : Classifiers) (level : List (Symbol Descriptor)) :
    List TopLevel → List Remark
  | [] => []
  | .class declared :: rest =>
      declared.contentRemarks classifiers ++ contentRemarks classifiers level rest
  | .member declared :: rest =>
      declared.remarks none classifiers level ++
        contentRemarks classifiers (level ++ [(declared.introduction none classifiers).symbol]) rest

end TopLevel

end Tree

end Gloss
