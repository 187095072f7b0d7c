import Gloss.Resolution.WrittenType

/-!
# Declaring

The first half of a resolution gives every declaration a descriptor and a
place in a scope: first all classes with their type parameters, then the
members of classes, the functions and the properties in the order of the file.
-/

namespace Gloss.Resolver

def declareTypeParameters (scope : Nat) (container : Option String) :
    List Tree.TypeParameter → Resolver (List TypeParameterDescriptor)
  | [] => return []
  | parameter :: rest => do
      let node := (Node.typeParameter parameter).ref
      let descriptor : TypeParameterDescriptor :=
        { name := parameter.name, declaration := some node, container
          constructor :=
            { origin := .declared node, name := parameter.name, kind := .typeParameter } }
      define scope
        { name := parameter.name, kind := .typeParameter
          descriptor := .typeParameter descriptor } node
      declare node (.typeParameter descriptor)
      let later ← declareTypeParameters scope container rest
      return descriptor :: later

/-- Declares a class with its type parameters, as yet without members. -/
def declareClass (declaration : Tree.Class) : Resolver Unit := do
  let node := (Node.class declaration).ref
  let header ← openScope ResolutionState.fileScope ("class " ++ declaration.name) "class"
  let typeParameters ←
    declareTypeParameters header (some declaration.name) declaration.typeParameters
  let descriptor : ClassDescriptor :=
    { name := declaration.name, declaration := some node
      constructor := { origin := .declared node, name := declaration.name, kind := .class }
      typeParameters }
  define ResolutionState.fileScope
    { name := declaration.name, kind := .class, descriptor := .class descriptor } node
  declare node (.class descriptor)
  modify fun state =>
    { state with
      classes := state.classes.insert descriptor.constructor { descriptor }
      headerScopes := state.headerScopes.insert node header }

def addMember (owner : Option ClassDescriptor) (member : Descriptor) : Resolver Unit :=
  match owner with
  | none => pure ()
  | some descriptor =>
      updateClass descriptor.constructor fun entry =>
        { entry with members := entry.members ++ [member] }

/-- Declares the parameters of a function, whose descriptors belong to it. -/
def declareParameters (scope : Nat) (function : FunctionDescriptor) :
    List (Tree.ValueParameter × ParameterDescriptor) → Resolver Unit
  | [] => pure ()
  | (parameter, described) :: rest => do
      let node := (Node.valueParameter parameter).ref
      let descriptor : Descriptor := .variable (.parameter (.function function) described)
      let _ ← resolveType scope parameter.type
      define scope { name := parameter.name, kind := .parameter, descriptor } node
      declare node descriptor
      declareParameters scope function rest

def describeParameters (classifiers : Classifiers) (parameters : List Tree.ValueParameter) :
    List ParameterDescriptor :=
  parameters.mapIdx fun index parameter =>
    { name := parameter.name, declaration := some (Node.valueParameter parameter).ref
      type := parameter.type.denote classifiers, index }

/-- The return type as far as it is clear without looking at an expression. -/
def describeReturnType (classifiers : Classifiers) (function : Tree.Function) :
    Option NominalType :=
  match function.returnType, function.body with
  | some type, _ => some (type.denote classifiers)
  | none, .block _ => some Library.unit
  | none, .expression _ => none

def defer (node : NodeRef) (name : String) (body : Tree.Expr) (scope : Nat) : Resolver Unit :=
  modify fun state =>
    { state with deferred := state.deferred.insert node { name, body, scope } }

def declareFunction (scope : Nat) (owner : Option ClassDescriptor) (function : Tree.Function) :
    Resolver Unit := do
  let node := (Node.function function).ref
  let inner ← openScope scope ("fun " ++ function.name) "function"
  let typeParameters ← declareTypeParameters inner none function.typeParameters
  let state ← get
  let classifiers := state.classifiers inner
  let parameters := describeParameters classifiers function.parameters
  let descriptor : FunctionDescriptor :=
    { name := function.name, declaration := some node
      container := owner.map ClassDescriptor.name, typeParameters, parameters
      returnType := describeReturnType classifiers function }
  declareParameters inner descriptor (function.parameters.zip parameters)
  let _ ← resolveType? inner function.returnType
  define scope
    { name := function.name, kind := .function, descriptor := .function descriptor } node
  addMember owner (.function descriptor)
  declare node (.function descriptor)
  modify fun state =>
    { state with functionScopes := state.functionScopes.insert node inner }
  match function.returnType, function.body with
  | none, .expression body => defer node function.name body inner
  | _, _ => pure ()

/-- The type of a property as far as it is clear without looking at its
initializer. -/
def describePropertyType (property : Tree.Property) (written : Option NominalType) :
    Resolver (Option NominalType) :=
  match written, property.initializer with
  | some type, _ => return some type
  | none, some _ => return none
  | none, none => do
      report (.missingPropertyType property.name) (Node.property property).ref
      return some .error

/-- Declares a property of a file or a class; its initializer sees another
scope than its type. -/
def declareProperty (scope initializerScope : Nat) (owner : Option ClassDescriptor)
    (property : Tree.Property) : Resolver Unit := do
  let node := (Node.property property).ref
  let written ← resolveType? scope property.type
  let type ← describePropertyType property written
  let descriptor : Descriptor :=
    .variable (.property
      { name := property.name, declaration := some node
        container := owner.map ClassDescriptor.name, type, binding := property.binding })
  define scope { name := property.name, kind := .property, descriptor } node
  addMember owner descriptor
  declare node descriptor
  modify fun state =>
    { state with
      initializerScopes := state.initializerScopes.insert node initializerScope }
  match property.type, property.initializer with
  | none, some initializer => defer node property.name initializer initializerScope
  | _, _ => pure ()

/-- Makes a constructor parameter known to its class and in the constructor. -/
def nameConstructorParameter (constructor : Nat) (owner : ClassDescriptor) (node : NodeRef)
    (described : ParameterDescriptor) : Resolver Unit := do
  let descriptor : Descriptor := .variable (.parameter (.class owner) described)
  updateClass owner.constructor fun entry =>
    { entry with parameters := entry.parameters ++ [described] }
  modify fun state =>
    { state with
      constructorParameters := state.constructorParameters.insert node descriptor }
  define constructor { name := described.name, kind := .parameter, descriptor } node

/-- Declares constructor parameters from an index on.  One with a binding is a
property of the class too. -/
def declareConstructorParameters (header members constructor : Nat)
    (owner : ClassDescriptor) : (index : Nat) → List Tree.ConstructorParameter → Resolver Unit
  | _, [] => pure ()
  | index, parameter :: rest => do
      let node := (Node.constructorParameter parameter).ref
      let type ← resolveType header parameter.type
      let described : ParameterDescriptor :=
        { name := parameter.name, declaration := some node, type, index }
      nameConstructorParameter constructor owner node described
      match parameter.binding with
      | none => declare node (.variable (.parameter (.class owner) described))
      | some binding => do
          let property : Descriptor :=
            .variable (.property
              { name := parameter.name, declaration := some node
                container := some owner.name, type := some type, binding })
          addMember (some owner) property
          define members
            { name := parameter.name, kind := .property, descriptor := property } node
          declare node property
      declareConstructorParameters header members constructor owner (index + 1) rest

def declareMember (scope initializerScope : Nat) (owner : Option ClassDescriptor) :
    Tree.Member → Resolver Unit
  | .function function => declareFunction scope owner function
  | .property property => declareProperty scope initializerScope owner property

def declareMembers (scope initializerScope : Nat) (owner : ClassDescriptor) :
    List Tree.Member → Resolver Unit
  | [] => pure ()
  | member :: rest => do
      declareMember scope initializerScope (some owner) member
      declareMembers scope initializerScope owner rest

/-- Declares what belongs to a class.  Initializers of properties see the
constructor parameters, the bodies of members do not. -/
def declareClassMembers (declaration : Tree.Class) : Resolver Unit := do
  let node := (Node.class declaration).ref
  let state ← get
  match state.declarations.get? node, state.headerScopes.get? node with
  | some (.class owner), some header => do
      let members ← openScope header ("members of " ++ declaration.name) "class"
      let constructor ←
        openScope members ("constructor of " ++ declaration.name) "constructor"
      declareConstructorParameters header members constructor owner 0
        declaration.constructorParameters
      declareMembers members constructor owner declaration.members
  | _, _ => pure ()

def declareClasses : List Tree.TopLevel → Resolver Unit
  | [] => pure ()
  | .class declaration :: rest => do
      declareClass declaration
      declareClasses rest
  | .member _ :: rest => declareClasses rest

/-- Declares the members of classes, the functions and the properties of a
file. -/
def declareContents : List Tree.TopLevel → Resolver Unit
  | [] => pure ()
  | .class declaration :: rest => do
      declareClassMembers declaration
      declareContents rest
  | .member declaration :: rest => do
      declareMember ResolutionState.fileScope ResolutionState.fileScope none declaration
      declareContents rest

def declareFile (file : Tree.File) : Resolver Unit := do
  declareClasses file.declarations
  declareContents file.declarations

end Gloss.Resolver
