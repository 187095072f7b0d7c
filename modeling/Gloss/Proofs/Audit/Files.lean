import Gloss.Proofs.Audit.Inference

/-!
# The audit of a file

Declaring and checking as an audit sees them.  The members of a class are
declared after the class, and bodies are checked after everything is declared:
each time the descriptor and the scope from before must be found again.  In a
block a visit is noted for every statement.
-/

namespace Gloss.Audit

/-! ### Declaring -/

def define (scope : Nat) (symbol : Symbol Descriptor) (node : NodeRef) : Audit Unit :=
  follow (Resolver.define scope symbol node)

def openScope (parent : Nat) (name kind : String) : Audit Nat :=
  follow (Resolver.openScope parent name kind)

def addMember (owner : Option ClassDescriptor) (member : Descriptor) : Audit Unit :=
  follow (Resolver.addMember owner member)

def defer (node : NodeRef) (name : String) (body : Tree.Expr) (scope : Nat) : Audit Unit :=
  follow (Resolver.defer node name body scope)

def declareTypeParameters (scope : Nat) (container : Option String) :
    List Tree.TypeParameter → Audit (List TypeParameterDescriptor)
  | [] => return []
  | parameter :: rest => do
      let node := (Node.typeParameter parameter).ref
      let descriptor : TypeParameterDescriptor :=
        { name := parameter.name, declaration := some node, container
          constructor :=
            { origin := .declared node, name := parameter.name, kind := .typeParameter } }
      define scope
        { name := parameter.name, kind := .typeParameter
          descriptor := .typeParameter descriptor } node
      declare node (.typeParameter descriptor)
      let later ← declareTypeParameters scope container rest
      return descriptor :: later

def declareClass (declaration : Tree.Class) : Audit Unit := do
  let node := (Node.class declaration).ref
  let header ← openScope ResolutionState.fileScope ("class " ++ declaration.name) "class"
  let typeParameters ←
    declareTypeParameters header (some declaration.name) declaration.typeParameters
  let descriptor : ClassDescriptor :=
    { name := declaration.name, declaration := some node
      constructor := { origin := .declared node, name := declaration.name, kind := .class }
      typeParameters }
  define ResolutionState.fileScope
    { name := declaration.name, kind := .class, descriptor := .class descriptor } node
  declare node (.class descriptor)
  follow (modify fun state =>
    { state with
      classes := state.classes.insert descriptor.constructor { descriptor }
      headerScopes := state.headerScopes.insert node header })

def declareParameters (scope : Nat) (function : FunctionDescriptor) :
    List (Tree.ValueParameter × ParameterDescriptor) → Audit Unit
  | [] => pure ()
  | (parameter, described) :: rest => do
      let node := (Node.valueParameter parameter).ref
      let descriptor : Descriptor := .variable (.parameter (.function function) described)
      let _ ← resolveType scope parameter.type
      define scope { name := parameter.name, kind := .parameter, descriptor } node
      declare node descriptor
      declareParameters scope function rest

def declareFunction (scope : Nat) (owner : Option ClassDescriptor) (function : Tree.Function) :
    Audit Unit := do
  let node := (Node.function function).ref
  let inner ← openScope scope ("fun " ++ function.name) "function"
  let typeParameters ← declareTypeParameters inner none function.typeParameters
  let state ← current
  let classifiers := state.classifiers inner
  let parameters := Resolver.describeParameters classifiers function.parameters
  let descriptor : FunctionDescriptor :=
    { name := function.name, declaration := some node
      container := owner.map ClassDescriptor.name, typeParameters, parameters
      returnType := Resolver.describeReturnType classifiers function }
  declareParameters inner descriptor (function.parameters.zip parameters)
  let _ ← resolveType? inner function.returnType
  define scope
    { name := function.name, kind := .function, descriptor := .function descriptor } node
  addMember owner (.function descriptor)
  declare node (.function descriptor)
  follow (modify fun state =>
    { state with functionScopes := state.functionScopes.insert node inner })
  match function.returnType, function.body with
  | none, .expression body => defer node function.name body inner
  | _, _ => pure ()

def declareProperty (scope initializerScope : Nat) (owner : Option ClassDescriptor)
    (property : Tree.Property) : Audit Unit := do
  let node := (Node.property property).ref
  let written ← resolveType? scope property.type
  let type ← follow (Resolver.describePropertyType property written)
  let descriptor : Descriptor :=
    .variable (.property
      { name := property.name, declaration := some node
        container := owner.map ClassDescriptor.name, type, binding := property.binding })
  define scope { name := property.name, kind := .property, descriptor } node
  addMember owner descriptor
  declare node descriptor
  follow (modify fun state =>
    { state with
      initializerScopes := state.initializerScopes.insert node initializerScope })
  match property.type, property.initializer with
  | none, some initializer => defer node property.name initializer initializerScope
  | _, _ => pure ()

def declareConstructorParameters (header members constructor : Nat)
    (owner : ClassDescriptor) : (index : Nat) → List Tree.ConstructorParameter → Audit Unit
  | _, [] => pure ()
  | index, parameter :: rest => do
      let node := (Node.constructorParameter parameter).ref
      let type ← resolveType header parameter.type
      let described : ParameterDescriptor :=
        { name := parameter.name, declaration := some node, type, index }
      follow (Resolver.nameConstructorParameter constructor owner node described)
      match parameter.binding with
      | none => declare node (.variable (.parameter (.class owner) described))
      | some binding => do
          let property : Descriptor :=
            .variable (.property
              { name := parameter.name, declaration := some node
                container := some owner.name, type := some type, binding })
          addMember (some owner) property
          define members
            { name := parameter.name, kind := .property, descriptor := property } node
          declare node property
      declareConstructorParameters header members constructor owner (index + 1) rest

def declareMember (scope initializerScope : Nat) (owner : Option ClassDescriptor) :
    Tree.Member → Audit Unit
  | .function function => declareFunction scope owner function
  | .property property => declareProperty scope initializerScope owner property

def declareMembers (scope initializerScope : Nat) (owner : ClassDescriptor) :
    List Tree.Member → Audit Unit
  | [] => pure ()
  | member :: rest => do
      declareMember scope initializerScope (some owner) member
      declareMembers scope initializerScope owner rest

/-! ### Finding what was declared -/

def classAt (node : NodeRef) : Audit ClassDescriptor := do
  let state ← current
  match state.declarations.get? node with
  | some (.class descriptor) => return descriptor
  | _ => throw (.undeclared node)

def functionAt (node : NodeRef) : Audit FunctionDescriptor := do
  let state ← current
  match state.declarations.get? node with
  | some (.function descriptor) => return descriptor
  | _ => throw (.undeclared node)

def variableAt (node : NodeRef) : Audit VariableDescriptor := do
  let state ← current
  match state.declarations.get? node with
  | some (.variable descriptor) => return descriptor
  | _ => throw (.undeclared node)

/-- The scope that belongs to a declaration in some table of scopes. -/
def scopeAt (scopes : ResolutionState → Table NodeRef Nat) (node : NodeRef) : Audit Nat := do
  let state ← current
  require (.scopeless node) ((scopes state).get? node)

def declareClassMembers (declaration : Tree.Class) : Audit Unit := do
  let node := (Node.class declaration).ref
  let owner ← classAt node
  let header ← scopeAt ResolutionState.headerScopes node
  let members ← openScope header ("members of " ++ declaration.name) "class"
  let constructor ← openScope members ("constructor of " ++ declaration.name) "constructor"
  declareConstructorParameters header members constructor owner 0
    declaration.constructorParameters
  declareMembers members constructor owner declaration.members

def declareClasses : List Tree.TopLevel → Audit Unit
  | [] => pure ()
  | .class declaration :: rest => do
      declareClass declaration
      declareClasses rest
  | .member _ :: rest => declareClasses rest

def declareContents : List Tree.TopLevel → Audit Unit
  | [] => pure ()
  | .class declaration :: rest => do
      declareClassMembers declaration
      declareContents rest
  | .member declaration :: rest => do
      declareMember ResolutionState.fileScope ResolutionState.fileScope none declaration
      declareContents rest

def declareFile (file : Tree.File) : Audit Unit := do
  declareClasses file.declarations
  declareContents file.declarations

/-! ### Checking -/

def check (scope : Nat) (expression : Tree.Expr) (expected : NominalType) : Audit Unit := do
  let type ← infer inquiry scope expression
  expect type expected expression.node.ref

def checkInitializer (scope : Nat) (declared : Option NominalType) :
    Option Tree.Expr → Audit (Option NominalType)
  | none => return none
  | some initializer => do
      let type ← infer inquiry scope initializer
      match declared with
      | none => pure ()
      | some expected => expect type expected initializer.node.ref
      return some type

def declareLocal (scope : Nat) (declaration : Tree.Property) : Audit Unit := do
  let node := (Node.property declaration).ref
  let declared ← resolveType? scope declaration.type
  let inferred ← checkInitializer scope declared declaration.initializer
  let type ← follow (Resolver.localType declaration (declared.or inferred))
  let descriptor : Descriptor :=
    .variable (.local
      { name := declaration.name, declaration := some node, type
        binding := declaration.binding })
  define scope { name := declaration.name, kind := .variable, descriptor } node
  declare node descriptor

def checkStatements (scope : Nat) : List Tree.Statement → Audit Unit
  | [] => pure ()
  | .variable declaration :: rest => do
      visit (Node.property declaration).ref
      declareLocal scope declaration
      checkStatements scope rest
  | .expression expression :: rest => do
      let _ ← infer inquiry scope expression
      checkStatements scope rest

def checkFunction (function : Tree.Function) : Audit Unit := do
  let node := (Node.function function).ref
  let descriptor ← functionAt node
  let scope ← scopeAt ResolutionState.functionScopes node
  let returned ← returnType inquiry descriptor
  match function.body with
  | .block block => do
      let inner ← openScope scope "block" "block"
      checkStatements inner block.statements
  | .expression body =>
      if function.returnType.isSome then check scope body returned

def checkProperty (property : Tree.Property) : Audit Unit := do
  let node := (Node.property property).ref
  let descriptor ← variableAt node
  let scope ← scopeAt ResolutionState.initializerScopes node
  let type ← variableType inquiry descriptor
  match property.initializer with
  | some initializer =>
      if property.type.isSome then check scope initializer type
  | none => pure ()

def checkMembers : List Tree.Member → Audit Unit
  | [] => pure ()
  | .function function :: rest => do
      checkFunction function
      checkMembers rest
  | .property property :: rest => do
      checkProperty property
      checkMembers rest

def checkContents : List Tree.TopLevel → Audit Unit
  | [] => pure ()
  | .class declaration :: rest => do
      checkMembers declaration.members
      checkContents rest
  | .member declaration :: rest => do
      checkMembers [declaration]
      checkContents rest

def resolveFile (file : Tree.File) : Audit Unit := do
  declareFile file
  checkContents file.declarations

end Gloss.Audit
