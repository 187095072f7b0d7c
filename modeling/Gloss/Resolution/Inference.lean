import Gloss.Resolution.Overload
import Gloss.Resolution.State

/-!
# Inferring types of expressions

Inference gives every expression a type and every reference in it an outcome.
Where it meets a declaration whose type is still open, it asks for that type to
be inferred first; `Demand` stands for that question, and `Resolver.demand`
answers it, however the declarations depend on one another.
-/

namespace Gloss

/-- The question for the open type of the declaration at a node. -/
abbrev Demand := NodeRef → Resolver NominalType

namespace Resolver

/-- A type that may be open: the given one, else what was inferred for the
declaration, else what inference now comes to. -/
def settle (demand : Demand) (known : Option NominalType) (declaration : Option NodeRef) :
    Resolver NominalType :=
  match known, declaration with
  | some type, _ => return type
  | none, none => return .error
  | none, some node => do
      let state ← get
      match state.inferred.get? node with
      | some type => return type
      | none => demand node

def variableType (demand : Demand) : VariableDescriptor → Resolver NominalType
  | .parameter _ parameter => return parameter.type
  | .property property => settle demand property.type property.declaration
  | .local declared => return declared.type

def returnType (demand : Demand) (function : FunctionDescriptor) : Resolver NominalType :=
  settle demand function.returnType function.declaration

def functionValueType (demand : Demand) (function : FunctionDescriptor) :
    Resolver NominalType := do
  let result ← returnType demand function
  noteArity function.parameters.length
  return Library.functionType (function.parameters.map ParameterDescriptor.type) result false

def valueType (demand : Demand) : Descriptor → Resolver NominalType
  | .variable holder => variableType demand holder
  | .invoke called _ => variableType demand called
  | .function function => functionValueType demand function
  | .specialized function => return function.returnType.getD .error
  | .class _ | .typeParameter _ | .error _ => return .error

/-- What a call of something with the given meaning would go to, if it can be
called at all. -/
def asCallable (demand : Demand) : Descriptor → Resolver (Option Descriptor)
  | .variable holder => do
      let type ← variableType demand holder
      return (Library.functionArity? type).map fun _ => .invoke holder type
  | .class descriptor => return some (.class descriptor)
  | .function descriptor => return some (.function descriptor)
  | .specialized descriptor => return some (.specialized descriptor)
  | .typeParameter _ | .invoke _ _ | .error _ => return none

def callables (demand : Demand) : List Descriptor → Resolver (List Descriptor)
  | [] => return []
  | descriptor :: rest => do
      let callable ← asCallable demand descriptor
      let later ← callables demand rest
      return callable.toList ++ later

/-- The callables with a name at the innermost of some levels that has any. -/
def callablesAt (demand : Demand) (name : String) :
    List (Scope Descriptor) → Resolver (List Descriptor)
  | [] => return []
  | level :: outer => do
      let symbols := (level.symbolsNamed name).filter fun symbol =>
        symbol.kind ≠ .typeParameter
      let found ← callables demand (symbols.map Symbol.descriptor)
      match found with
      | [] => callablesAt demand name outer
      | first :: rest => return first :: rest

/-- The members with a name of the class of a receiver, and what its type
parameters stand for there.  Every type has the members of the top class. -/
def membersOf (receiver : NominalType) (name : String) :
    Resolver (List Descriptor × Substitution) := do
  let state ← get
  match state.class? receiver.constructor with
  | none => return (Library.anyClass.membersNamed name, .empty)
  | some entry => do
      let own := entry.membersNamed name
      let unknowns := entry.descriptor.typeParameters.map TypeParameterDescriptor.constructor
      return (if own.isEmpty then Library.anyClass.membersNamed name else own,
        Table.ofList (unknowns.zip receiver.arguments))

def isFunction : Descriptor → Bool
  | .function _ | .specialized _ => true
  | _ => false

def asProperty? : Descriptor → Option PropertyDescriptor
  | .variable (.property property) => some property
  | _ => none

/-- The signature of a candidate, seen through what the type parameters of its
receiver stand for. -/
def signature (demand : Demand) (receiver : Substitution) :
    Descriptor → Resolver Signature
  | .invoke called type =>
      let (parameters, result) := (Library.functionParts? type).getD ([], .error)
      return { candidate := .invoke called type, parameters, result, unknowns := [] }
  | .class descriptor => do
      let state ← get
      let parameters := ((state.class? descriptor.constructor).map ClassEntry.parameters).getD []
      pure
        { candidate := .class descriptor
          parameters := parameters.map ParameterDescriptor.type
          result := descriptor.defaultType
          unknowns := descriptor.typeParameters.map TypeParameterDescriptor.constructor }
  | .function descriptor => do
      let result ← returnType demand descriptor
      pure
        { candidate := .function descriptor
          parameters := descriptor.parameters.map fun parameter =>
            parameter.type.substitute receiver
          result := result.substitute receiver
          unknowns := descriptor.typeParameters.map TypeParameterDescriptor.constructor }
  | other => return { candidate := other, parameters := [], result := .error, unknowns := [] }

def signatures (demand : Demand) (receiver : Substitution) :
    List Descriptor → Resolver (List Signature)
  | [] => return []
  | candidate :: rest => do
      let first ← signature demand receiver candidate
      let later ← signatures demand receiver rest
      return first :: later

/-- The target of a call that chose a candidate: a generic function is
specialized for the call. -/
def callTarget (inferred : InferredTypes) (choice : Applicable) : Descriptor :=
  match choice.candidate with
  | .function descriptor =>
      if descriptor.typeParameters.isEmpty then .function descriptor
      else .specialized (descriptor.specialize inferred choice.substitution)
  | other => other

/-- Resolves a reference that is called to one of several candidates, and
gives the type of the call. -/
def resolveCall (demand : Demand) (reference : NodeRef) (name : String)
    (candidates : List Descriptor) (arguments : List NominalType) (receiver : Substitution) :
    Resolver NominalType := do
  let judged ← signatures demand receiver candidates
  let state ← get
  match Choice.among judged arguments with
  | .none => do
      unresolved reference name
      return .error
  | .mismatch only => do
      record reference only.candidate
      report (.argumentMismatch arguments (only.candidate.render state.inferred)) reference
      return only.result
  | .inapplicable => do
      report (.noneApplicable candidates.length name arguments) reference
      markUnresolved reference
      return .error
  | .ambiguous winners => do
      markAmbiguous reference (winners.map Applicable.candidate)
      report (.overloadAmbiguity name winners.length) reference
      return .error
  | .chosen best => do
      record reference (callTarget state.inferred best)
      return best.result

def recordError (reference : NodeRef) (name : String) : Resolver NominalType := do
  record reference (.error name)
  return .error

def resolveValue (demand : Demand) (scope : Nat) (name : Tree.SimpleName) :
    Resolver NominalType := do
  let state ← get
  match state.scopes.lookup scope SymbolKind.isValue name.text with
  | [] => do
      unresolved name.node.ref name.text
      return .error
  | symbol :: _ => do
      record name.node.ref symbol.descriptor
      match symbol.descriptor with
      | .variable holder => variableType demand holder
      | _ => return .error

def resolveCallableRef (demand : Demand) (scope : Nat) (name : Tree.SimpleName) :
    Resolver NominalType := do
  let node := name.node.ref
  let state ← get
  match state.scopes.lookup scope (fun kind => kind = .function) name.text with
  | [] => do
      unresolved node name.text
      typed node .error
  | [symbol] => do
      record node symbol.descriptor
      let type ← valueType demand symbol.descriptor
      typed node type
  | symbols => do
      markAmbiguous node (symbols.map Symbol.descriptor)
      report (.callableReferenceAmbiguity name.text symbols.length) node
      typed node .error

def resolveSelector (demand : Demand) (receiver : NominalType) (selector : Tree.SimpleName) :
    Resolver NominalType := do
  let node := selector.node.ref
  if receiver.isError then
    let type ← recordError node selector.text
    typed node type
  else
    let (members, substitution) ← membersOf receiver selector.text
    match members.filterMap asProperty? with
    | [] => do
        unresolved node (receiver.render ++ "." ++ selector.text)
        typed node .error
    | property :: _ => do
        record node (.variable (.property property))
        let type ← variableType demand (.property property)
        typed node (type.substitute substitution)

def resolveMemberCall (demand : Demand) (receiver : NominalType)
    (selector : Tree.SimpleName) (arguments : List NominalType) : Resolver NominalType := do
  let node := selector.node.ref
  if receiver.isError then
    let type ← recordError node selector.text
    typed node type
  else
    let (members, substitution) ← membersOf receiver selector.text
    let candidates ← callables demand members
    let type ← resolveCall demand node selector.text candidates arguments substitution
    typed node type

def resolveNameCall (demand : Demand) (scope : Nat) (name : Tree.SimpleName)
    (arguments : List NominalType) : Resolver NominalType := do
  let state ← get
  let candidates ← callablesAt demand name.text (state.scopes.levels scope)
  let type ← resolveCall demand name.node.ref name.text candidates arguments .empty
  typed name.node.ref type

def resolveOperator (demand : Demand) (left right : NominalType)
    (reference : Tree.OperatorRef) : Resolver NominalType := do
  let node := (Node.operator reference).ref
  let name := reference.operator.memberName
  let type ←
    if left.isError then recordError node name
    else do
      let (members, substitution) ← membersOf left name
      resolveCall demand node name (members.filter isFunction) [right] substitution
  return if reference.operator.isComparison then Library.boolean else type

/-- Compares arguments with the parameter types of a called value, as far as
both go. -/
def expectArguments : List NominalType → List NominalType → List Tree.Expr → Resolver Unit
  | argument :: arguments, parameter :: parameters, expression :: expressions => do
      expect argument parameter expression.node.ref
      expectArguments arguments parameters expressions
  | _, _, _ => pure ()

/-- Calls a value that is neither a simple name nor selected by one. -/
def resolveValueCall (call callee : NodeRef) (calleeType : NominalType)
    (argumentTypes : List NominalType) (arguments : List Tree.Expr) :
    Resolver NominalType :=
  if calleeType.isError then return .error
  else
    match Library.functionParts? calleeType with
    | none => do
        report (.notCallable calleeType) callee
        return .error
    | some (parameters, result) => do
        if parameters.length ≠ argumentTypes.length then
          report (.argumentCount parameters.length argumentTypes.length) call
        expectArguments argumentTypes parameters arguments
        return result

mutual

def infer (demand : Demand) (scope : Nat) : Tree.Expr → Resolver NominalType
  | .name name => do
      let type ← resolveValue demand scope name
      typed name.node.ref type
  | .integer span value => typed (Tree.Expr.integer span value).node.ref Library.int
  | .text span value => typed (Tree.Expr.text span value).node.ref Library.string
  | .boolean span value => typed (Tree.Expr.boolean span value).node.ref Library.boolean
  | .null span =>
      typed (Tree.Expr.null span).node.ref (Library.nothing.withNullable true)
  | .callableRef span target => do
      let type ← resolveCallableRef demand scope target
      typed (Tree.Expr.callableRef span target).node.ref type
  | .paren span inner => do
      let type ← infer demand scope inner
      typed (Tree.Expr.paren span inner).node.ref type
  | .ifThen span condition thenBranch => do
      let conditionType ← infer demand scope condition
      expect conditionType Library.boolean condition.node.ref
      let _ ← infer demand scope thenBranch
      typed (Tree.Expr.ifThen span condition thenBranch).node.ref Library.unit
  | .ifElse span condition thenBranch elseBranch => do
      let conditionType ← infer demand scope condition
      expect conditionType Library.boolean condition.node.ref
      let thenType ← infer demand scope thenBranch
      let elseType ← infer demand scope elseBranch
      typed (Tree.Expr.ifElse span condition thenBranch elseBranch).node.ref
        (thenType.join elseType Library.any)
  | .member span receiver selector => do
      let receiverType ← infer demand scope receiver
      let type ← resolveSelector demand receiverType selector
      typed (Tree.Expr.member span receiver selector).node.ref type
  | .binary span left operator right => do
      let leftType ← infer demand scope left
      let rightType ← infer demand scope right
      let type ← resolveOperator demand leftType rightType operator
      typed (Tree.Expr.binary span left operator right).node.ref type
  | .call span (.name name) arguments => do
      let argumentTypes ← inferAll demand scope arguments
      let type ← resolveNameCall demand scope name argumentTypes
      typed (Tree.Expr.call span (.name name) arguments).node.ref type
  | .call span (.member memberSpan receiver selector) arguments => do
      let callee := Tree.Expr.member memberSpan receiver selector
      let argumentTypes ← inferAll demand scope arguments
      let receiverType ← infer demand scope receiver
      let type ← resolveMemberCall demand receiverType selector argumentTypes
      recordType callee.node.ref type
      typed (Tree.Expr.call span callee arguments).node.ref type
  | .call span callee arguments => do
      let call := (Tree.Expr.call span callee arguments).node.ref
      let argumentTypes ← inferAll demand scope arguments
      let calleeType ← infer demand scope callee
      let type ← resolveValueCall call callee.node.ref calleeType argumentTypes arguments
      typed call type

def inferAll (demand : Demand) (scope : Nat) :
    List Tree.Expr → Resolver (List NominalType)
  | [] => return []
  | expression :: rest => do
      let type ← infer demand scope expression
      let later ← inferAll demand scope rest
      return type :: later

end

def remember (node : NodeRef) (type : NominalType) : Resolver NominalType := do
  modify fun state => { state with inferred := state.inferred.insert node type }
  return type

/-- Infers the open type of a declaration while the types of the active ones are
being inferred.  A declaration that is active itself depends on itself. -/
def demandWithin (depth : Nat) (active : List NodeRef) : Demand := fun node => do
  let state ← get
  match state.deferred.get? node with
  | none => return .error
  | some deferred =>
      if node ∈ active then
        report (.recursiveType deferred.name) node
        remember node .error
      else
        match depth with
        | 0 => return .error
        | depth + 1 => do
            let type ← infer (demandWithin depth (node :: active)) deferred.scope deferred.body
            remember node type

/-- Infers the open type of a declaration.  No more declarations can be active
at once than have an open type. -/
def demand : Demand := fun node => do
  let state ← get
  demandWithin state.deferred.size [] node

end Resolver

end Gloss
