import Gloss.Proofs.Order.Remarks
import Gloss.Resolution.Checking

/-!
# Audits

An audit follows a resolution step by step with a ledger.  In the ledger stands
every entry that is made in the tables of meanings, types and declarations, and
every expression and statement whose inference is begun.  Where a resolution
makes do with some value because what it needs is missing, the audit stops with
a lapse.
-/

namespace Gloss

/-- Something that a resolution needs and does not find. -/
inductive Lapse where
  /-- A declaration without a descriptor of its kind. -/
  | undeclared (declaration : NodeRef)
  /-- A declaration without a scope for what is inside of it. -/
  | scopeless (declaration : NodeRef)
  /-- An open type of something that is not declared in the file. -/
  | undecidable
  /-- An open type without an expression that decides it. -/
  | notDeferred (declaration : NodeRef)
  /-- More demands for open types inside of each other than there are open types. -/
  | endless (declaration : NodeRef)
  /-- A function type with more or fewer arguments than its class has parameters. -/
  | misapplied (type : NominalType)
  /-- A name of a type whose meaning has no type constructor. -/
  | noClassifier (name : String)
  /-- A candidate for a call that cannot be called. -/
  | notCallable (candidate : Descriptor)

/-- A state with the entries and visits that led to it. -/
structure Ledger where
  state : ResolutionState
  remarks : List Remark := []
  /-- The expressions and statements whose inference was begun. -/
  visits : List NodeRef := []

abbrev Audit := StateT Ledger (Except Lapse)

namespace Audit

variable {α : Type}

/-- A step that makes no entry in the tables and cannot lapse. -/
def follow (step : Resolver α) : Audit α := fun ledger =>
  .ok ((step.run ledger.state).1, { ledger with state := (step.run ledger.state).2 })

def current : Audit ResolutionState := follow get

/-- Makes an entry. -/
def write (remark : Remark) : Audit Unit :=
  modify fun ledger =>
    { ledger with
      state := ledger.state.remark remark
      remarks := ledger.remarks ++ [remark] }

/-- Begins the inference of an expression or a statement. -/
def visit (node : NodeRef) : Audit Unit :=
  modify fun ledger => { ledger with visits := ledger.visits ++ [node] }

/-- What is needed, if it is there. -/
def require (lapse : Lapse) : Option α → Audit α
  | some value => return value
  | none => throw lapse

def record (reference : NodeRef) (target : Descriptor) : Audit Unit :=
  write (.meaning reference (.target target))

def markAmbiguous (reference : NodeRef) (candidates : List Descriptor) : Audit Unit :=
  write (.meaning reference (.ambiguous candidates))

def markUnresolved (reference : NodeRef) : Audit Unit := write (.meaning reference .unresolved)

def recordType (node : NodeRef) (type : NominalType) : Audit Unit := write (.typed node type)

def declare (node : NodeRef) (descriptor : Descriptor) : Audit Unit :=
  write (.declared node descriptor)

def report (problem : Problem) (node : NodeRef) : Audit Unit := follow (Resolver.report problem node)

def unresolved (reference : NodeRef) (name : String) : Audit Unit := do
  markUnresolved reference
  report (.unresolvedReference name) reference

def typed (node : NodeRef) (type : NominalType) : Audit NominalType := do
  recordType node type
  return type

/-! ### Written types -/

/-- The meaning of a name of a type must have a type constructor. -/
def resolveTypeName (scope : Nat) (node : NodeRef) (name : String) (arguments : Nat) :
    Audit Unit := do
  let state ← current
  match state.classifiers scope name with
  | none => unresolved node name
  | some symbol => do
      let _ ← require (.noClassifier name) symbol.descriptor.typeConstructor?
      record node symbol.descriptor
      match Resolver.expectedArguments? symbol with
      | none => pure ()
      | some expected =>
          if arguments = expected then pure ()
          else report (.wrongTypeArguments name expected arguments) node

mutual

def resolveType (scope : Nat) : Tree.TypeRef → Audit NominalType
  | .named span nullable name nameSpan arguments => do
      let type := Tree.TypeRef.named span nullable name nameSpan arguments
      resolveTypes scope arguments
      resolveTypeName scope type.node name arguments.length
      let state ← current
      typed type.node (type.denote (state.classifiers scope))
  | .function span nullable parameters result => do
      let type := Tree.TypeRef.function span nullable parameters result
      resolveTypes scope parameters
      let _ ← resolveType scope result
      follow (Resolver.noteArity parameters.length)
      let state ← current
      typed type.node (type.denote (state.classifiers scope))

def resolveTypes (scope : Nat) : List Tree.TypeRef → Audit Unit
  | [] => pure ()
  | type :: rest => do
      let _ ← resolveType scope type
      resolveTypes scope rest

end

def resolveType? (scope : Nat) : Option Tree.TypeRef → Audit (Option NominalType)
  | none => return none
  | some type => return some (← resolveType scope type)

end Audit

end Gloss

/-!
### The audit of inference

Inference as an audit sees it.  A visit is noted whenever the inference of an
expression is begun.  An open type must belong to a declaration of the file
whose expression was put off, a function type that is taken apart must have an
argument for each parameter and one for the result, and a candidate must be
something that can be called.
-/

namespace Gloss

/-- The question for the open type of the declaration at a node. -/
abbrev Inquiry := NodeRef → Audit NominalType

namespace Audit

def settle (inquiry : Inquiry) (known : Option NominalType) (declaration : Option NodeRef) :
    Audit NominalType :=
  match known, declaration with
  | some type, _ => return type
  | none, none => throw .undecidable
  | none, some node => do
      let state ← current
      match state.inferred.get? node with
      | some type => return type
      | none => inquiry node

def variableType (inquiry : Inquiry) : VariableDescriptor → Audit NominalType
  | .parameter _ parameter => return parameter.type
  | .property property => settle inquiry property.type property.declaration
  | .local declared => return declared.type

def returnType (inquiry : Inquiry) (function : FunctionDescriptor) : Audit NominalType :=
  settle inquiry function.returnType function.declaration

def functionValueType (inquiry : Inquiry) (function : FunctionDescriptor) :
    Audit NominalType := do
  let result ← returnType inquiry function
  follow (Resolver.noteArity function.parameters.length)
  return Library.functionType (function.parameters.map ParameterDescriptor.type) result false

def valueType (inquiry : Inquiry) : Descriptor → Audit NominalType
  | .variable holder => variableType inquiry holder
  | .invoke called _ => variableType inquiry called
  | .function function => functionValueType inquiry function
  | .specialized function => require .undecidable function.returnType
  | .class _ | .typeParameter _ | .error _ => return .error

def asCallable (inquiry : Inquiry) : Descriptor → Audit (Option Descriptor)
  | .variable holder => do
      let type ← variableType inquiry holder
      return (Library.functionArity? type).map fun _ => .invoke holder type
  | .class descriptor => return some (.class descriptor)
  | .function descriptor => return some (.function descriptor)
  | .specialized descriptor => return some (.specialized descriptor)
  | .typeParameter _ | .invoke _ _ | .error _ => return none

def callables (inquiry : Inquiry) : List Descriptor → Audit (List Descriptor)
  | [] => return []
  | descriptor :: rest => do
      let callable ← asCallable inquiry descriptor
      let later ← callables inquiry rest
      return callable.toList ++ later

def callablesAt (inquiry : Inquiry) (name : String) :
    List (Scope Descriptor) → Audit (List Descriptor)
  | [] => return []
  | level :: outer => do
      let symbols := (level.symbolsNamed name).filter fun symbol =>
        symbol.kind ≠ .typeParameter
      let found ← callables inquiry (symbols.map Symbol.descriptor)
      match found with
      | [] => callablesAt inquiry name outer
      | first :: rest => return first :: rest

/-- The parameter types and the result type of a function type. -/
def unpack (type : NominalType) : Audit (List NominalType × NominalType) :=
  match Library.functionArity? type, type.arguments.getLast? with
  | some arity, some result =>
      if type.arguments.length = arity + 1 then return (type.arguments.dropLast, result)
      else throw (.misapplied type)
  | _, _ => throw (.misapplied type)

def signature (inquiry : Inquiry) (receiver : Substitution) : Descriptor → Audit Signature
  | .invoke called type => do
      let (parameters, result) ← unpack type
      return { candidate := .invoke called type, parameters, result, unknowns := [] }
  | .class descriptor => do
      let state ← current
      let parameters := ((state.class? descriptor.constructor).map ClassEntry.parameters).getD []
      pure
        { candidate := .class descriptor
          parameters := parameters.map ParameterDescriptor.type
          result := descriptor.defaultType
          unknowns := descriptor.typeParameters.map TypeParameterDescriptor.constructor }
  | .function descriptor => do
      let result ← returnType inquiry descriptor
      pure
        { candidate := .function descriptor
          parameters := descriptor.parameters.map fun parameter =>
            parameter.type.substitute receiver
          result := result.substitute receiver
          unknowns := descriptor.typeParameters.map TypeParameterDescriptor.constructor }
  | other => throw (.notCallable other)

def signatures (inquiry : Inquiry) (receiver : Substitution) :
    List Descriptor → Audit (List Signature)
  | [] => return []
  | candidate :: rest => do
      let first ← signature inquiry receiver candidate
      let later ← signatures inquiry receiver rest
      return first :: later

def resolveCall (inquiry : Inquiry) (reference : NodeRef) (name : String)
    (candidates : List Descriptor) (arguments : List NominalType) (receiver : Substitution) :
    Audit NominalType := do
  let judged ← signatures inquiry receiver candidates
  let state ← current
  match Choice.among judged arguments with
  | .none => do
      unresolved reference name
      return .error
  | .mismatch only => do
      record reference only.candidate
      report (.argumentMismatch arguments (only.candidate.render state.inferred)) reference
      return only.result
  | .inapplicable => do
      report (.noneApplicable candidates.length name arguments) reference
      markUnresolved reference
      return .error
  | .ambiguous winners => do
      markAmbiguous reference (winners.map Applicable.candidate)
      report (.overloadAmbiguity name winners.length) reference
      return .error
  | .chosen best => do
      record reference (Resolver.callTarget state.inferred best)
      return best.result

def recordError (reference : NodeRef) (name : String) : Audit NominalType := do
  record reference (.error name)
  return .error

def resolveValue (inquiry : Inquiry) (scope : Nat) (name : Tree.SimpleName) :
    Audit NominalType := do
  let state ← current
  match state.scopes.lookup scope SymbolKind.isValue name.text with
  | [] => do
      unresolved name.node.ref name.text
      return .error
  | symbol :: _ => do
      record name.node.ref symbol.descriptor
      match symbol.descriptor with
      | .variable holder => variableType inquiry holder
      | _ => return .error

def resolveCallableRef (inquiry : Inquiry) (scope : Nat) (name : Tree.SimpleName) :
    Audit NominalType := do
  let node := name.node.ref
  let state ← current
  match state.scopes.lookup scope (fun kind => kind = .function) name.text with
  | [] => do
      unresolved node name.text
      typed node .error
  | [symbol] => do
      record node symbol.descriptor
      let type ← valueType inquiry symbol.descriptor
      typed node type
  | symbols => do
      markAmbiguous node (symbols.map Symbol.descriptor)
      report (.callableReferenceAmbiguity name.text symbols.length) node
      typed node .error

def resolveSelector (inquiry : Inquiry) (receiver : NominalType) (selector : Tree.SimpleName) :
    Audit NominalType := do
  let node := selector.node.ref
  if receiver.isError then
    let type ← recordError node selector.text
    typed node type
  else
    let (members, substitution) ← follow (Resolver.membersOf receiver selector.text)
    match members.filterMap Resolver.asProperty? with
    | [] => do
        unresolved node (receiver.render ++ "." ++ selector.text)
        typed node .error
    | property :: _ => do
        record node (.variable (.property property))
        let type ← variableType inquiry (.property property)
        typed node (type.substitute substitution)

def resolveMemberCall (inquiry : Inquiry) (receiver : NominalType)
    (selector : Tree.SimpleName) (arguments : List NominalType) : Audit NominalType := do
  let node := selector.node.ref
  if receiver.isError then
    let type ← recordError node selector.text
    typed node type
  else
    let (members, substitution) ← follow (Resolver.membersOf receiver selector.text)
    let candidates ← callables inquiry members
    let type ← resolveCall inquiry node selector.text candidates arguments substitution
    typed node type

def resolveNameCall (inquiry : Inquiry) (scope : Nat) (name : Tree.SimpleName)
    (arguments : List NominalType) : Audit NominalType := do
  let state ← current
  let candidates ← callablesAt inquiry name.text (state.scopes.levels scope)
  let type ← resolveCall inquiry name.node.ref name.text candidates arguments .empty
  typed name.node.ref type

def resolveOperator (inquiry : Inquiry) (left right : NominalType)
    (reference : Tree.OperatorRef) : Audit NominalType := do
  let node := (Node.operator reference).ref
  let name := reference.operator.memberName
  let type ←
    if left.isError then recordError node name
    else do
      let (members, substitution) ← follow (Resolver.membersOf left name)
      resolveCall inquiry node name (members.filter Resolver.isFunction) [right] substitution
  return if reference.operator.isComparison then Library.boolean else type

/-- A value is called when its type is a function type, which is then taken apart. -/
def resolveValueCall (call callee : NodeRef) (calleeType : NominalType)
    (argumentTypes : List NominalType) (arguments : List Tree.Expr) : Audit NominalType :=
  if calleeType.isError then return .error
  else
    match Library.functionArity? calleeType with
    | none => do
        report (.notCallable calleeType) callee
        return .error
    | some _ => do
        let (parameters, result) ← unpack calleeType
        if parameters.length ≠ argumentTypes.length then
          report (.argumentCount parameters.length argumentTypes.length) call
        follow (Resolver.expectArguments argumentTypes parameters arguments)
        return result

def expect (actual expected : NominalType) (node : NodeRef) : Audit Unit :=
  follow (Resolver.expect actual expected node)

mutual

/-- The inference of an expression, which is visited first of all. -/
def infer (inquiry : Inquiry) (scope : Nat) (value : Tree.Expr) : Audit NominalType := do
  visit value.node.ref
  match value with
  | .name name => do
      let type ← resolveValue inquiry scope name
      typed name.node.ref type
  | .integer span value => typed (Tree.Expr.integer span value).node.ref Library.int
  | .text span value => typed (Tree.Expr.text span value).node.ref Library.string
  | .boolean span value => typed (Tree.Expr.boolean span value).node.ref Library.boolean
  | .null span =>
      typed (Tree.Expr.null span).node.ref (Library.nothing.withNullable true)
  | .callableRef span target => do
      let type ← resolveCallableRef inquiry scope target
      typed (Tree.Expr.callableRef span target).node.ref type
  | .paren span inner => do
      let type ← infer inquiry scope inner
      typed (Tree.Expr.paren span inner).node.ref type
  | .ifThen span condition thenBranch => do
      let conditionType ← infer inquiry scope condition
      expect conditionType Library.boolean condition.node.ref
      let _ ← infer inquiry scope thenBranch
      typed (Tree.Expr.ifThen span condition thenBranch).node.ref Library.unit
  | .ifElse span condition thenBranch elseBranch => do
      let conditionType ← infer inquiry scope condition
      expect conditionType Library.boolean condition.node.ref
      let thenType ← infer inquiry scope thenBranch
      let elseType ← infer inquiry scope elseBranch
      typed (Tree.Expr.ifElse span condition thenBranch elseBranch).node.ref
        (thenType.join elseType Library.any)
  | .member span receiver selector => do
      let receiverType ← infer inquiry scope receiver
      let type ← resolveSelector inquiry receiverType selector
      typed (Tree.Expr.member span receiver selector).node.ref type
  | .binary span left operator right => do
      let leftType ← infer inquiry scope left
      let rightType ← infer inquiry scope right
      let type ← resolveOperator inquiry leftType rightType operator
      typed (Tree.Expr.binary span left operator right).node.ref type
  | .call span (.name name) arguments => do
      let argumentTypes ← inferAll inquiry scope arguments
      let type ← resolveNameCall inquiry scope name argumentTypes
      typed (Tree.Expr.call span (.name name) arguments).node.ref type
  | .call span (.member memberSpan receiver selector) arguments => do
      let callee := Tree.Expr.member memberSpan receiver selector
      let argumentTypes ← inferAll inquiry scope arguments
      let receiverType ← infer inquiry scope receiver
      let type ← resolveMemberCall inquiry receiverType selector argumentTypes
      recordType callee.node.ref type
      typed (Tree.Expr.call span callee arguments).node.ref type
  | .call span callee arguments => do
      let call := (Tree.Expr.call span callee arguments).node.ref
      let argumentTypes ← inferAll inquiry scope arguments
      let calleeType ← infer inquiry scope callee
      let type ← resolveValueCall call callee.node.ref calleeType argumentTypes arguments
      typed call type

def inferAll (inquiry : Inquiry) (scope : Nat) :
    List Tree.Expr → Audit (List NominalType)
  | [] => return []
  | expression :: rest => do
      let type ← infer inquiry scope expression
      let later ← inferAll inquiry scope rest
      return type :: later

end

/-- An answer to the question for an open type.  What is asked for must have been
put off, and there must be room for one more declaration to be active. -/
def inquiryWithin (depth : Nat) (active : List NodeRef) : Inquiry := fun node => do
  let state ← current
  let deferred ← require (.notDeferred node) (state.deferred.get? node)
  if node ∈ active then
    report (.recursiveType deferred.name) node
    follow (Resolver.remember node .error)
  else
    match depth with
    | 0 => throw (.endless node)
    | depth + 1 => do
        let type ← infer (inquiryWithin depth (node :: active)) deferred.scope deferred.body
        follow (Resolver.remember node type)

def inquiry : Inquiry := fun node => do
  let state ← current
  inquiryWithin state.deferred.size [] node

end Audit

end Gloss
