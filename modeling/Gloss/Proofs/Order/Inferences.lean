import Gloss.Proofs.Order.Script
import Gloss.Resolution.WrittenType

/-!
# Inferences as scripts

What inference does depends on what it can see: the symbols of the levels around
an expression, the members of classes, and which declarations have an open type.
Given these, each inference is a script.
-/

namespace Gloss

/-- What an inference can see.  It may be about the open type of a declaration
itself. -/
structure Surroundings where
  /-- The symbols of the levels around, the innermost first. -/
  levels : List (List (Symbol Descriptor))
  class? : TypeConstructor → Option ClassEntry
  isOpen : NodeRef → Bool
  own : NodeRef

namespace Tree.TypeRef

/-- What resolving the name of a written type writes down. -/
def nameRemarks (classifiers : Classifiers) (node : NodeRef) (name : String) (arguments : Nat) :
    List Remark :=
  match classifiers name with
  | none =>
      [.meaning node .unresolved, .problem { problem := .unresolvedReference name, node }]
  | some symbol =>
      .meaning node (.target symbol.descriptor) ::
        match Resolver.expectedArguments? symbol with
        | none => []
        | some expected =>
            if arguments = expected then []
            else [.problem { problem := .wrongTypeArguments name expected arguments, node }]

mutual

/-- What resolving a written type writes down. -/
def remarks (classifiers : Classifiers) : TypeRef → List Remark
  | .named span nullable name nameSpan arguments =>
      let type := TypeRef.named span nullable name nameSpan arguments
      remarksOfAll classifiers arguments ++
        nameRemarks classifiers type.node name arguments.length ++
          [.typed type.node (type.denote classifiers)]
  | .function span nullable parameters result =>
      let type := TypeRef.function span nullable parameters result
      remarksOfAll classifiers parameters ++ remarks classifiers result ++
        [.arity parameters.length, .typed type.node (type.denote classifiers)]

def remarksOfAll (classifiers : Classifiers) : List TypeRef → List Remark
  | [] => []
  | type :: rest => remarks classifiers type ++ remarksOfAll classifiers rest

end

end Tree.TypeRef

namespace Descriptor

/-- The declaration whose open type is shown with a descriptor. -/
def shownOpen? : Descriptor → Option NodeRef
  | .function declared => if declared.returnType.isNone then declared.declaration else none
  | .variable (.property declared) | .invoke (.property declared) _ =>
      if declared.type.isNone then declared.declaration else none
  | .variable (.parameter (.function owner) _) | .invoke (.parameter (.function owner) _) _ =>
      if owner.returnType.isNone then owner.declaration else none
  | _ => none

end Descriptor

namespace Script

variable {isOpen : NodeRef → Bool}

def tellAll : List Remark → Script isOpen Unit
  | [] => done ()
  | remark :: rest => write (fun _ => remark) (tellAll rest)

def record (reference : NodeRef) (target : Descriptor) : Script isOpen Unit :=
  tell (.meaning reference (.target target))

def report (problem : Problem) (node : NodeRef) : Script isOpen Unit :=
  tell (.problem { problem, node })

def unresolved (reference : NodeRef) (name : String) : Script isOpen Unit := do
  tell (.meaning reference .unresolved)
  report (.unresolvedReference name) reference

def typed (node : NodeRef) (type : NominalType) : Script isOpen NominalType := do
  tell (.typed node type)
  return type

def expect (actual expected : NominalType) (node : NodeRef) : Script isOpen Unit :=
  if actual.isSubtype expected then return ()
  else report (.typeMismatch actual expected) node

def recordError (reference : NodeRef) (name : String) : Script isOpen NominalType := do
  record reference (.error name)
  return .error

def expectArguments : List NominalType → List NominalType → List Tree.Expr → Script isOpen Unit
  | argument :: arguments, parameter :: parameters, expression :: expressions => do
      expect argument parameter expression.node.ref
      expectArguments arguments parameters expressions
  | _, _, _ => return ()

def resolveValueCall (call callee : NodeRef) (calleeType : NominalType)
    (argumentTypes : List NominalType) (arguments : List Tree.Expr) : Script isOpen NominalType :=
  if calleeType.isError then return .error
  else
    match Library.functionParts? calleeType with
    | none => do
        report (.notCallable calleeType) callee
        return .error
    | some (parameters, result) => do
        if parameters.length ≠ argumentTypes.length then
          report (.argumentCount parameters.length argumentTypes.length) call
        expectArguments argumentTypes parameters arguments
        return result

end Script

namespace Surroundings

variable (around : Surroundings)

def lookup (accept : SymbolKind → Bool) (name : String) : List (Symbol Descriptor) :=
  let found := around.levels.map fun level =>
    (level.filter fun symbol => symbol.name = name).filter fun symbol => accept symbol.kind
  (found.find? fun symbols => !symbols.isEmpty).getD []

def classifiers : Classifiers := fun name =>
  (around.lookup SymbolKind.isClassifier name).head?

def settle (known : Option NominalType) (declaration : Option NodeRef) :
    Script around.isOpen NominalType :=
  match known, declaration with
  | some type, _ => return type
  | none, none => return .error
  | none, some node =>
      if isOpen : around.isOpen node then .ask node isOpen .done else return .error

def variableType : VariableDescriptor → Script around.isOpen NominalType
  | .parameter _ parameter => return parameter.type
  | .property property => around.settle property.type property.declaration
  | .local declared => return declared.type

def returnType (function : FunctionDescriptor) : Script around.isOpen NominalType :=
  around.settle function.returnType function.declaration

def functionValueType (function : FunctionDescriptor) : Script around.isOpen NominalType := do
  let result ← around.returnType function
  Script.tell (.arity function.parameters.length)
  return Library.functionType (function.parameters.map ParameterDescriptor.type) result false

def valueType : Descriptor → Script around.isOpen NominalType
  | .variable holder => around.variableType holder
  | .invoke called _ => around.variableType called
  | .function function => around.functionValueType function
  | .specialized function => return function.returnType.getD .error
  | .class _ | .typeParameter _ | .error _ => return .error

def asCallable : Descriptor → Script around.isOpen (Option Descriptor)
  | .variable holder => do
      let type ← around.variableType holder
      return (Library.functionArity? type).map fun _ => .invoke holder type
  | .class descriptor => return some (.class descriptor)
  | .function descriptor => return some (.function descriptor)
  | .specialized descriptor => return some (.specialized descriptor)
  | .typeParameter _ | .invoke _ _ | .error _ => return none

def callables : List Descriptor → Script around.isOpen (List Descriptor)
  | [] => return []
  | descriptor :: rest => do
      let callable ← around.asCallable descriptor
      let later ← callables rest
      return callable.toList ++ later

def callablesAt (name : String) :
    List (List (Symbol Descriptor)) → Script around.isOpen (List Descriptor)
  | [] => return []
  | level :: outer => do
      let symbols := (level.filter fun symbol => symbol.name = name).filter fun symbol =>
        symbol.kind ≠ .typeParameter
      let found ← around.callables (symbols.map Symbol.descriptor)
      match found with
      | [] => callablesAt name outer
      | first :: rest => return first :: rest

def membersOf (receiver : NominalType) (name : String) : List Descriptor × Substitution :=
  match around.class? receiver.constructor with
  | none => (Library.anyClass.membersNamed name, .empty)
  | some entry =>
      let own := entry.membersNamed name
      let unknowns := entry.descriptor.typeParameters.map TypeParameterDescriptor.constructor
      (if own.isEmpty then Library.anyClass.membersNamed name else own,
        Table.ofList (unknowns.zip receiver.arguments))

def signature (receiver : Substitution) : Descriptor → Script around.isOpen Signature
  | .invoke called type =>
      let (parameters, result) := (Library.functionParts? type).getD ([], .error)
      return { candidate := .invoke called type, parameters, result, unknowns := [] }
  | .class descriptor =>
      let parameters :=
        ((around.class? descriptor.constructor).map ClassEntry.parameters).getD []
      return {
        candidate := .class descriptor
        parameters := parameters.map ParameterDescriptor.type
        result := descriptor.defaultType
        unknowns := descriptor.typeParameters.map TypeParameterDescriptor.constructor }
  | .function descriptor => do
      let result ← around.returnType descriptor
      return {
        candidate := .function descriptor
        parameters := descriptor.parameters.map fun parameter =>
          parameter.type.substitute receiver
        result := result.substitute receiver
        unknowns := descriptor.typeParameters.map TypeParameterDescriptor.constructor }
  | other => return { candidate := other, parameters := [], result := .error, unknowns := [] }

def signatures (receiver : Substitution) : List Descriptor → Script around.isOpen (List Signature)
  | [] => return []
  | candidate :: rest => do
      let first ← around.signature receiver candidate
      let later ← signatures receiver rest
      return first :: later

/-- The table with what is known of the type that is shown with a descriptor.
The own open type stays open. -/
def shown (descriptor : Descriptor) :
    Script around.isOpen (Option NominalType → InferredTypes) :=
  match descriptor.shownOpen? with
  | none => return fun _ => .empty
  | some node =>
      if node = around.own then
        return fun own => ⟨(own.map fun type => (node, type)).toList⟩
      else if isOpen : around.isOpen node then do
        let type ← .ask node isOpen .done
        return fun _ => ⟨[(node, type)]⟩
      else return fun _ => .empty

def resolveCall (reference : NodeRef) (name : String) (candidates : List Descriptor)
    (arguments : List NominalType) (receiver : Substitution) : Script around.isOpen NominalType := do
  let judged ← around.signatures receiver candidates
  match Choice.among judged arguments with
  | .none => do
      Script.unresolved reference name
      return .error
  | .mismatch only => do
      Script.record reference only.candidate
      let inferred ← around.shown only.candidate
      .write (fun own => .problem {
        problem := .argumentMismatch arguments (only.candidate.render (inferred own))
        node := reference }) (.done ())
      return only.result
  | .inapplicable => do
      Script.report (.noneApplicable candidates.length name arguments) reference
      Script.tell (.meaning reference .unresolved)
      return .error
  | .ambiguous winners => do
      Script.tell (.meaning reference (.ambiguous (winners.map Applicable.candidate)))
      Script.report (.overloadAmbiguity name winners.length) reference
      return .error
  | .chosen best => do
      let inferred ← around.shown best.candidate
      .write (fun own =>
        .meaning reference (.target (Resolver.callTarget (inferred own) best))) (.done ())
      return best.result

def resolveValue (name : Tree.SimpleName) : Script around.isOpen NominalType :=
  match around.lookup SymbolKind.isValue name.text with
  | [] => do
      Script.unresolved name.node.ref name.text
      return .error
  | symbol :: _ => do
      Script.record name.node.ref symbol.descriptor
      match symbol.descriptor with
      | .variable holder => around.variableType holder
      | _ => return .error

def resolveCallableRef (name : Tree.SimpleName) : Script around.isOpen NominalType := do
  let node := name.node.ref
  match around.lookup (fun kind => kind = .function) name.text with
  | [] => do
      Script.unresolved node name.text
      Script.typed node .error
  | [symbol] => do
      Script.record node symbol.descriptor
      let type ← around.valueType symbol.descriptor
      Script.typed node type
  | symbols => do
      Script.tell (.meaning node (.ambiguous (symbols.map Symbol.descriptor)))
      Script.report (.callableReferenceAmbiguity name.text symbols.length) node
      Script.typed node .error

def resolveSelector (receiver : NominalType) (selector : Tree.SimpleName) :
    Script around.isOpen NominalType := do
  let node := selector.node.ref
  if receiver.isError then
    let type ← Script.recordError node selector.text
    Script.typed node type
  else
    let (members, substitution) := around.membersOf receiver selector.text
    match members.filterMap Resolver.asProperty? with
    | [] => do
        Script.unresolved node (receiver.render ++ "." ++ selector.text)
        Script.typed node .error
    | property :: _ => do
        Script.record node (.variable (.property property))
        let type ← around.variableType (.property property)
        Script.typed node (type.substitute substitution)

def resolveMemberCall (receiver : NominalType) (selector : Tree.SimpleName)
    (arguments : List NominalType) : Script around.isOpen NominalType := do
  let node := selector.node.ref
  if receiver.isError then
    let type ← Script.recordError node selector.text
    Script.typed node type
  else
    let (members, substitution) := around.membersOf receiver selector.text
    let candidates ← around.callables members
    let type ← around.resolveCall node selector.text candidates arguments substitution
    Script.typed node type

def resolveNameCall (name : Tree.SimpleName) (arguments : List NominalType) :
    Script around.isOpen NominalType := do
  let candidates ← around.callablesAt name.text around.levels
  let type ← around.resolveCall name.node.ref name.text candidates arguments .empty
  Script.typed name.node.ref type

def resolveOperator (left right : NominalType) (reference : Tree.OperatorRef) :
    Script around.isOpen NominalType := do
  let node := (Node.operator reference).ref
  let name := reference.operator.memberName
  let type ←
    if left.isError then Script.recordError node name
    else
      let (members, substitution) := around.membersOf left name
      around.resolveCall node name (members.filter Resolver.isFunction) [right] substitution
  return if reference.operator.isComparison then Library.boolean else type

mutual

def infer : Tree.Expr → Script around.isOpen NominalType
  | .name name => do
      let type ← around.resolveValue name
      Script.typed name.node.ref type
  | .integer span value => Script.typed (Tree.Expr.integer span value).node.ref Library.int
  | .text span value => Script.typed (Tree.Expr.text span value).node.ref Library.string
  | .boolean span value => Script.typed (Tree.Expr.boolean span value).node.ref Library.boolean
  | .null span =>
      Script.typed (Tree.Expr.null span).node.ref (Library.nothing.withNullable true)
  | .callableRef span target => do
      let type ← around.resolveCallableRef target
      Script.typed (Tree.Expr.callableRef span target).node.ref type
  | .paren span inner => do
      let type ← infer inner
      Script.typed (Tree.Expr.paren span inner).node.ref type
  | .ifThen span condition thenBranch => do
      let conditionType ← infer condition
      Script.expect conditionType Library.boolean condition.node.ref
      let _ ← infer thenBranch
      Script.typed (Tree.Expr.ifThen span condition thenBranch).node.ref Library.unit
  | .ifElse span condition thenBranch elseBranch => do
      let conditionType ← infer condition
      Script.expect conditionType Library.boolean condition.node.ref
      let thenType ← infer thenBranch
      let elseType ← infer elseBranch
      Script.typed (Tree.Expr.ifElse span condition thenBranch elseBranch).node.ref
        (thenType.join elseType Library.any)
  | .member span receiver selector => do
      let receiverType ← infer receiver
      let type ← around.resolveSelector receiverType selector
      Script.typed (Tree.Expr.member span receiver selector).node.ref type
  | .binary span left operator right => do
      let leftType ← infer left
      let rightType ← infer right
      let type ← around.resolveOperator leftType rightType operator
      Script.typed (Tree.Expr.binary span left operator right).node.ref type
  | .call span (.name name) arguments => do
      let argumentTypes ← inferAll arguments
      let type ← around.resolveNameCall name argumentTypes
      Script.typed (Tree.Expr.call span (.name name) arguments).node.ref type
  | .call span (.member memberSpan receiver selector) arguments => do
      let callee := Tree.Expr.member memberSpan receiver selector
      let argumentTypes ← inferAll arguments
      let receiverType ← infer receiver
      let type ← around.resolveMemberCall receiverType selector argumentTypes
      Script.tell (.typed callee.node.ref type)
      Script.typed (Tree.Expr.call span callee arguments).node.ref type
  | .call span callee arguments => do
      let call := (Tree.Expr.call span callee arguments).node.ref
      let argumentTypes ← inferAll arguments
      let calleeType ← infer callee
      let type ← Script.resolveValueCall call callee.node.ref calleeType argumentTypes arguments
      Script.typed call type

def inferAll : List Tree.Expr → Script around.isOpen (List NominalType)
  | [] => return []
  | expression :: rest => do
      let type ← infer expression
      let later ← inferAll rest
      return type :: later

end

end Surroundings

end Gloss
