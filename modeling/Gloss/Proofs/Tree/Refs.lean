import Gloss.Proofs.Tree.Subtree
import Mathlib.Algebra.BigOperators.Group.Multiset.Defs
import Mathlib.Algebra.Order.Group.Multiset

/-!
# The references and the declarations of a tree

The nodes of some kinds in a tree, each as often as it occurs and in no order.
They are those of the trees right below the root, and the root itself if it is
of such a kind.
-/

namespace Gloss

namespace Node

/-- The nodes of acceptable kinds from a node downwards. -/
def refsOf (accept : NodeKind → Bool) (node : Node) : Multiset NodeRef :=
  ((node.subtree.filter fun inner => accept inner.kind).map ref : List NodeRef)

/-- The references from a node downwards. -/
def references (node : Node) : Multiset NodeRef := node.refsOf NodeKind.isReference

/-- The declarations from a node downwards. -/
def declarations (node : Node) : Multiset NodeRef := node.refsOf NodeKind.isDeclaration

variable {accept : NodeKind → Bool} {node : Node}

theorem coe_flatMap_filter (accept : NodeKind → Bool) (nodes : List Node) :
    ((((nodes.flatMap subtree).filter fun inner => accept inner.kind).map ref : List NodeRef) :
      Multiset NodeRef) = (nodes.map (refsOf accept)).sum := by
  induction nodes with
  | nil => rfl
  | cons node rest ih =>
      rw [List.flatMap_cons, List.filter_append, List.map_append, ← Multiset.coe_add, ih]
      rfl

theorem refsOf_eq (accept : NodeKind → Bool) (node : Node) :
    node.refsOf accept =
      (if accept node.kind then {node.ref} else 0) +
        (node.children.map (refsOf accept)).sum := by
  rw [refsOf, subtree_eq, List.filter_cons]
  split
  · rw [List.map_cons, ← Multiset.cons_coe, coe_flatMap_filter, Multiset.singleton_add]
  · rw [coe_flatMap_filter, zero_add]

theorem references_eq (node : Node) :
    node.references =
      (if node.kind.isReference then {node.ref} else 0) +
        (node.children.map references).sum :=
  refsOf_eq _ _

theorem declarations_eq (node : Node) :
    node.declarations =
      (if node.kind.isDeclaration then {node.ref} else 0) +
        (node.children.map declarations).sum :=
  refsOf_eq _ _

/-- Whether a node is a part of an expression or of a written type. -/
def isInnermost : Node → Bool
  | .expression _ | .type _ | .operator _ => true
  | _ => false

@[simp] theorem isInnermost_expression (value : Tree.Expr) :
    (expression value).isInnermost = true := rfl

@[simp] theorem isInnermost_type (written : Tree.TypeRef) :
    (type written).isInnermost = true := rfl

@[simp] theorem isInnermost_operator (use : Tree.OperatorRef) :
    (operator use).isInnermost = true := rfl

theorem isInnermost_children (innermost : node.isInnermost = true) :
    ∀ child ∈ node.children, child.isInnermost = true := by
  cases node with
  | operator use => simp [children, parts, Part.children]
  | type written => cases written <;> simp +contextual [children, parts, typeParts, Part.children, or_imp]
  | expression value =>
      cases value <;>
        simp [children, parts, expressionParts, Part.children, Tree.Expr.node,
          Tree.SimpleName.node]
  | _ => cases innermost

theorem isDeclaration_of_isInnermost (innermost : node.isInnermost = true) :
    node.kind.isDeclaration = false := by
  cases node with
  | operator use => rfl
  | type written => cases written <;> rfl
  | expression value => cases value <;> rfl
  | _ => cases innermost

/-- Nothing is declared inside of expressions and written types. -/
theorem declarations_of_isInnermost (node : Node) (innermost : node.isInnermost = true) :
    node.declarations = 0 := by
  rw [declarations_eq, isDeclaration_of_isInnermost innermost]
  have none : ∀ child ∈ node.children, child.declarations = 0 := by
    intro child member
    have smaller := sizeOf_child_lt member
    exact declarations_of_isInnermost child (isInnermost_children innermost child member)
  rw [List.map_congr_left none, List.map_const', List.sum_replicate]
  simp
termination_by sizeOf node

section Equations

attribute [local simp] children parts expressionParts typeParts Part.children Part.optional
  kind expressionKind NodeKind.isReference NodeKind.isDeclaration
  Tree.Expr.node Tree.SimpleName.node Tree.Statement.node Tree.Body.node Tree.Member.node
  Tree.TopLevel.node

@[simp] theorem references_name (simple : Tree.SimpleName) :
    (expression (.name simple)).references = {simple.node.ref} := by
  rw [references_eq]
  simp

@[simp] theorem references_integer (span : Span) (value : Nat) :
    (expression (.integer span value)).references = 0 := by
  rw [references_eq]
  simp

@[simp] theorem references_text (span : Span) (value : String) :
    (expression (.text span value)).references = 0 := by
  rw [references_eq]
  simp

@[simp] theorem references_boolean (span : Span) (value : Bool) :
    (expression (.boolean span value)).references = 0 := by
  rw [references_eq]
  simp

@[simp] theorem references_null (span : Span) :
    (expression (.null span)).references = 0 := by
  rw [references_eq]
  simp

@[simp] theorem references_callableRef (span : Span) (target : Tree.SimpleName) :
    (expression (.callableRef span target)).references = {target.node.ref} := by
  rw [references_eq]
  simp

@[simp] theorem references_paren (span : Span) (inner : Tree.Expr) :
    (expression (.paren span inner)).references = (expression inner).references := by
  rw [references_eq]
  simp

@[simp] theorem references_ifThen (span : Span) (condition thenBranch : Tree.Expr) :
    (expression (.ifThen span condition thenBranch)).references =
      (expression condition).references + (expression thenBranch).references := by
  rw [references_eq]
  simp

@[simp] theorem references_ifElse (span : Span) (condition thenBranch elseBranch : Tree.Expr) :
    (expression (.ifElse span condition thenBranch elseBranch)).references =
      (expression condition).references + (expression thenBranch).references +
        (expression elseBranch).references := by
  rw [references_eq]
  simp [add_assoc]

@[simp] theorem references_call (span : Span) (callee : Tree.Expr)
    (arguments : List Tree.Expr) :
    (expression (.call span callee arguments)).references =
      (expression callee).references +
        (arguments.map fun argument => (expression argument).references).sum := by
  rw [references_eq]
  simp [Function.comp_def]

@[simp] theorem references_member (span : Span) (receiver : Tree.Expr)
    (selector : Tree.SimpleName) :
    (expression (.member span receiver selector)).references =
      (expression receiver).references + {selector.node.ref} := by
  rw [references_eq]
  simp

@[simp] theorem references_binary (span : Span) (left right : Tree.Expr)
    (use : Tree.OperatorRef) :
    (expression (.binary span left use right)).references =
      (expression left).references + {(operator use).ref} + (expression right).references := by
  rw [references_eq]
  have ofOperator : (operator use).references = {(operator use).ref} := by
    rw [references_eq]
    simp
  simp [ofOperator, add_assoc]

@[simp] theorem references_named (span : Span) (nullable : Bool) (name : String)
    (nameSpan : Span) (arguments : List Tree.TypeRef) :
    (type (.named span nullable name nameSpan arguments)).references =
      {(type (.named span nullable name nameSpan arguments)).ref} +
        (arguments.map fun argument => (type argument).references).sum := by
  rw [references_eq]
  simp [Function.comp_def]

@[simp] theorem references_functionType (span : Span) (nullable : Bool)
    (parameters : List Tree.TypeRef) (result : Tree.TypeRef) :
    (type (.function span nullable parameters result)).references =
      (parameters.map fun parameter => (type parameter).references).sum +
        (type result).references := by
  rw [references_eq]
  simp [Function.comp_def]

@[simp] theorem references_typeParameter (parameter : Tree.TypeParameter) :
    (typeParameter parameter).references = 0 := by
  rw [references_eq]
  simp

@[simp] theorem references_constructorParameter (parameter : Tree.ConstructorParameter) :
    (constructorParameter parameter).references = (type parameter.type).references := by
  rw [references_eq]
  cases binding : parameter.binding <;> simp [binding]

@[simp] theorem references_valueParameter (parameter : Tree.ValueParameter) :
    (valueParameter parameter).references = (type parameter.type).references := by
  rw [references_eq]
  simp

/-- The references of a node that may be missing. -/
def referencesOf? (node? : Option Node) : Multiset NodeRef := (node?.map references).getD 0

@[simp] theorem referencesOf?_none : referencesOf? none = 0 := rfl

@[simp] theorem referencesOf?_some (node : Node) : referencesOf? (some node) = node.references :=
  rfl

theorem references_property (declared : Tree.Property) :
    (property declared).references =
      referencesOf? (declared.type.map type) +
        referencesOf? (declared.initializer.map expression) := by
  rw [references_eq]
  cases type : declared.type <;> cases initializer : declared.initializer <;>
    simp [type, initializer]

theorem references_function (declared : Tree.Function) :
    (function declared).references =
      (declared.parameters.map fun parameter => (type parameter.type).references).sum +
        referencesOf? (declared.returnType.map type) + declared.body.node.references := by
  rw [references_eq]
  cases written : declared.returnType <;>
    simp [written, Function.comp_def, add_assoc]

theorem references_class (declared : Tree.Class) :
    («class» declared).references =
      (declared.constructorParameters.map fun parameter =>
        (type parameter.type).references).sum +
        (declared.members.map fun member => member.node.references).sum := by
  rw [references_eq]
  simp [Function.comp_def]

theorem references_block (steps : Tree.Block) :
    (block steps).references =
      (steps.statements.map fun statement => statement.node.references).sum := by
  rw [references_eq]
  simp [Function.comp_def]

@[simp] theorem declarations_expression (value : Tree.Expr) :
    (expression value).declarations = 0 :=
  declarations_of_isInnermost _ (isInnermost_expression value)

@[simp] theorem declarations_type (written : Tree.TypeRef) : (type written).declarations = 0 :=
  declarations_of_isInnermost _ (isInnermost_type written)

@[simp] theorem declarations_typeParameter (parameter : Tree.TypeParameter) :
    (typeParameter parameter).declarations = {(typeParameter parameter).ref} := by
  rw [declarations_eq]
  simp

@[simp] theorem declarations_constructorParameter (parameter : Tree.ConstructorParameter) :
    (constructorParameter parameter).declarations = {(constructorParameter parameter).ref} := by
  rw [declarations_eq]
  cases binding : parameter.binding <;> simp [binding]

@[simp] theorem declarations_valueParameter (parameter : Tree.ValueParameter) :
    (valueParameter parameter).declarations = {(valueParameter parameter).ref} := by
  rw [declarations_eq]
  simp

@[simp] theorem declarations_property (declared : Tree.Property) :
    (property declared).declarations = {(property declared).ref} := by
  rw [declarations_eq]
  cases type : declared.type <;> cases initializer : declared.initializer <;>
    simp [type, initializer]

theorem declarations_function (declared : Tree.Function) :
    (function declared).declarations =
      {(function declared).ref} +
        (declared.typeParameters.map fun parameter => {(typeParameter parameter).ref}).sum +
        (declared.parameters.map fun parameter => {(valueParameter parameter).ref}).sum +
        declared.body.node.declarations := by
  rw [declarations_eq]
  cases written : declared.returnType <;>
    simp [written, Function.comp_def, add_assoc]

theorem declarations_class (declared : Tree.Class) :
    («class» declared).declarations =
      {(«class» declared).ref} +
        (declared.typeParameters.map fun parameter => {(typeParameter parameter).ref}).sum +
        (declared.constructorParameters.map fun parameter =>
          {(constructorParameter parameter).ref}).sum +
        (declared.members.map fun member => member.node.declarations).sum := by
  rw [declarations_eq]
  simp [Function.comp_def, add_assoc]

theorem declarations_block (steps : Tree.Block) :
    (block steps).declarations =
      (steps.statements.map fun statement => statement.node.declarations).sum := by
  rw [declarations_eq]
  simp [Function.comp_def]

end Equations

end Node

end Gloss
