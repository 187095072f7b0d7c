import Gloss.Proofs.Tree.Subtree

/-!
# Trees with other spans

A change of spans gives every node of a tree another span, and every name that
stands apart from its node another one too.  It keeps everything else, the order
of the nodes included.
-/

namespace Gloss

/-- What becomes of the spans of nodes, and of the spans of the names of nodes. -/
structure SpanChange where
  node : Span → Span
  name : Span → Span

namespace Span

/-- The span behind as many more characters. -/
def behind (count : Nat) (span : Span) : Span := ⟨span.start + count, span.stop + count⟩

theorem size_behind (count : Nat) (span : Span) : (span.behind count).size = span.size :=
  Nat.add_sub_add_right ..

end Span

namespace SpanChange

/-- All spans move behind as many more characters. -/
def behind (count : Nat) : SpanChange := ⟨Span.behind count, Span.behind count⟩

/-- The spans of names are forgotten. -/
def nameless : SpanChange := ⟨id, fun _ => ⟨0, 0⟩⟩

@[simp] theorem nameless_node (span : Span) : nameless.node span = span := rfl

@[simp] theorem nameless_name (span : Span) : nameless.name span = ⟨0, 0⟩ := rfl

end SpanChange

namespace Tree

variable (change : SpanChange)

def SimpleName.respan (name : SimpleName) : SimpleName := ⟨change.node name.span, name.text⟩

def OperatorRef.respan (use : OperatorRef) : OperatorRef := ⟨change.node use.span, use.operator⟩

mutual

def TypeRef.respan : TypeRef → TypeRef
  | .named span nullable name nameSpan arguments =>
      .named (change.node span) nullable name (change.name nameSpan) (TypeRef.respanAll arguments)
  | .function span nullable parameters result =>
      .function (change.node span) nullable (TypeRef.respanAll parameters) result.respan

def TypeRef.respanAll : List TypeRef → List TypeRef
  | [] => []
  | first :: rest => first.respan :: TypeRef.respanAll rest

end

mutual

def Expr.respan : Expr → Expr
  | .name simple => .name (simple.respan change)
  | .integer span value => .integer (change.node span) value
  | .text span value => .text (change.node span) value
  | .boolean span value => .boolean (change.node span) value
  | .null span => .null (change.node span)
  | .callableRef span target => .callableRef (change.node span) (target.respan change)
  | .paren span inner => .paren (change.node span) inner.respan
  | .ifThen span condition thenBranch =>
      .ifThen (change.node span) condition.respan thenBranch.respan
  | .ifElse span condition thenBranch elseBranch =>
      .ifElse (change.node span) condition.respan thenBranch.respan elseBranch.respan
  | .call span callee arguments =>
      .call (change.node span) callee.respan (Expr.respanAll arguments)
  | .member span receiver selector =>
      .member (change.node span) receiver.respan (selector.respan change)
  | .binary span left use right =>
      .binary (change.node span) left.respan (use.respan change) right.respan

def Expr.respanAll : List Expr → List Expr
  | [] => []
  | first :: rest => first.respan :: Expr.respanAll rest

end

def TypeParameter.respan (parameter : TypeParameter) : TypeParameter :=
  ⟨change.node parameter.span, parameter.name⟩

def ConstructorParameter.respan (parameter : ConstructorParameter) : ConstructorParameter :=
  { parameter with
    span := change.node parameter.span
    nameSpan := change.name parameter.nameSpan
    type := parameter.type.respan change }

def ValueParameter.respan (parameter : ValueParameter) : ValueParameter :=
  { parameter with
    span := change.node parameter.span
    nameSpan := change.name parameter.nameSpan
    type := parameter.type.respan change }

def Property.respan (declared : Property) : Property :=
  { declared with
    span := change.node declared.span
    nameSpan := change.name declared.nameSpan
    type := declared.type.map (TypeRef.respan change)
    initializer := declared.initializer.map (Expr.respan change) }

def Statement.respan : Statement → Statement
  | .variable declared => .variable (declared.respan change)
  | .expression value => .expression (value.respan change)

def Block.respan (steps : Block) : Block :=
  ⟨change.node steps.span, steps.statements.map (Statement.respan change)⟩

def Body.respan : Body → Body
  | .expression value => .expression (value.respan change)
  | .block steps => .block (steps.respan change)

def Function.respan (declared : Function) : Function :=
  { declared with
    span := change.node declared.span
    nameSpan := change.name declared.nameSpan
    typeParameters := declared.typeParameters.map (TypeParameter.respan change)
    parameters := declared.parameters.map (ValueParameter.respan change)
    returnType := declared.returnType.map (TypeRef.respan change)
    body := declared.body.respan change }

def Member.respan : Member → Member
  | .function declared => .function (declared.respan change)
  | .property declared => .property (declared.respan change)

def Class.respan (declared : Class) : Class :=
  { declared with
    span := change.node declared.span
    nameSpan := change.name declared.nameSpan
    typeParameters := declared.typeParameters.map (TypeParameter.respan change)
    constructorParameters := declared.constructorParameters.map (ConstructorParameter.respan change)
    members := declared.members.map (Member.respan change) }

def TopLevel.respan : TopLevel → TopLevel
  | .class declared => .class (declared.respan change)
  | .member declared => .member (declared.respan change)

def Package.respan (header : Package) : Package :=
  ⟨change.node header.span, header.names.map (SimpleName.respan change)⟩

def File.respan (file : File) : File :=
  { span := change.node file.span
    package := file.package.map (Package.respan change)
    declarations := file.declarations.map (TopLevel.respan change) }

variable {change}

@[simp] theorem TypeRef.respanAll_eq_map (types : List TypeRef) :
    TypeRef.respanAll change types = types.map (TypeRef.respan change) := by
  induction types with
  | nil => rfl
  | cons first rest ih => rw [TypeRef.respanAll, ih, List.map_cons]

@[simp] theorem Expr.respanAll_eq_map (values : List Expr) :
    Expr.respanAll change values = values.map (Expr.respan change) := by
  induction values with
  | nil => rfl
  | cons first rest ih => rw [Expr.respanAll, ih, List.map_cons]

@[simp] theorem Expr.span_respan (value : Expr) :
    (value.respan change).span = change.node value.span := by
  cases value <;> rfl

end Tree

/-- The span of a name stands for no node and tells nothing else. -/
def Part.isSpan {ν : Type} : Part ν → Bool
  | .span _ => true
  | _ => false

namespace Node

open Gloss.Part (isSpan)

/-- The parts of a node but the spans of names. -/
def told (node : Node) : List (String × Part Node) :=
  node.parts.filter fun part => !part.2.isSpan

theorem children_eq_told (node : Node) :
    node.children = node.told.flatMap fun part => part.2.children := by
  unfold children told
  induction node.parts with
  | nil => rfl
  | cons first rest ih =>
      obtain ⟨name, part⟩ := first
      rw [List.flatMap_cons, List.filter_cons, ih]
      cases part <;> rfl

variable (change : SpanChange)

def respan : Node → Node
  | .file source => .file (source.respan change)
  | .package header => .package (header.respan change)
  | .type written => .type (written.respan change)
  | .typeParameter parameter => .typeParameter (parameter.respan change)
  | .constructorParameter parameter => .constructorParameter (parameter.respan change)
  | .valueParameter parameter => .valueParameter (parameter.respan change)
  | .property declared => .property (declared.respan change)
  | .function declared => .function (declared.respan change)
  | .class declared => .class (declared.respan change)
  | .block steps => .block (steps.respan change)
  | .expression value => .expression (value.respan change)
  | .operator use => .operator (use.respan change)

variable {change}

@[simp] theorem respan_file (source : Tree.File) :
    (Node.file source).respan change = .file (source.respan change) := rfl

@[simp] theorem respan_package (header : Tree.Package) :
    (Node.package header).respan change = .package (header.respan change) := rfl

@[simp] theorem respan_type (written : Tree.TypeRef) :
    (Node.type written).respan change = .type (written.respan change) := rfl

@[simp] theorem respan_typeParameter (parameter : Tree.TypeParameter) :
    (Node.typeParameter parameter).respan change = .typeParameter (parameter.respan change) := rfl

@[simp] theorem respan_constructorParameter (parameter : Tree.ConstructorParameter) :
    (Node.constructorParameter parameter).respan change = .constructorParameter (parameter.respan change) := rfl

@[simp] theorem respan_valueParameter (parameter : Tree.ValueParameter) :
    (Node.valueParameter parameter).respan change = .valueParameter (parameter.respan change) := rfl

@[simp] theorem respan_property (declared : Tree.Property) :
    (Node.property declared).respan change = .property (declared.respan change) := rfl

@[simp] theorem respan_function (declared : Tree.Function) :
    (Node.function declared).respan change = .function (declared.respan change) := rfl

@[simp] theorem respan_class (declared : Tree.Class) :
    (Node.class declared).respan change = .class (declared.respan change) := rfl

@[simp] theorem respan_block (steps : Tree.Block) :
    (Node.block steps).respan change = .block (steps.respan change) := rfl

@[simp] theorem respan_expression (value : Tree.Expr) :
    (Node.expression value).respan change = .expression (value.respan change) := rfl

@[simp] theorem respan_operator (use : Tree.OperatorRef) :
    (Node.operator use).respan change = .operator (use.respan change) := rfl

@[simp] theorem node_respan_simpleName (name : Tree.SimpleName) :
    (name.respan change).node = name.node.respan change := rfl

@[simp] theorem node_respan_expr (value : Tree.Expr) :
    (value.respan change).node = value.node.respan change := rfl

@[simp] theorem node_respan_statement (step : Tree.Statement) :
    (step.respan change).node = step.node.respan change := by
  cases step <;> rfl

@[simp] theorem node_respan_body (body : Tree.Body) :
    (body.respan change).node = body.node.respan change := by
  cases body <;> rfl

@[simp] theorem node_respan_member (declared : Tree.Member) :
    (declared.respan change).node = declared.node.respan change := by
  cases declared <;> rfl

@[simp] theorem node_respan_topLevel (declared : Tree.TopLevel) :
    (declared.respan change).node = declared.node.respan change := by
  cases declared with
  | «class» => rfl
  | member declared => exact node_respan_member declared

@[simp] theorem kind_respan (node : Node) : (node.respan change).kind = node.kind := by
  cases node with
  | type written => cases written <;> rfl
  | expression value => cases value <;> rfl
  | _ => rfl

@[simp] theorem span_respan (node : Node) :
    (node.respan change).span = change.node node.span := by
  cases node with
  | type written => cases written <;> rfl
  | expression value => exact value.span_respan
  | _ => rfl

/-- The parts of a node but the spans of names are the same, with other spans. -/
theorem told_respan (node : Node) :
    (node.respan change).told =
      node.told.map fun part => (part.1, part.2.map (respan change)) := by
  cases node with
  | type written =>
      cases written <;>
        simp [Tree.TypeRef.respan, told, parts, typeParts, isSpan, Part.map, Function.comp_def]
  | expression value =>
      cases value <;>
        simp [Tree.Expr.respan, told, parts, expressionParts, isSpan, Part.map, Tree.Expr.node,
          Tree.SimpleName.node, Tree.SimpleName.respan, Function.comp_def]
  | file source =>
      cases package : source.package <;>
        simp [Tree.File.respan, told, parts, isSpan, Part.map, Part.optional, package,
          Function.comp_def]
  | constructorParameter parameter =>
      cases binding : parameter.binding <;>
        simp [Tree.ConstructorParameter.respan, told, parts, isSpan, Part.map, binding]
  | property declared =>
      cases type : declared.type <;> cases initializer : declared.initializer <;>
        simp [Tree.Property.respan, told, parts, isSpan, Part.map, Part.optional, type,
          initializer]
  | function declared =>
      cases type : declared.returnType <;>
        simp [Tree.Function.respan, told, parts, isSpan, Part.map, Part.optional, type,
          Function.comp_def]
  | package | typeParameter | valueParameter | «class» | block | operator =>
      simp [Tree.Package.respan, Tree.TypeParameter.respan, Tree.ValueParameter.respan,
        Tree.Class.respan, Tree.Block.respan, Tree.OperatorRef.respan, told, parts, isSpan,
        Part.map, Function.comp_def]

/-- The nodes below are the same, with other spans. -/
theorem children_respan (node : Node) :
    (node.respan change).children = node.children.map (respan change) := by
  rw [children_eq_told, told_respan, children_eq_told, List.flatMap_map, List.map_flatMap]
  simp only [children_map]

/-- The nodes of a tree are the same, with other spans. -/
theorem subtree_respan (node : Node) :
    (node.respan change).subtree = node.subtree.map (respan change) := by
  rw [subtree_eq, subtree_eq node, children_respan, List.map_cons, List.map_flatMap,
    List.flatMap_map]
  refine congrArg _ (List.flatMap_congr fun child isChild => ?_)
  have smaller := sizeOf_child_lt isChild
  exact subtree_respan child
termination_by sizeOf node

end Node

end Gloss
