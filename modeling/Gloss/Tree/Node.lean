import Gloss.Tree
import Gloss.Text.Basic

/-!
# Nodes

Every part of a tree that stands for itself, from the file down to a single
operator, is a node.  A node is known by its kind and its span.  Its parts are
listed once, with their names, and everything that walks a tree goes by that
list.
-/

namespace Gloss

inductive NodeKind where
  | file
  | package
  | name
  | namedType
  | functionType
  | typeParameter
  | constructorParameter
  | valueParameter
  | property
  | function
  | «class»
  | block
  | integer
  | text
  | boolean
  | null
  | callableRef
  | paren
  | conditional
  | call
  | member
  | operator
  | binary
  deriving DecidableEq, Repr

structure NodeRef where
  kind : NodeKind
  span : Span
  deriving DecidableEq, Repr

inductive Node where
  | file (file : Tree.File)
  | package (package : Tree.Package)
  | type (type : Tree.TypeRef)
  | typeParameter (parameter : Tree.TypeParameter)
  | constructorParameter (parameter : Tree.ConstructorParameter)
  | valueParameter (parameter : Tree.ValueParameter)
  | property (property : Tree.Property)
  | function (function : Tree.Function)
  | «class» (declaration : Tree.Class)
  | block (block : Tree.Block)
  | expression (expression : Tree.Expr)
  | operator (operator : Tree.OperatorRef)

/-- What a node has under one of its names; `ν` stands for the nodes below. -/
inductive Part (ν : Type) where
  | absent
  | flag (value : Bool)
  | number (value : Nat)
  | text (value : String)
  | span (value : Span)
  | node (value : ν)
  | nodes (values : List ν)

namespace NodeKind

def title : NodeKind → String
  | .file => "FileNode"
  | .package => "PackageDirective"
  | .name => "NameExpr"
  | .namedType => "NamedType"
  | .functionType => "FunctionTypeNode"
  | .typeParameter => "TypeParamDecl"
  | .constructorParameter => "CtorParamDecl"
  | .valueParameter => "ValueParamDecl"
  | .property => "PropertyDecl"
  | .function => "FunDecl"
  | .class => "ClassDecl"
  | .block => "Block"
  | .integer => "IntLiteral"
  | .text => "StringLiteral"
  | .boolean => "BoolLiteral"
  | .null => "NullLiteral"
  | .callableRef => "CallableRefExpr"
  | .paren => "ParenExpr"
  | .conditional => "IfExpr"
  | .call => "CallExpr"
  | .member => "MemberAccess"
  | .operator => "OperatorRef"
  | .binary => "BinaryExpr"

/-- Lower case with a hyphen before each capital but the first character. -/
def hyphenated : List Char → List Char
  | [] => []
  | first :: rest =>
      first.toLower :: rest.flatMap fun character =>
        if character.isUpper then ['-', character.toLower] else [character]

/-- The name of a kind in lower case, its words joined by hyphens. -/
def label (kind : NodeKind) : String :=
  String.ofList (hyphenated kind.title.toList)

def isDeclaration : NodeKind → Bool
  | .typeParameter | .constructorParameter | .valueParameter | .property
  | .function | .class => true
  | _ => false

def isParameter : NodeKind → Bool
  | .valueParameter | .constructorParameter => true
  | _ => false

def isReference : NodeKind → Bool
  | .name | .namedType | .operator => true
  | _ => false

def isExpression : NodeKind → Bool
  | .name | .integer | .text | .boolean | .null | .callableRef | .paren
  | .conditional | .call | .member | .binary => true
  | _ => false

end NodeKind

namespace NodeRef

def render (ref : NodeRef) : String :=
  s!"{ref.kind.label}@{ref.span.start}..{ref.span.stop}"

end NodeRef

namespace Part

variable {ν μ : Type}

def children : Part ν → List ν
  | .node value => [value]
  | .nodes values => values
  | _ => []

def map (change : ν → μ) : Part ν → Part μ
  | .absent => .absent
  | .flag value => .flag value
  | .number value => .number value
  | .text value => .text value
  | .span value => .span value
  | .node value => .node (change value)
  | .nodes values => .nodes (values.map change)

/-- The part with a function applied to its nodes, each known to be one. -/
def mapChildren (part : Part ν) (change : (child : ν) → child ∈ part.children → μ) :
    Part μ :=
  match part, change with
  | .absent, _ => .absent
  | .flag value, _ => .flag value
  | .number value, _ => .number value
  | .text value, _ => .text value
  | .span value, _ => .span value
  | .node value, change => .node (change value (by simp [children]))
  | .nodes values, change =>
      .nodes (values.attach.map fun child => change child.1 (by simp [children, child.2]))

theorem mapChildren_eq_map (part : Part ν) (change : ν → μ) :
    (part.mapChildren fun child _ => change child) = part.map change := by
  cases part <;> simp [mapChildren, map]

def optional : Option ν → Part ν
  | none => .absent
  | some value => .node value

end Part

namespace Tree

def Expr.node (expression : Expr) : Node := .expression expression

def SimpleName.node (name : SimpleName) : Node := .expression (.name name)

def Statement.node : Statement → Node
  | .variable declared => .property declared
  | .expression value => .expression value

def Body.node : Body → Node
  | .expression value => .expression value
  | .block steps => .block steps

def Member.node : Member → Node
  | .function declared => .function declared
  | .property declared => .property declared

def TopLevel.node : TopLevel → Node
  | .class declared => .class declared
  | .member declared => declared.node

end Tree

namespace Node

def expressionKind : Tree.Expr → NodeKind
  | .name _ => .name
  | .integer _ _ => .integer
  | .text _ _ => .text
  | .boolean _ _ => .boolean
  | .null _ => .null
  | .callableRef _ _ => .callableRef
  | .paren _ _ => .paren
  | .ifThen _ _ _ => .conditional
  | .ifElse _ _ _ _ => .conditional
  | .call _ _ _ => .call
  | .member _ _ _ => .member
  | .binary _ _ _ _ => .binary

def kind : Node → NodeKind
  | .file _ => .file
  | .package _ => .package
  | .type (.named ..) => .namedType
  | .type (.function ..) => .functionType
  | .typeParameter _ => .typeParameter
  | .constructorParameter _ => .constructorParameter
  | .valueParameter _ => .valueParameter
  | .property _ => .property
  | .function _ => .function
  | .class _ => .class
  | .block _ => .block
  | .expression value => expressionKind value
  | .operator _ => .operator

def span : Node → Span
  | .file source => source.span
  | .package header => header.span
  | .type written => written.span
  | .typeParameter parameter => parameter.span
  | .constructorParameter parameter => parameter.span
  | .valueParameter parameter => parameter.span
  | .property declared => declared.span
  | .function declared => declared.span
  | .class declared => declared.span
  | .block steps => steps.span
  | .expression value => value.span
  | .operator use => use.span

def ref (node : Node) : NodeRef := ⟨node.kind, node.span⟩

def declaredName? : Node → Option (String × Span)
  | .typeParameter parameter => some (parameter.name, parameter.span)
  | .constructorParameter parameter => some (parameter.name, parameter.nameSpan)
  | .valueParameter parameter => some (parameter.name, parameter.nameSpan)
  | .property declared => some (declared.name, declared.nameSpan)
  | .function declared => some (declared.name, declared.nameSpan)
  | .class declared => some (declared.name, declared.nameSpan)
  | _ => none

/-- A declaration in words: what it is and its name. -/
def describe : Node → String
  | .typeParameter parameter => "type parameter " ++ parameter.name
  | .constructorParameter parameter => "constructor parameter " ++ parameter.name
  | .valueParameter parameter => "parameter " ++ parameter.name
  | .property declared => declared.binding.keyword ++ " " ++ declared.name
  | .function declared => "fun " ++ declared.name
  | .class declared => "class " ++ declared.name
  | _ => ""

def typeParts : Tree.TypeRef → List (String × Part Node)
  | .named _ nullable name nameSpan arguments =>
      [("nullable", .flag nullable), ("name", .text name), ("name_span", .span nameSpan),
        ("args", .nodes (arguments.map .type))]
  | .function _ nullable parameters result =>
      [("nullable", .flag nullable), ("params", .nodes (parameters.map .type)),
        ("result", .node (.type result))]

def expressionParts : Tree.Expr → List (String × Part Node)
  | .name name => [("name", .text name.text)]
  | .integer _ value => [("value", .number value)]
  | .text _ value => [("value", .text value)]
  | .boolean _ value => [("value", .flag value)]
  | .null _ => []
  | .callableRef _ target => [("target", .node target.node)]
  | .paren _ inner => [("inner", .node inner.node)]
  | .ifThen _ condition thenBranch =>
      [("condition", .node condition.node), ("then_branch", .node thenBranch.node),
        ("else_branch", .absent)]
  | .ifElse _ condition thenBranch elseBranch =>
      [("condition", .node condition.node), ("then_branch", .node thenBranch.node),
        ("else_branch", .node elseBranch.node)]
  | .call _ callee arguments =>
      [("callee", .node callee.node), ("args", .nodes (arguments.map Tree.Expr.node))]
  | .member _ receiver selector =>
      [("receiver", .node receiver.node), ("selector", .node selector.node)]
  | .binary _ left use right =>
      [("left", .node left.node), ("operator", .node (.operator use)),
        ("right", .node right.node)]

def parts : Node → List (String × Part Node)
  | .file source =>
      [("package", .optional (source.package.map .package)),
        ("declarations", .nodes (source.declarations.map Tree.TopLevel.node))]
  | .package header => [("names", .nodes (header.names.map Tree.SimpleName.node))]
  | .type written => typeParts written
  | .typeParameter parameter =>
      [("name", .text parameter.name), ("name_span", .span parameter.span)]
  | .constructorParameter parameter =>
      [("name", .text parameter.name), ("name_span", .span parameter.nameSpan),
        ("type_ref", .node (.type parameter.type)),
        ("binding", match parameter.binding with
          | none => .absent
          | some binding => .text binding.keyword)]
  | .valueParameter parameter =>
      [("name", .text parameter.name), ("name_span", .span parameter.nameSpan),
        ("type_ref", .node (.type parameter.type))]
  | .property declared =>
      [("name", .text declared.name), ("name_span", .span declared.nameSpan),
        ("mutable", .flag (declared.binding = .var)),
        ("type_ref", .optional (declared.type.map .type)),
        ("initializer", .optional (declared.initializer.map .expression))]
  | .function declared =>
      [("name", .text declared.name), ("name_span", .span declared.nameSpan),
        ("type_params", .nodes (declared.typeParameters.map .typeParameter)),
        ("params", .nodes (declared.parameters.map .valueParameter)),
        ("return_type", .optional (declared.returnType.map .type)),
        ("body", .node declared.body.node)]
  | .class declared =>
      [("name", .text declared.name), ("name_span", .span declared.nameSpan),
        ("type_params", .nodes (declared.typeParameters.map .typeParameter)),
        ("ctor_params", .nodes
          (declared.constructorParameters.map .constructorParameter)),
        ("members", .nodes (declared.members.map Tree.Member.node))]
  | .block steps => [("statements", .nodes (steps.statements.map Tree.Statement.node))]
  | .expression value => expressionParts value
  | .operator use => [("symbol", .text use.operator.symbol)]

def children (node : Node) : List Node :=
  node.parts.flatMap fun part => part.2.children

end Node

end Gloss
