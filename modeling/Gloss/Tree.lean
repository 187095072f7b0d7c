import Gloss.Text.Span

/-!
# Trees of source files

The fixture language has classes with type and constructor parameters,
functions, properties, function types, callable references and binary
operators.  Every part of a tree carries the span of its own text, without
the white space around it.
-/

namespace Gloss.Tree

/-- A simple name in use: a value, a callee, a selector or a package part. -/
structure SimpleName where
  span : Span
  text : String
  deriving DecidableEq, Repr

inductive TypeRef where
  /-- A class or a type parameter by name, with type arguments. -/
  | named (span : Span) (nullable : Bool) (name : String) (nameSpan : Span)
      (arguments : List TypeRef)
  | function (span : Span) (nullable : Bool) (parameters : List TypeRef)
      (result : TypeRef)
  deriving Repr

inductive Operator where
  | plus
  | minus
  | times
  | divide
  | remainder
  | less
  | greater
  | atMost
  | atLeast
  | equal
  | unequal
  deriving DecidableEq, Repr

/-- An operator in use; it refers to a member function. -/
structure OperatorRef where
  span : Span
  operator : Operator
  deriving DecidableEq, Repr

inductive Expr where
  | name (name : SimpleName)
  | integer (span : Span) (value : Nat)
  | text (span : Span) (value : String)
  | boolean (span : Span) (value : Bool)
  | null (span : Span)
  | callableRef (span : Span) (target : SimpleName)
  | paren (span : Span) (inner : Expr)
  | ifThen (span : Span) (condition thenBranch : Expr)
  | ifElse (span : Span) (condition thenBranch elseBranch : Expr)
  | call (span : Span) (callee : Expr) (arguments : List Expr)
  | member (span : Span) (receiver : Expr) (selector : SimpleName)
  | binary (span : Span) (left : Expr) (operator : OperatorRef) (right : Expr)
  deriving Repr

/-- Whether a variable can be assigned again. -/
inductive Binding where
  | val
  | var
  deriving DecidableEq, Repr

structure TypeParameter where
  span : Span
  name : String
  deriving DecidableEq, Repr

/-- A constructor parameter; with a binding it declares a property too. -/
structure ConstructorParameter where
  span : Span
  name : String
  nameSpan : Span
  type : TypeRef
  binding : Option Binding
  deriving Repr

structure ValueParameter where
  span : Span
  name : String
  nameSpan : Span
  type : TypeRef
  deriving Repr

/-- A property of a file or a class, or a local variable of a block. -/
structure Property where
  span : Span
  name : String
  nameSpan : Span
  binding : Binding
  type : Option TypeRef
  initializer : Option Expr
  deriving Repr

inductive Statement where
  | variable (property : Property)
  | expression (expression : Expr)
  deriving Repr

/-- Statements between braces. -/
structure Block where
  span : Span
  statements : List Statement
  deriving Repr

inductive Body where
  | expression (expression : Expr)
  | block (block : Block)
  deriving Repr

structure Function where
  span : Span
  name : String
  nameSpan : Span
  typeParameters : List TypeParameter
  parameters : List ValueParameter
  returnType : Option TypeRef
  body : Body
  deriving Repr

/-- A declaration in the body of a class. -/
inductive Member where
  | function (function : Function)
  | property (property : Property)
  deriving Repr

structure Class where
  span : Span
  name : String
  nameSpan : Span
  typeParameters : List TypeParameter
  constructorParameters : List ConstructorParameter
  members : List Member
  deriving Repr

inductive TopLevel where
  | «class» (declaration : Class)
  | member (declaration : Member)
  deriving Repr

structure Package where
  span : Span
  names : List SimpleName
  deriving DecidableEq, Repr

structure File where
  span : Span
  package : Option Package
  declarations : List TopLevel
  deriving Repr

namespace TypeRef

def span : TypeRef → Span
  | .named span .. | .function span .. => span

def nullable : TypeRef → Bool
  | .named _ nullable .. | .function _ nullable .. => nullable

def orNull (span : Span) : TypeRef → TypeRef
  | .named _ _ name nameSpan arguments => .named span true name nameSpan arguments
  | .function _ _ parameters result => .function span true parameters result

end TypeRef

namespace Operator

def all : List Operator :=
  [.equal, .unequal, .atMost, .atLeast, .less, .greater, .plus, .minus,
    .times, .divide, .remainder]

def symbol : Operator → String
  | .plus => "+"
  | .minus => "-"
  | .times => "*"
  | .divide => "/"
  | .remainder => "%"
  | .less => "<"
  | .greater => ">"
  | .atMost => "<="
  | .atLeast => ">="
  | .equal => "=="
  | .unequal => "!="

def memberName : Operator → String
  | .plus => "plus"
  | .minus => "minus"
  | .times => "times"
  | .divide => "div"
  | .remainder => "rem"
  | .less | .greater | .atMost | .atLeast => "compareTo"
  | .equal | .unequal => "equals"

def isComparison : Operator → Bool
  | .less | .greater | .atMost | .atLeast | .equal | .unequal => true
  | _ => false

end Operator

namespace Expr

def span : Expr → Span
  | .name simple => simple.span
  | .integer span _ | .text span _ | .boolean span _ | .null span
  | .callableRef span _ | .paren span _ | .ifThen span _ _
  | .ifElse span _ _ _ | .call span _ _ | .member span _ _
  | .binary span _ _ _ => span

end Expr

namespace Binding

def keyword : Binding → String
  | .val => "val"
  | .var => "var"

end Binding

namespace Package

def qualifiedName (package : Package) : String :=
  ".".intercalate (package.names.map SimpleName.text)

end Package

end Gloss.Tree
