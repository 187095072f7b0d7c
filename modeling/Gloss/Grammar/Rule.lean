import Gloss.Tree

/-!
# The rules of the grammar

Each rule has a name and a type of value: the piece of a tree that the text of
the rule stands for.
-/

namespace Gloss

/-- What can follow an expression directly. -/
inductive Suffix where
  /-- Arguments in parentheses, up to the given offset. -/
  | call (arguments : List Tree.Expr) (stop : Nat)
  | member (selector : Tree.SimpleName)

/-- The rules, from the file down to single words, by the type of value. -/
inductive Rule : Type → Type where
  | file : Rule Tree.File
  | packagePart : Rule Tree.Package
  | topLevel : Rule Tree.TopLevel
  | packageHeader : Rule Tree.Package
  | qualifiedName : Rule (List Tree.SimpleName)
  | declaration : Rule Tree.TopLevel
  | member : Rule Tree.Member
  | classDeclaration : Rule Tree.Class
  | typeParameters : Rule (List Tree.TypeParameter)
  | constructorParameters : Rule (List Tree.ConstructorParameter)
  | constructorParameterList : Rule (List Tree.ConstructorParameter)
  | constructorParameter : Rule Tree.ConstructorParameter
  | classBody : Rule (List Tree.Member)
  | functionDeclaration : Rule Tree.Function
  | valueParameters : Rule (List Tree.ValueParameter)
  | valueParameter : Rule Tree.ValueParameter
  | functionBody : Rule Tree.Body
  | expressionBody : Rule Tree.Expr
  | block : Rule Tree.Block
  | statement : Rule Tree.Statement
  | statementBody : Rule Tree.Statement
  | propertyDeclaration : Rule Tree.Property
  | type : Rule Tree.TypeRef
  | typeBody : Rule Tree.TypeRef
  | nullable : Rule Unit
  | functionType : Rule Tree.TypeRef
  | typeList : Rule (List Tree.TypeRef)
  | namedType : Rule Tree.TypeRef
  | typeArguments : Rule (List Tree.TypeRef)
  | expression : Rule Tree.Expr
  | comparisonOperator : Rule Tree.OperatorRef
  | additive : Rule Tree.Expr
  | additiveOperator : Rule Tree.OperatorRef
  | multiplicative : Rule Tree.Expr
  | multiplicativeOperator : Rule Tree.OperatorRef
  | suffixed : Rule Tree.Expr
  | suffix : Rule Suffix
  | callSuffix : Rule Suffix
  | memberSuffix : Rule Suffix
  | arguments : Rule (List Tree.Expr)
  | primary : Rule Tree.Expr
  | conditional : Rule Tree.Expr
  | parenthesized : Rule Tree.Expr
  | callableReference : Rule Tree.Expr
  | literal : Rule Tree.Expr
  | integerLiteral : Rule Tree.Expr
  | textLiteral : Rule Tree.Expr
  | truthLiteral : Rule Tree.Expr
  | nullLiteral : Rule Tree.Expr
  | declaredName : Rule (Span × String)
  | typeParameter : Rule Tree.TypeParameter
  | typeName : Rule (Span × String)
  | nameReference : Rule Tree.SimpleName
  | packageKeyword : Rule Unit
  | classKeyword : Rule Unit
  | functionKeyword : Rule Unit
  | ifKeyword : Rule Unit
  | elseKeyword : Rule Unit
  | bindingKeyword : Rule Tree.Binding
  | blank : Rule Unit

/-- A rule together with its type of value. -/
structure AnyRule where
  value : Type
  rule : Rule value

namespace Rule

def label : {α : Type} → Rule α → String
  | _, .file => "file"
  | _, .packagePart => "package_part"
  | _, .topLevel => "top_level"
  | _, .packageHeader => "package_header"
  | _, .qualifiedName => "qualified_name"
  | _, .declaration => "declaration"
  | _, .member => "member"
  | _, .classDeclaration => "class_decl"
  | _, .typeParameters => "type_params"
  | _, .constructorParameters => "ctor_params"
  | _, .constructorParameterList => "ctor_param_list"
  | _, .constructorParameter => "ctor_param"
  | _, .classBody => "class_body"
  | _, .functionDeclaration => "fun_decl"
  | _, .valueParameters => "value_params"
  | _, .valueParameter => "value_param"
  | _, .functionBody => "fun_body"
  | _, .expressionBody => "expr_body"
  | _, .block => "block"
  | _, .statement => "statement"
  | _, .statementBody => "statement_body"
  | _, .propertyDeclaration => "property_decl"
  | _, .type => "type"
  | _, .typeBody => "type_body"
  | _, .nullable => "nullable"
  | _, .functionType => "function_type"
  | _, .typeList => "type_list"
  | _, .namedType => "named_type"
  | _, .typeArguments => "type_args"
  | _, .expression => "expr"
  | _, .comparisonOperator => "comp_op"
  | _, .additive => "additive"
  | _, .additiveOperator => "add_op"
  | _, .multiplicative => "multiplicative"
  | _, .multiplicativeOperator => "mul_op"
  | _, .suffixed => "postfix"
  | _, .suffix => "postfix_op"
  | _, .callSuffix => "call_suffix"
  | _, .memberSuffix => "member_suffix"
  | _, .arguments => "arguments"
  | _, .primary => "primary"
  | _, .conditional => "if_expr"
  | _, .parenthesized => "paren_expr"
  | _, .callableReference => "callable_ref"
  | _, .literal => "literal"
  | _, .integerLiteral => "int_lit"
  | _, .textLiteral => "string_lit"
  | _, .truthLiteral => "bool_lit"
  | _, .nullLiteral => "null_lit"
  | _, .declaredName => "decl_name"
  | _, .typeParameter => "type_param"
  | _, .typeName => "type_name"
  | _, .nameReference => "name_ref"
  | _, .packageKeyword => "kw_package"
  | _, .classKeyword => "kw_class"
  | _, .functionKeyword => "kw_fun"
  | _, .ifKeyword => "kw_if"
  | _, .elseKeyword => "kw_else"
  | _, .bindingKeyword => "binding_kw"
  | _, .blank => "_"

def any {α : Type} (rule : Rule α) : AnyRule := ⟨α, rule⟩

def all : List AnyRule :=
  [file.any, packagePart.any, topLevel.any, packageHeader.any, qualifiedName.any,
    declaration.any, member.any, classDeclaration.any, typeParameters.any,
    constructorParameters.any, constructorParameterList.any, constructorParameter.any,
    classBody.any, functionDeclaration.any, valueParameters.any, valueParameter.any,
    functionBody.any, expressionBody.any, block.any, statement.any, statementBody.any,
    propertyDeclaration.any, type.any, typeBody.any, nullable.any, functionType.any,
    typeList.any, namedType.any, typeArguments.any, expression.any,
    comparisonOperator.any, additive.any, additiveOperator.any, multiplicative.any,
    multiplicativeOperator.any, suffixed.any, suffix.any, callSuffix.any,
    memberSuffix.any, arguments.any, primary.any, conditional.any, parenthesized.any,
    callableReference.any, literal.any, integerLiteral.any, textLiteral.any,
    truthLiteral.any, nullLiteral.any, declaredName.any, typeParameter.any,
    typeName.any, nameReference.any, packageKeyword.any, classKeyword.any,
    functionKeyword.any, ifKeyword.any, elseKeyword.any, bindingKeyword.any, blank.any]

def ofLabel? (label : String) : Option AnyRule :=
  all.find? fun entry => entry.rule.label = label

end Rule

end Gloss
