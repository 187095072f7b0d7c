import Gloss.Grammar.Peg
import Gloss.Grammar.Rule
import Gloss.Grammar.Token

/-!
# The grammar of the fixture language

Blanks are taken between tokens only, so the span of every piece of a tree is
tight around its own text.  Binary operators associate to the left, and of the
comparisons only one may stand in an expression.
-/

namespace Gloss.Grammar

/-- Parsing expressions over the tokens and the rules of the language. -/
abbrev Phrase : Type → Type 1 := Peg Token Rule

def symbol (text : String) : Phrase (List Char) := .token (.symbol text)

def blank : Phrase Unit := .rule .blank

def word (keyword : Keyword) : Phrase Unit := .map (fun _ => ()) (.token (.keyword keyword))

/-- Characters with blanks on both sides, between the items of a list. -/
def separator (text : String) : Phrase Unit := blank *> symbol text *> blank

def bracketed {α : Type} (opening closing : String) (inner : Phrase α) : Phrase α :=
  symbol opening *> blank *> inner <* blank <* symbol closing

def name : Phrase (Span × String) :=
  .map (fun found => (found.1, String.ofList found.2)) (.spanned (.token .name))

def operator (operator : Tree.Operator) : Phrase Tree.OperatorRef :=
  .map (fun found => ⟨found.1, operator⟩) (.spanned (symbol operator.symbol))

def number (digits : List Char) : Nat :=
  digits.foldl (fun value digit => 10 * value + (digit.toNat - '0'.toNat)) 0

def unescaped (letter : Char) : Char :=
  if letter = 'n' then '\n'
  else if letter = 't' then '\t'
  else if letter = 'r' then '\r'
  else letter

/-- The text that the inside of a quoted text stands for. -/
def unescape : List Char → List Char
  | '\\' :: letter :: rest => unescaped letter :: unescape rest
  | character :: rest => character :: unescape rest
  | [] => []

def inside (quoted : List Char) : List Char := quoted.tail.dropLast

def binary (left : Tree.Expr) (right : Tree.OperatorRef × Tree.Expr) : Tree.Expr :=
  .binary ⟨left.span.start, right.2.span.stop⟩ left right.1 right.2

def withSuffix (expression : Tree.Expr) : Suffix → Tree.Expr
  | .call arguments stop => .call ⟨expression.span.start, stop⟩ expression arguments
  | .member selector =>
      .member ⟨expression.span.start, selector.span.stop⟩ expression selector

def operation (operator : Rule Tree.OperatorRef) (operand : Rule Tree.Expr) :
    Phrase (Tree.OperatorRef × Tree.Expr) :=
  .both (blank *> .rule operator) (blank *> .rule operand)

def phrase : {α : Type} → Rule α → Phrase α
  | _, .file =>
      .map (fun (span, package, declarations) => Tree.File.mk span package declarations)
        (.spanned
          (blank *> .both (.optional (.rule .packagePart)) (.many (.rule .topLevel))))
  | _, .packagePart => .rule .packageHeader <* blank
  | _, .topLevel =>
      .rule .declaration <* .optional (blank *> symbol ";") <* blank
  | _, .packageHeader =>
      .map
        (fun (span, names) =>
          let stop := (names.getLast?.map fun last => last.span.stop).getD span.stop
          Tree.Package.mk ⟨span.start, stop⟩ names)
        (.spanned
          (.rule .packageKeyword *> blank *>
            .rule .qualifiedName <*
            .optional (blank *> symbol ";")))
  | _, .qualifiedName =>
      .separated (separator ".") (.rule .nameReference)
  | _, .declaration =>
      .map Tree.TopLevel.class (.rule .classDeclaration) <|>
        .map (fun function => Tree.TopLevel.member (.function function))
          (.rule .functionDeclaration) <|>
        .map (fun property => Tree.TopLevel.member (.property property))
          (.rule .propertyDeclaration)
  | _, .member =>
      .map Tree.Member.function (.rule .functionDeclaration) <|>
        .map Tree.Member.property (.rule .propertyDeclaration)
  | _, .classDeclaration =>
      .map
        (fun (span, (nameSpan, name), typeParameters, parameters, members) =>
          Tree.Class.mk span name nameSpan typeParameters parameters members)
        (.spanned
          (.rule .classKeyword *> blank *>
            .both (.rule .declaredName)
              (.both (.orEmpty (blank *> .rule .typeParameters))
                (.both (.orEmpty (blank *> .rule .constructorParameters))
                  (.orEmpty (blank *> .rule .classBody))))))
  | _, .typeParameters =>
      bracketed "<" ">"
        (.separated (separator ",") (.rule .typeParameter))
  | _, .constructorParameters =>
      bracketed "(" ")"
        (.orEmpty (.rule .constructorParameterList))
  | _, .constructorParameterList =>
      .separated (separator ",")
        (.rule .constructorParameter)
  | _, .constructorParameter =>
      .map
        (fun (span, binding, (nameSpan, name), type) =>
          Tree.ConstructorParameter.mk span name nameSpan type binding)
        (.spanned
          (.both (.optional (.rule .bindingKeyword <* blank))
            (.both (.rule .declaredName <* separator ":")
              (.rule .type))))
  | _, .classBody =>
      symbol "\x7b" *> blank *>
        .many (.rule .member <* blank) <* symbol "\x7d"
  | _, .functionDeclaration =>
      .map
        (fun (span, typeParameters, (nameSpan, name), parameters, returnType, body) =>
          Tree.Function.mk span name nameSpan typeParameters parameters returnType body)
        (.spanned
          (.rule .functionKeyword *>
            .both (.orEmpty (blank *> .rule .typeParameters))
              (.both (blank *> .rule .declaredName)
                (.both
                  (blank *> bracketed "(" ")"
                    (.orEmpty (.rule .valueParameters)))
                  (.both (.optional (separator ":" *> .rule .type))
                    (blank *> .rule .functionBody))))))
  | _, .valueParameters =>
      .separated (separator ",") (.rule .valueParameter)
  | _, .valueParameter =>
      .map
        (fun (span, (nameSpan, name), type) => Tree.ValueParameter.mk span name nameSpan type)
        (.spanned
          (.both (.rule .declaredName <* separator ":")
            (.rule .type)))
  | _, .functionBody =>
      .map Tree.Body.expression (.rule .expressionBody) <|>
        .map Tree.Body.block (.rule .block)
  | _, .expressionBody => symbol "=" *> blank *> .rule .expression
  | _, .block =>
      .map (fun (span, statements) => Tree.Block.mk span statements)
        (.spanned
          (symbol "\x7b" *> blank *>
            .many (.rule .statement <* blank) <* symbol "\x7d"))
  | _, .statement =>
      .rule .statementBody <* .optional (blank *> symbol ";")
  | _, .statementBody =>
      .map Tree.Statement.variable (.rule .propertyDeclaration) <|>
        .map Tree.Statement.expression (.rule .expression)
  | _, .propertyDeclaration =>
      .map
        (fun (span, binding, (nameSpan, name), type, initializer) =>
          Tree.Property.mk span name nameSpan binding type initializer)
        (.spanned
          (.both (.rule .bindingKeyword)
            (.both (blank *> .rule .declaredName)
              (.both (.optional (separator ":" *> .rule .type))
                (.optional (separator "=" *> .rule .expression))))))
  | _, .type =>
      .map
        (fun (span, type, question) =>
          match (question : Option Unit) with
          | none => (type : Tree.TypeRef)
          | some _ => type.orNull span)
        (.spanned (.both (.rule .typeBody) (.optional (.rule .nullable))))
  | _, .typeBody =>
      .rule .functionType <|>
        .rule .namedType
  | _, .nullable => .map (fun _ => ()) (symbol "?")
  | _, .functionType =>
      .map (fun (span, parameters, result) => Tree.TypeRef.function span false parameters result)
        (.spanned
          (.both
            (bracketed "(" ")" (.orEmpty (.rule .typeList)))
            (separator "->" *> .rule .type)))
  | _, .typeList => .separated (separator ",") (.rule .type)
  | _, .namedType =>
      .map
        (fun (span, (nameSpan, name), arguments) =>
          Tree.TypeRef.named span false name nameSpan arguments)
        (.spanned (.both (.rule .typeName) (.orEmpty (.rule .typeArguments))))
  | _, .typeArguments => bracketed "<" ">" (.rule .typeList)
  | _, .expression =>
      .map
        (fun (left, right) =>
          match (right : Option (Tree.OperatorRef × Tree.Expr)) with
          | none => left
          | some right => binary left right)
        (.both (.rule .additive)
          (.optional (operation .comparisonOperator .additive)))
  | _, .comparisonOperator =>
      operator .equal <|> operator .unequal <|> operator .atMost <|> operator .atLeast <|>
        operator .less <|> operator .greater
  | _, .additive =>
      .map (fun (first, rest) => rest.foldl binary first)
        (.both (.rule .multiplicative)
          (.many (operation .additiveOperator .multiplicative)))
  | _, .additiveOperator => operator .plus <|> operator .minus
  | _, .multiplicative =>
      .map (fun (first, rest) => rest.foldl binary first)
        (.both (.rule .suffixed) (.many (operation .multiplicativeOperator .suffixed)))
  | _, .multiplicativeOperator => operator .times <|> operator .divide <|> operator .remainder
  | _, .suffixed =>
      .map (fun (expression, suffixes) => suffixes.foldl withSuffix expression)
        (.both (.rule .primary) (.many (.rule .suffix)))
  | _, .suffix =>
      .rule .callSuffix <|> .rule .memberSuffix
  | _, .callSuffix =>
      .map (fun (span, arguments) => Suffix.call arguments span.stop)
        (.spanned
          (bracketed "(" ")" (.orEmpty (.rule .arguments))))
  | _, .memberSuffix => .map Suffix.member (symbol "." *> .rule .nameReference)
  | _, .arguments => .separated (separator ",") (.rule .expression)
  | _, .primary =>
      .rule .conditional <|> .rule .literal <|>
        .rule .callableReference <|>
        .rule .parenthesized <|>
        .map Tree.Expr.name (.rule .nameReference)
  | _, .conditional =>
      .map
        (fun (span, condition, thenBranch, elseBranch) =>
          match (elseBranch : Option Tree.Expr) with
          | none => Tree.Expr.ifThen span condition thenBranch
          | some elseBranch => Tree.Expr.ifElse span condition thenBranch elseBranch)
        (.spanned
          (.rule .ifKeyword *> blank *>
            .both (bracketed "(" ")" (.rule .expression) <* blank)
              (.both (.rule .expression)
                (.optional
                  (blank *> .rule .elseKeyword *> blank *>
                    .rule .expression)))))
  | _, .parenthesized =>
      .map (fun (span, inner) => Tree.Expr.paren span inner)
        (.spanned (bracketed "(" ")" (.rule .expression)))
  | _, .callableReference =>
      .map (fun (span, target) => Tree.Expr.callableRef span target)
        (.spanned (symbol "::" *> .rule .nameReference))
  | _, .literal =>
      .rule .integerLiteral <|> .rule .textLiteral <|>
        .rule .truthLiteral <|> .rule .nullLiteral
  | _, .integerLiteral =>
      .map (fun (span, digits) => Tree.Expr.integer span (number digits))
        (.spanned (.token .digits))
  | _, .textLiteral =>
      .map
        (fun (span, quoted) =>
          Tree.Expr.text span (String.ofList (unescape (inside quoted))))
        (.spanned (.token .quoted))
  | _, .truthLiteral =>
      .map (fun (span, text) => Tree.Expr.boolean span (text = Keyword.true.text.toList))
        (.spanned (.token .truth))
  | _, .nullLiteral =>
      .map (fun (span, _) => Tree.Expr.null span) (.spanned (.token (.keyword .null)))
  | _, .declaredName => name
  | _, .typeParameter => .map (fun (span, text) => Tree.TypeParameter.mk span text) name
  | _, .typeName => name
  | _, .nameReference => .map (fun (span, text) => Tree.SimpleName.mk span text) name
  | _, .packageKeyword => word .package
  | _, .classKeyword => word .class
  | _, .functionKeyword => word .fun
  | _, .ifKeyword => word .if
  | _, .elseKeyword => word .else
  | _, .bindingKeyword =>
      .map
        (fun text => if text = Keyword.var.text.toList then Tree.Binding.var else .val)
        (.token .binding)
  | _, .blank => .map (fun _ => ()) (.token .blanks)

/-- How deeply rules can nest in a text of the given length: at each offset no
rule comes back before a character is taken. -/
def depth (length : Nat) : Nat := (length + 1) * Rule.all.length

def matchRule {α : Type} (rule : Rule α) (cursor : Cursor) : Outcome α :=
  Peg.runRule Token.scan phrase (depth cursor.rest.length) rule cursor

def matchEnd? {α : Type} (rule : Rule α) (text : List Char) (offset : Nat) : Option Nat :=
  (matchRule rule ((Cursor.ofText text).advance offset)).next?.map Cursor.offset

end Gloss.Grammar
