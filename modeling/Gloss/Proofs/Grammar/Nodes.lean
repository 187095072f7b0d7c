import Gloss.Grammar.Reading
import Gloss.Proofs.Grammar.Placement
import Gloss.Proofs.Tree.Subtree

/-!
# What holds of every node that is read

The nodes of a tree come from the readings of the rules.  A property that holds
of the nodes that a rule makes, and of all nodes that the rules inside of it
have read, holds of all nodes that the rule has read.  Most rules make no more
than one node; those for operators and suffixes make one at every step, and are
left to whoever knows what the steps are.
-/

namespace Gloss

namespace Node

/-- Whether a node is made at a step of a chain of operators or suffixes. -/
def isStep : Node → Bool
  | .expression (.binary ..) | .expression (.call ..) | .expression (.member ..) => true
  | _ => false

variable {holds : Node → Prop} {node : Node} {nodes others : List Node}

/-- The property holds of the node and of every node below it. -/
def Everywhere (holds : Node → Prop) (node : Node) : Prop := ∀ inner ∈ node.subtree, holds inner

theorem everywhere_iff :
    node.Everywhere holds ↔ holds node ∧ ∀ child ∈ node.children, child.Everywhere holds := by
  constructor
  · intro everywhere
    exact ⟨everywhere node (mem_subtree_self node), fun child isChild inner isBelow =>
      everywhere inner (mem_subtree_of_child isChild isBelow)⟩
  · rintro ⟨here, below⟩ inner isInside
    rcases mem_subtree_iff.mp isInside with rfl | ⟨child, isChild, isBelow⟩
    · exact here
    · exact below child isChild inner isBelow

/-- The property holds of some nodes and of every node below them. -/
def Throughout (holds : Node → Prop) (nodes : List Node) : Prop :=
  ∀ node ∈ nodes, node.Everywhere holds

theorem Everywhere.of_children (here : holds node) (below : Throughout holds node.children) :
    node.Everywhere holds :=
  everywhere_iff.mpr ⟨here, below⟩

theorem Everywhere.here (everywhere : node.Everywhere holds) : holds node :=
  (everywhere_iff.mp everywhere).1

theorem Everywhere.below (everywhere : node.Everywhere holds) :
    Throughout holds node.children :=
  (everywhere_iff.mp everywhere).2

theorem throughout_nil : Throughout holds [] := nofun

theorem throughout_singleton : Throughout holds [node] ↔ node.Everywhere holds :=
  List.forall_mem_singleton

theorem throughout_append :
    Throughout holds (nodes ++ others) ↔ Throughout holds nodes ∧ Throughout holds others :=
  List.forall_mem_append

theorem throughout_map {α : Type} {toNode : α → Node} {values : List α} :
    Throughout holds (values.map toNode) ↔ ∀ value ∈ values, (toNode value).Everywhere holds :=
  List.forall_mem_map

end Node

/-- The nodes that a suffix adds to an expression. -/
def Suffix.roots : Suffix → List Node
  | .call arguments _ => arguments.map Tree.Expr.node
  | .member selector => [selector.node]

namespace Peg

variable {α β : Type} {item : Nat → α → Nat → Prop} {start stop : Nat} {values : List α}

theorem Repeats.exists_of_mem (repeats : Repeats item start values stop) {value : α}
    (member : value ∈ values) : ∃ start stop, item start value stop := by
  induction repeats with
  | nil => cases member
  | cons read moves rest ih =>
      rcases List.mem_cons.mp member with rfl | inRest
      · exact ⟨_, _, read⟩
      · exact ih inRest

/-- What each repetition keeps is kept by all of them. -/
theorem Repeats.foldl {motive : β → Nat → Prop} {step : β → α → β}
    (repeats : Repeats item start values stop)
    (kept : ∀ {sofar value start stop}, motive sofar start → item start value stop →
      motive (step sofar value) stop)
    {first : β} (begins : motive first start) : motive (values.foldl step first) stop := by
  induction repeats generalizing first with
  | nil => exact begins
  | cons read moves rest ih => exact ih (kept begins read)

end Peg

namespace Grammar

open Node (Everywhere Throughout throughout_nil throughout_singleton throughout_append
  throughout_map)

variable {holds : Node → Prop} {text : List Char} {rule : Peg.RuleReading Rule} {α β : Type}
  {start stop : Nat}

/-- The nodes at the top of what a rule has read. -/
def roots : {α : Type} → Rule α → α → List Node
  | _, .file, file => [.file file]
  | _, .packagePart, package | _, .packageHeader, package => [.package package]
  | _, .topLevel, declaration | _, .declaration, declaration => [declaration.node]
  | _, .qualifiedName, names => names.map Tree.SimpleName.node
  | _, .member, member => [member.node]
  | _, .classDeclaration, declaration => [.class declaration]
  | _, .typeParameters, parameters => parameters.map .typeParameter
  | _, .constructorParameters, parameters
  | _, .constructorParameterList, parameters => parameters.map .constructorParameter
  | _, .constructorParameter, parameter => [.constructorParameter parameter]
  | _, .classBody, members => members.map Tree.Member.node
  | _, .functionDeclaration, function => [.function function]
  | _, .valueParameters, parameters => parameters.map .valueParameter
  | _, .valueParameter, parameter => [.valueParameter parameter]
  | _, .functionBody, body => [body.node]
  | _, .block, block => [.block block]
  | _, .statement, statement | _, .statementBody, statement => [statement.node]
  | _, .propertyDeclaration, property => [.property property]
  | _, .type, type | _, .typeBody, type | _, .functionType, type
  | _, .namedType, type => [.type type]
  | _, .typeList, types | _, .typeArguments, types => types.map .type
  | _, .expressionBody, value | _, .expression, value | _, .additive, value
  | _, .multiplicative, value | _, .suffixed, value | _, .primary, value
  | _, .conditional, value | _, .parenthesized, value | _, .callableReference, value
  | _, .literal, value | _, .integerLiteral, value | _, .textLiteral, value
  | _, .truthLiteral, value | _, .nullLiteral, value => [value.node]
  | _, .comparisonOperator, use | _, .additiveOperator, use
  | _, .multiplicativeOperator, use => [.operator use]
  | _, .suffix, suffix | _, .callSuffix, suffix | _, .memberSuffix, suffix => suffix.roots
  | _, .arguments, values => values.map Tree.Expr.node
  | _, .typeParameter, parameter => [.typeParameter parameter]
  | _, .nameReference, name => [name.node]
  | _, _, _ => []

/-- Whether a rule makes a node at every step: with operators, or with
suffixes. -/
def isChain : {α : Type} → Rule α → Bool
  | _, .expression | _, .additive | _, .multiplicative | _, .suffixed => true
  | _, _ => false

section Phrases

theorem exists_reads_before {first : Phrase α} {second : Phrase β} {value : β}
    (reads : Reads text rule (first *> second) start value stop) :
    ∃ start, Reads text rule second start value stop := by
  obtain ⟨middle, -, secondReads⟩ := reads_before.mp reads
  exact ⟨middle, secondReads⟩

theorem exists_reads_followedBy {first : Phrase α} {second : Phrase β} {value : α}
    (reads : Reads text rule (first <* second) start value stop) :
    ∃ stop, Reads text rule first start value stop := by
  obtain ⟨middle, firstReads, -⟩ := reads_followedBy.mp reads
  exact ⟨middle, firstReads⟩

theorem exists_reads_bracketed {opening closing : String} {inner : Phrase α} {value : α}
    (reads : Reads text rule (bracketed opening closing inner) start value stop) :
    ∃ start stop, Reads text rule inner start value stop := by
  obtain ⟨_, reads⟩ := exists_reads_followedBy reads
  obtain ⟨innerStop, reads⟩ := exists_reads_followedBy reads
  obtain ⟨innerStart, reads⟩ := exists_reads_before reads
  exact ⟨innerStart, innerStop, reads⟩

theorem exists_reads_of_mem_separated {separating : Phrase β} {item : Rule α} {values : List α}
    (reads : Reads text rule (.separated separating (.rule item)) start values stop) {value : α}
    (member : value ∈ values) : ∃ start stop, rule item start value stop := by
  obtain ⟨⟨first, rest⟩, ⟨middle, firstReads, restReads⟩, rfl⟩ := reads
  rcases List.mem_cons.mp member with rfl | inRest
  · exact ⟨_, _, firstReads⟩
  · obtain ⟨itemStart, itemStop, itemReads⟩ := restReads.exists_of_mem inRest
    obtain ⟨_, itemReads⟩ := exists_reads_before itemReads
    exact ⟨_, itemStop, itemReads⟩

theorem throughout_of_orEmpty {inner : Phrase (List α)} {toNode : α → Node} {values : List α}
    (reads : Reads text rule (.orEmpty inner) start values stop)
    (nodes : ∀ values, Reads text rule inner start values stop →
      Throughout holds (values.map toNode)) :
    Throughout holds (values.map toNode) := by
  obtain ⟨found, ⟨rfl, rfl⟩ | ⟨inside, rfl, innerReads⟩, rfl⟩ := reads
  · exact throughout_nil
  · exact nodes _ innerReads

theorem throughout_of_optional {inner : Phrase α} {toNode : α → Node} {value : Option α}
    (reads : Reads text rule (.optional inner) start value stop)
    (nodes : ∀ value, Reads text rule inner start value stop →
      (toNode value).Everywhere holds) :
    Throughout holds (value.map toNode).toList := by
  obtain ⟨rfl, rfl⟩ | ⟨found, rfl, innerReads⟩ := reads
  · exact throughout_nil
  · exact throughout_singleton.mpr (nodes _ innerReads)

end Phrases

/-- Whether a rule makes a node with a name. -/
def makesName : {α : Type} → Rule α → Bool
  | _, .classDeclaration | _, .constructorParameter | _, .functionDeclaration
  | _, .valueParameter | _, .propertyDeclaration | _, .type | _, .namedType
  | _, .comparisonOperator | _, .additiveOperator | _, .multiplicativeOperator
  | _, .typeParameter | _, .nameReference => true
  | _, _ => false

section Steps

theorem everywhere_binary {left right : Tree.Expr} {use : Tree.OperatorRef}
    (here : holds (binary left (use, right)).node) (inLeft : left.node.Everywhere holds)
    (inUse : (Node.operator use).Everywhere holds) (inRight : right.node.Everywhere holds) :
    (binary left (use, right)).node.Everywhere holds := by
  have below : Throughout holds [left.node, .operator use, right.node] :=
    List.forall_mem_cons.mpr ⟨inLeft, List.forall_mem_cons.mpr
      ⟨inUse, throughout_singleton.mpr inRight⟩⟩
  exact .of_children here below

theorem everywhere_withSuffix {value : Tree.Expr} {suffix : Suffix}
    (here : holds (withSuffix value suffix).node) (inValue : value.node.Everywhere holds)
    (inSuffix : Throughout holds suffix.roots) :
    (withSuffix value suffix).node.Everywhere holds := by
  refine .of_children here ?_
  have below := throughout_append.mpr ⟨throughout_singleton.mpr inValue, inSuffix⟩
  cases suffix with
  | call arguments last =>
      have children : (withSuffix value (.call arguments last)).node.children =
          [value.node] ++ arguments.map Tree.Expr.node := by
        simp [withSuffix, Tree.Expr.node, Node.children, Node.parts, Node.expressionParts,
          Part.children]
      rw [children]
      exact below
  | member selector => exact below

end Steps

section Rules

variable
  (inside : ∀ {β : Type} {name : Rule β} {start stop : Nat} {value : β},
    rule name start value stop → Throughout holds (roots name value))

include inside

theorem throughout_of_separated {separating : Phrase β} {item : Rule α} {toNode : α → Node}
    {values : List α}
    (reads : Reads text rule (.separated separating (.rule item)) start values stop)
    (isRoot : ∀ value, roots item value = [toNode value]) :
    Throughout holds (values.map toNode) := by
  rw [throughout_map]
  intro value member
  obtain ⟨_, _, itemReads⟩ := exists_reads_of_mem_separated reads member
  have nodes := inside itemReads
  rw [isRoot] at nodes
  exact throughout_singleton.mp nodes

/-- The items between braces. -/
theorem throughout_of_braces {item : Rule α} {toNode : α → Node} {values : List α}
    (reads : Reads text rule
      (symbol "\x7b" *> blank *> .many (.rule item <* blank) <* symbol "\x7d") start values stop)
    (isRoot : ∀ value, roots item value = [toNode value]) :
    Throughout holds (values.map toNode) := by
  obtain ⟨_, reads⟩ := exists_reads_followedBy reads
  obtain ⟨_, reads⟩ := exists_reads_before reads
  rw [throughout_map]
  intro value member
  obtain ⟨_, _, itemReads⟩ := reads.exists_of_mem member
  obtain ⟨_, itemReads⟩ := exists_reads_followedBy itemReads
  have nodes := inside itemReads
  rw [isRoot] at nodes
  exact throughout_singleton.mp nodes

/-- What may be left out, behind blanks. -/
theorem throughout_of_orEmpty_before {skip : Phrase β} {list : Rule (List α)} {toNode : α → Node}
    {values : List α}
    (reads : Reads text rule (.orEmpty (skip *> .rule list)) start values stop)
    (areRoots : ∀ values, roots list values = values.map toNode) :
    Throughout holds (values.map toNode) := by
  refine throughout_of_orEmpty reads fun values reads => ?_
  obtain ⟨_, reads⟩ := exists_reads_before reads
  exact areRoots values ▸ inside reads

theorem throughout_of_optional_before {skip : Phrase β} {item : Rule α} {toNode : α → Node}
    {value : Option α}
    (reads : Reads text rule (.optional (skip *> .rule item)) start value stop)
    (isRoot : ∀ value, roots item value = [toNode value]) :
    Throughout holds (value.map toNode).toList := by
  refine throughout_of_optional reads fun value reads => ?_
  obtain ⟨_, reads⟩ := exists_reads_before reads
  exact throughout_singleton.mp (isRoot value ▸ inside reads)

theorem throughout_classDeclaration {value : Tree.Class}
    (reads : Reads text rule (phrase .classDeclaration) start value stop) :
    Throughout holds (Node.class value).children := by
  obtain ⟨⟨span, ⟨nameSpan, name⟩, typeParameters, parameters, members⟩, ⟨-, reads⟩, rfl⟩ := reads
  obtain ⟨_, _, nameReads, _, typeParameterReads, _, parameterReads, memberReads⟩ :=
    exists_reads_before reads
  have children : (Node.class ⟨span, name, nameSpan, typeParameters, parameters,
      members⟩).children = typeParameters.map .typeParameter ++
        parameters.map .constructorParameter ++ members.map Tree.Member.node := by
    simp [Node.children, Node.parts, Part.children]
  rw [children, throughout_append, throughout_append]
  exact ⟨⟨throughout_of_orEmpty_before inside typeParameterReads fun _ => rfl,
    throughout_of_orEmpty_before inside parameterReads fun _ => rfl⟩,
    throughout_of_orEmpty_before inside memberReads fun _ => rfl⟩

theorem throughout_constructorParameter {value : Tree.ConstructorParameter}
    (reads : Reads text rule (phrase .constructorParameter) start value stop) :
    Throughout holds (Node.constructorParameter value).children := by
  obtain ⟨⟨span, binding, ⟨nameSpan, name⟩, type⟩, ⟨-, _, -, _, -, typeReads⟩, rfl⟩ := reads
  have children : (Node.constructorParameter ⟨span, name, nameSpan, type, binding⟩).children =
      [.type type] := by
    cases binding <;> rfl
  rw [children]
  exact inside typeReads

theorem throughout_valueParameter {value : Tree.ValueParameter}
    (reads : Reads text rule (phrase .valueParameter) start value stop) :
    Throughout holds (Node.valueParameter value).children := by
  obtain ⟨⟨span, ⟨nameSpan, name⟩, type⟩, ⟨-, _, -, typeReads⟩, rfl⟩ := reads
  have nodes : Throughout holds [.type type] := inside typeReads
  exact nodes

theorem throughout_functionDeclaration {value : Tree.Function}
    (reads : Reads text rule (phrase .functionDeclaration) start value stop) :
    Throughout holds (Node.function value).children := by
  obtain ⟨⟨span, typeParameters, ⟨nameSpan, name⟩, parameters, returnType, body⟩, ⟨-, reads⟩,
    rfl⟩ := reads
  obtain ⟨_, _, typeParameterReads, _, -, _, parameterReads, _, typeReads, bodyReads⟩ :=
    exists_reads_before reads
  obtain ⟨_, parameterReads⟩ := exists_reads_before parameterReads
  obtain ⟨_, _, parameterReads⟩ := exists_reads_bracketed parameterReads
  obtain ⟨_, bodyReads⟩ := exists_reads_before bodyReads
  have children : (Node.function ⟨span, name, nameSpan, typeParameters, parameters, returnType,
      body⟩).children = typeParameters.map .typeParameter ++ parameters.map .valueParameter ++
        (returnType.map Node.type).toList ++ [body.node] := by
    cases returnType <;> simp [Node.children, Node.parts, Part.children, Part.optional]
  rw [children, throughout_append, throughout_append, throughout_append]
  exact ⟨⟨⟨throughout_of_orEmpty_before inside typeParameterReads fun _ => rfl,
    throughout_of_orEmpty parameterReads fun _ list => inside list⟩,
    throughout_of_optional_before inside typeReads fun _ => rfl⟩, inside bodyReads⟩

theorem throughout_propertyDeclaration {value : Tree.Property}
    (reads : Reads text rule (phrase .propertyDeclaration) start value stop) :
    Throughout holds (Node.property value).children := by
  obtain ⟨⟨span, binding, ⟨nameSpan, name⟩, type, initializer⟩,
    ⟨-, _, -, _, -, _, typeReads, initializerReads⟩, rfl⟩ := reads
  have children : (Node.property ⟨span, name, nameSpan, binding, type,
      initializer⟩).children =
        (type.map Node.type).toList ++ (initializer.map Tree.Expr.node).toList := by
    cases type <;> cases initializer <;>
      simp [Node.children, Node.parts, Part.children, Part.optional, Tree.Expr.node]
  rw [children, throughout_append]
  exact ⟨throughout_of_optional_before inside typeReads fun _ => rfl,
    throughout_of_optional_before inside initializerReads fun _ => rfl⟩

theorem throughout_namedType {value : Tree.TypeRef}
    (reads : Reads text rule (phrase .namedType) start value stop) :
    Throughout holds (Node.type value).children := by
  obtain ⟨⟨span, ⟨nameSpan, name⟩, arguments⟩, ⟨-, _, -, reads⟩, rfl⟩ := reads
  rw [children_named]
  exact throughout_of_orEmpty reads fun _ list => inside list

theorem throughout_functionType {value : Tree.TypeRef}
    (reads : Reads text rule (phrase .functionType) start value stop) :
    Throughout holds (Node.type value).children := by
  obtain ⟨⟨span, parameters, result⟩, ⟨-, _, parameterReads, reads⟩, rfl⟩ := reads
  obtain ⟨_, _, parameterReads⟩ := exists_reads_bracketed parameterReads
  obtain ⟨_, reads⟩ := exists_reads_before reads
  rw [children_functionType, throughout_append]
  exact ⟨throughout_of_orEmpty parameterReads fun _ list => inside list, inside reads⟩

/-- A question mark changes the type and nothing below. -/
theorem throughout_type {value : Tree.TypeRef}
    (reads : Reads text rule (phrase .type) start value stop) :
    Throughout holds (Node.type value).children := by
  obtain ⟨⟨span, type, question⟩, ⟨-, _, typeReads, -⟩, rfl⟩ := reads
  have nodes : Throughout holds [.type type] := inside typeReads
  have below := (throughout_singleton.mp nodes).below
  cases question with
  | none => exact below
  | some =>
      cases type with
      | named => simpa only [Tree.TypeRef.orNull, children_named] using below
      | function => simpa only [Tree.TypeRef.orNull, children_functionType] using below

theorem throughout_conditional {value : Tree.Expr}
    (reads : Reads text rule (phrase .conditional) start value stop) :
    Throughout holds value.node.children := by
  obtain ⟨⟨span, condition, thenBranch, elseBranch⟩, ⟨-, reads⟩, rfl⟩ := reads
  obtain ⟨_, _, conditionReads, _, thenReads, elseReads⟩ := exists_reads_before reads
  obtain ⟨_, conditionReads⟩ := exists_reads_followedBy conditionReads
  obtain ⟨_, _, conditionReads⟩ := exists_reads_bracketed conditionReads
  have inCondition : Throughout holds [condition.node] := inside conditionReads
  have inThen : Throughout holds [thenBranch.node] := inside thenReads
  have branches : Throughout holds [condition.node, thenBranch.node] :=
    throughout_append.mpr ⟨inCondition, inThen⟩
  rcases elseReads with ⟨missing, -⟩ | ⟨found, present, elseReads⟩
  · cases missing
    exact branches
  · cases present
    obtain ⟨_, elseReads⟩ := exists_reads_before elseReads
    have inElse : Throughout holds [found.node] := inside elseReads
    have all : Throughout holds ([condition.node, thenBranch.node] ++ [found.node]) :=
      throughout_append.mpr ⟨branches, inElse⟩
    exact all

theorem throughout_file {value : Tree.File}
    (reads : Reads text rule (phrase .file) start value stop) :
    Throughout holds (Node.file value).children := by
  obtain ⟨⟨span, package, declarations⟩, ⟨-, reads⟩, rfl⟩ := reads
  obtain ⟨_, _, packageReads, declarationReads⟩ := exists_reads_before reads
  have children : (Node.file ⟨span, package, declarations⟩).children =
      (package.map Node.package).toList ++ declarations.map Tree.TopLevel.node := by
    cases package <;> simp [Node.children, Node.parts, Part.children, Part.optional]
  rw [children, throughout_append]
  constructor
  · refine throughout_of_optional packageReads fun package reads => ?_
    have nodes : Throughout holds [.package package] := inside reads
    exact throughout_singleton.mp nodes
  · rw [throughout_map]
    intro declaration member
    obtain ⟨_, _, itemReads⟩ := declarationReads.exists_of_mem member
    have nodes : Throughout holds [declaration.node] := inside itemReads
    exact throughout_singleton.mp nodes

theorem throughout_packageHeader {value : Tree.Package}
    (reads : Reads text rule (phrase .packageHeader) start value stop) :
    Throughout holds (Node.package value).children := by
  obtain ⟨⟨span, names⟩, ⟨-, reads⟩, rfl⟩ := reads
  obtain ⟨_, reads⟩ := exists_reads_followedBy reads
  obtain ⟨_, reads⟩ := exists_reads_before reads
  have nodes : Throughout holds (names.map Tree.SimpleName.node) := inside reads
  simpa [Node.children, Node.parts, Part.children] using nodes

theorem throughout_block {value : Tree.Block}
    (reads : Reads text rule (phrase .block) start value stop) :
    Throughout holds (Node.block value).children := by
  obtain ⟨⟨span, statements⟩, ⟨-, reads⟩, rfl⟩ := reads
  have nodes : Throughout holds (statements.map Tree.Statement.node) :=
    throughout_of_braces inside reads fun _ => rfl
  simpa [Node.children, Node.parts, Part.children] using nodes

theorem throughout_parenthesized {value : Tree.Expr}
    (reads : Reads text rule (phrase .parenthesized) start value stop) :
    Throughout holds value.node.children := by
  obtain ⟨⟨span, inner⟩, ⟨-, reads⟩, rfl⟩ := reads
  obtain ⟨_, _, reads⟩ := exists_reads_bracketed reads
  have nodes : Throughout holds [inner.node] := inside reads
  exact nodes

theorem throughout_callableReference {value : Tree.Expr}
    (reads : Reads text rule (phrase .callableReference) start value stop) :
    Throughout holds value.node.children := by
  obtain ⟨⟨span, target⟩, ⟨-, reads⟩, rfl⟩ := reads
  obtain ⟨_, reads⟩ := exists_reads_before reads
  have nodes : Throughout holds [target.node] := inside reads
  exact nodes

/-- A suffix makes no node of its own. -/
theorem throughout_suffix {value : Suffix}
    (reads : Reads text rule (phrase .suffix) start value stop) :
    Throughout holds value.roots :=
  reads.elim inside inside

theorem throughout_callSuffix {value : Suffix}
    (reads : Reads text rule (phrase .callSuffix) start value stop) :
    Throughout holds value.roots := by
  obtain ⟨⟨span, arguments⟩, ⟨-, reads⟩, rfl⟩ := reads
  obtain ⟨_, _, reads⟩ := exists_reads_bracketed reads
  exact throughout_of_orEmpty reads fun _ list => inside list

theorem throughout_memberSuffix {value : Suffix}
    (reads : Reads text rule (phrase .memberSuffix) start value stop) :
    Throughout holds value.roots := by
  obtain ⟨selector, reads, rfl⟩ := reads
  obtain ⟨_, reads⟩ := exists_reads_before reads
  exact inside reads

theorem throughout_primary {value : Tree.Expr}
    (reads : Reads text rule (phrase .primary) start value stop) :
    Throughout holds [value.node] := by
  rcases reads with inner | inner | inner | inner | ⟨name, inner, rfl⟩ <;> exact inside inner

theorem throughout_literal {value : Tree.Expr}
    (reads : Reads text rule (phrase .literal) start value stop) :
    Throughout holds [value.node] := by
  rcases reads with inner | inner | inner | inner <;> exact inside inner

theorem throughout_declaration {value : Tree.TopLevel}
    (reads : Reads text rule (phrase .declaration) start value stop) :
    Throughout holds [value.node] := by
  rcases reads with ⟨inner, reads, rfl⟩ | ⟨inner, reads, rfl⟩ | ⟨inner, reads, rfl⟩ <;>
    exact inside reads

theorem throughout_member {value : Tree.Member}
    (reads : Reads text rule (phrase .member) start value stop) :
    Throughout holds [value.node] := by
  rcases reads with ⟨inner, reads, rfl⟩ | ⟨inner, reads, rfl⟩ <;> exact inside reads

theorem throughout_functionBody {value : Tree.Body}
    (reads : Reads text rule (phrase .functionBody) start value stop) :
    Throughout holds [value.node] := by
  rcases reads with ⟨inner, reads, rfl⟩ | ⟨inner, reads, rfl⟩ <;> exact inside reads

theorem throughout_statementBody {value : Tree.Statement}
    (reads : Reads text rule (phrase .statementBody) start value stop) :
    Throughout holds [value.node] := by
  rcases reads with ⟨inner, reads, rfl⟩ | ⟨inner, reads, rfl⟩ <;> exact inside reads

/-- What a rule reads that makes at most one node of its own. -/
theorem throughout_roots {name : Rule α} {value : α} (once : isChain name = false)
    (plain : ∀ node ∈ roots name value, node.name? = none → node.isStep = false → holds node)
    (named : makesName name = true → ∀ node ∈ roots name value, holds node)
    (reads : Reads text rule (phrase name) start value stop) :
    Throughout holds (roots name value) := by
  have whole : ∀ {node : Node}, holds node → Throughout holds node.children →
      Throughout holds [node] := fun here below =>
    throughout_singleton.mpr (.of_children here below)
  cases name with
  | expression | additive | multiplicative | suffixed => cases once
  | file => exact whole (plain _ (.head _) rfl rfl) (throughout_file inside reads)
  | packagePart =>
      obtain ⟨_, reads⟩ := exists_reads_followedBy reads
      have nodes := inside reads
      exact nodes
  | topLevel =>
      obtain ⟨_, reads⟩ := exists_reads_followedBy reads
      obtain ⟨_, reads⟩ := exists_reads_followedBy reads
      have nodes := inside reads
      exact nodes
  | packageHeader => exact whole (plain _ (.head _) rfl rfl) (throughout_packageHeader inside reads)
  | qualifiedName => exact throughout_of_separated inside reads fun _ => rfl
  | declaration => exact throughout_declaration inside reads
  | member => exact throughout_member inside reads
  | classDeclaration =>
      exact whole (named rfl _ (.head _)) (throughout_classDeclaration inside reads)
  | typeParameters =>
      obtain ⟨_, _, reads⟩ := exists_reads_bracketed reads
      exact throughout_of_separated inside reads fun _ => rfl
  | constructorParameters =>
      obtain ⟨_, _, reads⟩ := exists_reads_bracketed reads
      exact throughout_of_orEmpty reads fun _ list => inside list
  | constructorParameterList => exact throughout_of_separated inside reads fun _ => rfl
  | constructorParameter =>
      exact whole (named rfl _ (.head _)) (throughout_constructorParameter inside reads)
  | classBody => exact throughout_of_braces inside reads fun _ => rfl
  | functionDeclaration =>
      exact whole (named rfl _ (.head _)) (throughout_functionDeclaration inside reads)
  | valueParameters => exact throughout_of_separated inside reads fun _ => rfl
  | valueParameter =>
      exact whole (named rfl _ (.head _)) (throughout_valueParameter inside reads)
  | functionBody => exact throughout_functionBody inside reads
  | expressionBody =>
      obtain ⟨_, reads⟩ := exists_reads_before reads
      have nodes := inside reads
      exact nodes
  | block => exact whole (plain _ (.head _) rfl rfl) (throughout_block inside reads)
  | statement =>
      obtain ⟨_, reads⟩ := exists_reads_followedBy reads
      have nodes := inside reads
      exact nodes
  | statementBody => exact throughout_statementBody inside reads
  | propertyDeclaration =>
      exact whole (named rfl _ (.head _)) (throughout_propertyDeclaration inside reads)
  | type => exact whole (named rfl _ (.head _)) (throughout_type inside reads)
  | typeBody => exact reads.elim inside inside
  | functionType =>
      have here : holds (.type value) := by
        obtain ⟨_, -, rfl⟩ := reads
        exact plain _ (.head _) rfl rfl
      exact whole here (throughout_functionType inside reads)
  | typeList => exact throughout_of_separated inside reads fun _ => rfl
  | namedType => exact whole (named rfl _ (.head _)) (throughout_namedType inside reads)
  | typeArguments =>
      obtain ⟨_, _, reads⟩ := exists_reads_bracketed reads
      have nodes := inside reads
      exact nodes
  | comparisonOperator | additiveOperator | multiplicativeOperator | typeParameter
  | nameReference => exact whole (named rfl _ (.head _)) throughout_nil
  | suffix => exact throughout_suffix inside reads
  | callSuffix => exact throughout_callSuffix inside reads
  | memberSuffix => exact throughout_memberSuffix inside reads
  | arguments => exact throughout_of_separated inside reads fun _ => rfl
  | primary => exact throughout_primary inside reads
  | conditional =>
      have here : holds value.node := by
        obtain ⟨⟨_, _, _, elseBranch⟩, -, rfl⟩ := reads
        cases elseBranch <;> exact plain _ (.head _) rfl rfl
      exact whole here (throughout_conditional inside reads)
  | parenthesized =>
      have here : holds value.node := by
        obtain ⟨_, -, rfl⟩ := reads
        exact plain _ (.head _) rfl rfl
      exact whole here (throughout_parenthesized inside reads)
  | callableReference =>
      have here : holds value.node := by
        obtain ⟨_, -, rfl⟩ := reads
        exact plain _ (.head _) rfl rfl
      exact whole here (throughout_callableReference inside reads)
  | literal => exact throughout_literal inside reads
  | integerLiteral | textLiteral | truthLiteral | nullLiteral =>
      obtain ⟨_, -, rfl⟩ := reads
      exact whole (plain _ (.head _) rfl rfl) throughout_nil
  | declaredName | typeName | nullable | packageKeyword | classKeyword | functionKeyword
  | ifKeyword | elseKeyword | bindingKeyword | blank => exact throughout_nil

/-- Operands and the operators between them. -/
theorem throughout_operation {operator : Rule Tree.OperatorRef} {operand : Rule Tree.Expr}
    {right : Tree.OperatorRef × Tree.Expr}
    (reads : Reads text rule (operation operator operand) start right stop) :
    Throughout holds (roots operator right.1) ∧ Throughout holds (roots operand right.2) := by
  obtain ⟨_, operatorReads, operandReads⟩ := reads
  obtain ⟨_, operatorReads⟩ := exists_reads_before operatorReads
  obtain ⟨_, operandReads⟩ := exists_reads_before operandReads
  exact ⟨inside operatorReads, inside operandReads⟩

/-- What a rule reads that makes a node at every step, where all such nodes
have the property. -/
theorem throughout_chain {name : Rule α} {value : α} (chain : isChain name = true)
    (steps : ∀ node : Node, node.isStep = true → holds node)
    (reads : Reads text rule (phrase name) start value stop) :
    Throughout holds (roots name value) := by
  have joined : ∀ {left : Tree.Expr} {right : Tree.OperatorRef × Tree.Expr},
      left.node.Everywhere holds → Throughout holds [.operator right.1] →
        Throughout holds [right.2.node] → (binary left right).node.Everywhere holds :=
    fun inLeft inUse inRight => everywhere_binary (steps _ rfl) inLeft
      (throughout_singleton.mp inUse) (throughout_singleton.mp inRight)
  cases name with
  | expression =>
      obtain ⟨⟨left, right⟩, ⟨_, leftReads, rightReads⟩, rfl⟩ := reads
      have inLeft : Throughout holds [left.node] := inside leftReads
      rcases rightReads with ⟨missing, -⟩ | ⟨found, present, rightReads⟩
      · cases missing
        exact inLeft
      · cases present
        obtain ⟨inUse, inRight⟩ := throughout_operation inside rightReads
        exact throughout_singleton.mpr (joined (throughout_singleton.mp inLeft) inUse inRight)
  | additive | multiplicative =>
      obtain ⟨⟨first, rest⟩, ⟨_, firstReads, restReads⟩, rfl⟩ := reads
      have inFirst : Throughout holds [first.node] := inside firstReads
      refine throughout_singleton.mpr (restReads.foldl
        (motive := fun (value : Tree.Expr) _ => value.node.Everywhere holds) ?_
        (throughout_singleton.mp inFirst))
      intro left right start stop inLeft reads
      obtain ⟨inUse, inRight⟩ := throughout_operation inside reads
      exact joined inLeft inUse inRight
  | suffixed =>
      obtain ⟨⟨first, rest⟩, ⟨_, firstReads, restReads⟩, rfl⟩ := reads
      have inFirst : Throughout holds [first.node] := inside firstReads
      refine throughout_singleton.mpr (restReads.foldl
        (motive := fun (value : Tree.Expr) _ => value.node.Everywhere holds) ?_
        (throughout_singleton.mp inFirst))
      intro value suffix start stop inValue reads
      have isStep : (withSuffix value suffix).node.isStep = true := by cases suffix <;> rfl
      exact everywhere_withSuffix (steps _ isStep) inValue (inside reads)
  | _ => cases chain

end Rules

/-- A text that can be read is matched by the rule for files, from its start to
its end. -/
theorem exists_match_of_read {file : String} {tree : Tree.File} (read : read file text = .ok tree) :
    ∃ next, matchRule .file (Cursor.ofText text) = .matched tree next ∧ next.rest = [] := by
  unfold Grammar.read at read
  cases run : matchRule .file (Cursor.ofText text) with
  | exhausted | mismatch => simp [run] at read
  | matched found next =>
      simp only [run] at read
      split at read
      · next atEnd =>
          split at read
          · cases read
            exact ⟨next, rfl, List.isEmpty_iff.mp atEnd⟩
          · cases read
      · cases read

end Grammar

end Gloss
