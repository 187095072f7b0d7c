import Gloss.Tree.Outline
import Gloss.Proofs.Tree.Spans

/-!
# Reading outlines back

An outline names every part of a node but its spans of names, and the label of
its kind says which parts to look for.  So a tree is read back from its outline,
from the leaves up, with nothing lost but those spans.
-/

namespace Gloss

namespace NodeKind

def all : List NodeKind :=
  [.file, .package, .name, .namedType, .functionType, .typeParameter, .constructorParameter,
    .valueParameter, .property, .function, .class, .block, .integer, .text, .boolean, .null,
    .callableRef, .paren, .conditional, .call, .member, .operator, .binary]

def ofLabel? (label : String) : Option NodeKind := all.find? fun kind => kind.label == label

/-- No two kinds share a label. -/
@[simp] theorem ofLabel?_label (kind : NodeKind) : ofLabel? kind.label = some kind := by
  have ofAll : ∀ kind ∈ all, ofLabel? kind.label = some kind := by decide +kernel
  exact ofAll kind (by cases kind <;> decide)

end NodeKind

namespace Tree

def Operator.ofSymbol? (symbol : String) : Option Operator :=
  Operator.all.find? fun operator => operator.symbol == symbol

@[simp] theorem Operator.ofSymbol?_symbol (operator : Operator) :
    ofSymbol? operator.symbol = some operator := by
  cases operator <;> decide +kernel

def Binding.ofKeyword? (keyword : String) : Option Binding :=
  [Binding.val, Binding.var].find? fun binding => binding.keyword == keyword

@[simp] theorem Binding.ofKeyword?_keyword (binding : Binding) :
    ofKeyword? binding.keyword = some binding := by
  cases binding <;> decide +kernel

end Tree

namespace Part

variable {ν α : Type}

def flag? : Part ν → Option Bool
  | .flag value => some value
  | _ => none

def number? : Part ν → Option Nat
  | .number value => some value
  | _ => none

def text? : Part ν → Option String
  | .text value => some value
  | _ => none

def span? : Part ν → Option Span
  | .span value => some value
  | _ => none

def node? (view : ν → Option α) : Part ν → Option α
  | .node value => view value
  | _ => none

def nodes? (view : ν → Option α) : Part ν → Option (List α)
  | .nodes values => values.mapM view
  | _ => none

/-- A part that may be absent. -/
def absentOr? (view : Part ν → Option α) : Part ν → Option (Option α)
  | .absent => some none
  | part => (view part).map some

/-- The part under a name, if it reads as what is asked for. -/
def named? (parts : List (String × Part ν)) (name : String) (view : Part ν → Option α) :
    Option α :=
  (parts.lookup name).bind view

/-- A list of two numbers is a span, and a list of nodes is a list of nodes. -/
def ofItems? : List (Part ν) → Option (Part ν)
  | [.number start, .number stop] => some (.span ⟨start, stop⟩)
  | items => (items.mapM (node? some)).map .nodes

end Part

namespace Node

def expression? : Node → Option Tree.Expr
  | .expression value => some value
  | _ => none

def simpleName? : Node → Option Tree.SimpleName
  | .expression (.name simple) => some simple
  | _ => none

def operator? : Node → Option Tree.OperatorRef
  | .operator use => some use
  | _ => none

def type? : Node → Option Tree.TypeRef
  | .type written => some written
  | _ => none

def package? : Node → Option Tree.Package
  | .package header => some header
  | _ => none

def typeParameter? : Node → Option Tree.TypeParameter
  | .typeParameter parameter => some parameter
  | _ => none

def constructorParameter? : Node → Option Tree.ConstructorParameter
  | .constructorParameter parameter => some parameter
  | _ => none

def valueParameter? : Node → Option Tree.ValueParameter
  | .valueParameter parameter => some parameter
  | _ => none

def statement? : Node → Option Tree.Statement
  | .property declared => some (.variable declared)
  | .expression value => some (.expression value)
  | _ => none

def body? : Node → Option Tree.Body
  | .expression value => some (.expression value)
  | .block steps => some (.block steps)
  | _ => none

def member? : Node → Option Tree.Member
  | .function declared => some (.function declared)
  | .property declared => some (.property declared)
  | _ => none

def topLevel? : Node → Option Tree.TopLevel
  | .class declared => some (.class declared)
  | node => node.member?.map .member

open Gloss.Part (named? absentOr? flag? number? text? node? nodes?)

/-- The type of a kind with a span and with parts; its name has no span of its own. -/
def typeOfParts? (span : Span) (parts : List (String × Part Node)) :
    NodeKind → Option Tree.TypeRef
  | .namedType => do
      let nullable ← named? parts "nullable" flag?
      let name ← named? parts "name" text?
      let arguments ← named? parts "args" (nodes? type?)
      return .named span nullable name ⟨0, 0⟩ arguments
  | .functionType => do
      let nullable ← named? parts "nullable" flag?
      let parameters ← named? parts "params" (nodes? type?)
      let result ← named? parts "result" (node? type?)
      return .function span nullable parameters result
  | _ => none

/-- The expression of a kind with a span and with parts. -/
def expressionOfParts? (span : Span) (parts : List (String × Part Node)) :
    NodeKind → Option Tree.Expr
  | .name => do return .name ⟨span, ← named? parts "name" text?⟩
  | .integer => do return .integer span (← named? parts "value" number?)
  | .text => do return .text span (← named? parts "value" text?)
  | .boolean => do return .boolean span (← named? parts "value" flag?)
  | .null => some (.null span)
  | .callableRef => do
      return .callableRef span (← named? parts "target" (node? simpleName?))
  | .paren => do return .paren span (← named? parts "inner" (node? expression?))
  | .conditional => do
      let condition ← named? parts "condition" (node? expression?)
      let thenBranch ← named? parts "then_branch" (node? expression?)
      match ← named? parts "else_branch" (absentOr? (node? expression?)) with
      | none => return .ifThen span condition thenBranch
      | some elseBranch => return .ifElse span condition thenBranch elseBranch
  | .call => do
      let callee ← named? parts "callee" (node? expression?)
      let arguments ← named? parts "args" (nodes? expression?)
      return .call span callee arguments
  | .member => do
      let receiver ← named? parts "receiver" (node? expression?)
      let selector ← named? parts "selector" (node? simpleName?)
      return .member span receiver selector
  | .binary => do
      let left ← named? parts "left" (node? expression?)
      let use ← named? parts "operator" (node? operator?)
      let right ← named? parts "right" (node? expression?)
      return .binary span left use right
  | _ => none

/-- The node of a kind with a span and with parts; its name has no span of its own. -/
def ofParts? (span : Span) (parts : List (String × Part Node)) : NodeKind → Option Node
  | .file => do
      let package ← named? parts "package" (absentOr? (node? package?))
      let declarations ← named? parts "declarations" (nodes? topLevel?)
      return .file ⟨span, package, declarations⟩
  | .package => do return .package ⟨span, ← named? parts "names" (nodes? simpleName?)⟩
  | .typeParameter => do return .typeParameter ⟨span, ← named? parts "name" text?⟩
  | .constructorParameter => do
      let name ← named? parts "name" text?
      let type ← named? parts "type_ref" (node? type?)
      let keyword ← named? parts "binding" (absentOr? text?)
      let binding ← keyword.mapM Tree.Binding.ofKeyword?
      return .constructorParameter ⟨span, name, ⟨0, 0⟩, type, binding⟩
  | .valueParameter => do
      let name ← named? parts "name" text?
      let type ← named? parts "type_ref" (node? type?)
      return .valueParameter ⟨span, name, ⟨0, 0⟩, type⟩
  | .property => do
      let name ← named? parts "name" text?
      let mutable ← named? parts "mutable" flag?
      let type ← named? parts "type_ref" (absentOr? (node? type?))
      let initializer ← named? parts "initializer" (absentOr? (node? expression?))
      return .property ⟨span, name, ⟨0, 0⟩, if mutable then .var else .val, type, initializer⟩
  | .function => do
      let name ← named? parts "name" text?
      let typeParameters ← named? parts "type_params" (nodes? typeParameter?)
      let parameters ← named? parts "params" (nodes? valueParameter?)
      let returnType ← named? parts "return_type" (absentOr? (node? type?))
      let body ← named? parts "body" (node? body?)
      return .function ⟨span, name, ⟨0, 0⟩, typeParameters, parameters, returnType, body⟩
  | .class => do
      let name ← named? parts "name" text?
      let typeParameters ← named? parts "type_params" (nodes? typeParameter?)
      let constructorParameters ← named? parts "ctor_params" (nodes? constructorParameter?)
      let members ← named? parts "members" (nodes? member?)
      return .class ⟨span, name, ⟨0, 0⟩, typeParameters, constructorParameters, members⟩
  | .block => do return .block ⟨span, ← named? parts "statements" (nodes? statement?)⟩
  | .operator => do
      let operator ← (← named? parts "symbol" text?) |> Tree.Operator.ofSymbol?
      return .operator ⟨span, operator⟩
  | kind =>
      ((typeOfParts? span parts kind).map .type).or
        ((expressionOfParts? span parts kind).map .expression)

/-- The node that an object with these members tells of. -/
def ofMembers? (members : List (String × Part Node)) : Option Node := do
  let kind ← (← named? members "node" text?) |> NodeKind.ofLabel?
  ofParts? (← named? members "span" Part.span?) members kind

end Node

namespace Part

mutual

/-- The part that a document tells of. -/
def ofDocument? : Document → Option (Part Node)
  | .null => some .absent
  | .boolean value => some (.flag value)
  | .integer (.ofNat value) => some (.number value)
  | .integer (.negSucc _) => none
  | .decimal _ _ => none
  | .text value => some (.text value)
  | .list items => (ofDocuments? items).bind ofItems?
  | .object members => ((ofMembers? members).bind Node.ofMembers?).map .node

def ofDocuments? : List Document → Option (List (Part Node))
  | [] => some []
  | first :: rest => do return (← ofDocument? first) :: (← ofDocuments? rest)

def ofMembers? : List (String × Document) → Option (List (String × Part Node))
  | [] => some []
  | (name, first) :: rest => do return (name, ← ofDocument? first) :: (← ofMembers? rest)

end

end Part

namespace Part

variable {ν α : Type}

@[simp] theorem named?_cons_self (name : String) (part : Part ν) (rest : List (String × Part ν))
    (view : Part ν → Option α) : named? ((name, part) :: rest) name view = view part := by
  simp [named?]

@[simp] theorem named?_cons_of_ne {name other : String} (differs : name ≠ other) (part : Part ν)
    (rest : List (String × Part ν)) (view : Part ν → Option α) :
    named? ((other, part) :: rest) name view = named? rest name view := by
  rw [named?, List.lookup_cons, beq_eq_false_iff_ne.mpr differs, named?]

theorem map_map {μ κ : Type} (part : Part ν) (first : ν → μ) (second : μ → κ) :
    (part.map first).map second = part.map fun node => second (first node) := by
  cases part <;> simp [map]

theorem map_congr {μ : Type} {part : Part ν} {first second : ν → μ}
    (same : ∀ child ∈ part.children, first child = second child) :
    part.map first = part.map second := by
  cases part with
  | node value => exact congrArg _ (same value List.mem_cons_self)
  | nodes values => exact congrArg _ (List.map_congr_left same)
  | absent | flag | number | text | span => rfl

theorem mapM_node? (values : List ν) : (values.map Part.node).mapM (node? some) = some values := by
  induction values with
  | nil => rfl
  | cons first rest ih => simp [node?, ih]

/-- Nodes are not taken for the numbers of a span. -/
theorem ofItems?_nodes (values : List ν) :
    ofItems? (values.map Part.node) = some (.nodes values) := by
  unfold ofItems?
  split
  · rename_i start stop isPair
    match values with
    | [] | [_] | _ :: _ :: _ => simp at isPair
  · rw [mapM_node?]
    rfl

end Part

/-- The tree that an outline tells of. -/
def Node.ofOutline? (outline : Document) : Option Node :=
  (Part.ofDocument? outline).bind (Part.node? some)

namespace Node

open Gloss.Part (isSpan absentOr? flag? number? text? node? nodes?)

section

variable {change : SpanChange}

@[simp] theorem expression?_respan (value : Tree.Expr) :
    (value.node.respan change).expression? = some (value.respan change) := rfl

@[simp] theorem simpleName?_respan (name : Tree.SimpleName) :
    (name.node.respan change).simpleName? = some (name.respan change) := rfl

@[simp] theorem statement?_respan (step : Tree.Statement) :
    (step.node.respan change).statement? = some (step.respan change) := by
  cases step <;> rfl

@[simp] theorem body?_respan (body : Tree.Body) :
    (body.node.respan change).body? = some (body.respan change) := by
  cases body <;> rfl

@[simp] theorem member?_respan (declared : Tree.Member) :
    (declared.node.respan change).member? = some (declared.respan change) := by
  cases declared <;> rfl

@[simp] theorem topLevel?_respan (declared : Tree.TopLevel) :
    (declared.node.respan change).topLevel? = some (declared.respan change) := by
  cases declared with
  | «class» => rfl
  | member declared => cases declared <;> rfl

end

theorem mapM_some {α β : Type} (f : α → β) (items : List α) :
    (items.mapM fun item => some (f item)) = some (items.map f) := List.mapM_pure

section

variable (label span : Part Node)

/-- What an outline tells of a node, under the names of its parts. -/
def retold (node : Node) : List (String × Part Node) :=
  ("node", label) :: ("span", span) ::
    node.told.map fun part => (part.1, part.2.map (respan .nameless))

theorem typeOfParts?_retold (written : Tree.TypeRef) :
    typeOfParts? written.span (retold label span (.type written)) (kind (.type written)) =
      some (written.respan .nameless) := by
  cases written <;>
    simp [typeOfParts?, retold, told, parts, typeParts, isSpan, Part.map, kind, flag?, text?,
      nodes?, node?, type?, Tree.TypeRef.span, Tree.TypeRef.respan, List.mapM_map,
      Function.comp_def, mapM_some]

theorem expressionOfParts?_retold (value : Tree.Expr) :
    expressionOfParts? value.span (retold label span (.expression value)) (expressionKind value) =
      some (value.respan .nameless) := by
  cases value <;>
    simp [expressionOfParts?, retold, told, parts, expressionParts, isSpan, Part.map,
      expressionKind, flag?, text?, number?, nodes?, node?, absentOr?, operator?,
      Tree.Expr.span, Tree.Expr.respan, Tree.SimpleName.respan, List.mapM_map,
      Function.comp_def, mapM_some]

/-- A node is read back from its kind, its span and the parts its outline tells. -/
theorem ofParts?_retold (node : Node) :
    ofParts? node.span (retold label span node) node.kind = some (node.respan .nameless) := by
  cases node with
  | type written =>
      have read := typeOfParts?_retold label span written
      cases written <;> simp [ofParts?, kind, Node.span] at read ⊢ <;> simp [read]
  | expression value =>
      have read := expressionOfParts?_retold label span value
      cases value <;> simp [ofParts?, kind, Node.span, typeOfParts?, expressionKind] at read ⊢ <;>
        simp [read]
  | file source =>
      cases package : source.package <;>
        simp [ofParts?, retold, told, parts, isSpan, Part.map, Part.optional, kind, Node.span,
          absentOr?, node?, nodes?, package?, mapM_some, List.mapM_map, Function.comp_def,
          Tree.File.respan, package]
  | constructorParameter parameter =>
      cases binding : parameter.binding <;>
        simp [ofParts?, retold, told, parts, isSpan, Part.map, kind, Node.span, absentOr?, text?,
          node?, type?, Tree.ConstructorParameter.respan, binding]
  | property declared =>
      cases binding : declared.binding <;> cases type : declared.type <;>
        cases initializer : declared.initializer <;>
          simp [ofParts?, retold, told, parts, isSpan, Part.map, Part.optional, kind, Node.span,
            absentOr?, text?, flag?, node?, type?, expression?, Tree.Property.respan, binding, type,
            initializer]
  | function declared =>
      cases type : declared.returnType <;>
        simp [ofParts?, retold, told, parts, isSpan, Part.map, Part.optional, kind, Node.span,
          absentOr?, text?, node?, nodes?, type?, typeParameter?, valueParameter?, mapM_some,
          List.mapM_map, Function.comp_def, Tree.Function.respan, type]
  | «class» declared =>
      simp [ofParts?, retold, told, parts, isSpan, Part.map, kind, Node.span, text?, nodes?,
        typeParameter?, constructorParameter?, mapM_some, List.mapM_map, Function.comp_def,
        Tree.Class.respan]
  | package | typeParameter | valueParameter | block | operator =>
      simp [ofParts?, retold, told, parts, isSpan, Part.map, kind, Node.span, text?, node?, nodes?,
        type?, mapM_some, List.mapM_map, Function.comp_def, Tree.Package.respan,
        Tree.TypeParameter.respan, Tree.ValueParameter.respan, Tree.Block.respan,
        Tree.OperatorRef.respan]

theorem ofMembers?_retold (node : Node) :
    ofMembers? (node.retold (.text node.kind.label) (.span node.span)) =
      some (node.respan .nameless) := by
  have read := ofParts?_retold (.text node.kind.label) (.span node.span) node
  simpa [ofMembers?, retold, text?, Part.span?] using read

end

/-- An outline has the parts of a node as members, but for the spans of names. -/
theorem outline_eq (node : Node) :
    node.outline = .object (("node", .text node.kind.label) :: ("span", spanDocument node.span) ::
      node.told.filterMap fun part =>
        (part.2.map outline).outline?.map fun document => (part.1, document)) := by
  refine (fold_eq _ node).trans ?_
  rw [List.filterMap_map, told, List.filterMap_filter]
  refine congrArg (fun members => Document.object (_ :: _ :: members))
    (List.filterMap_congr fun part _ => ?_)
  obtain ⟨name, part⟩ := part
  cases part <;> rfl

theorem isSpan_of_mem_told {node : Node} {part : String × Part Node} (isTold : part ∈ node.told) :
    part.2.isSpan = false := by
  simpa using (List.mem_filter.mp isTold).2

/-- Outlines that are read back to their nodes are read back together in a list. -/
theorem ofDocuments?_outlines {nodes : List Node} (readBack : ∀ node ∈ nodes,
      Part.ofDocument? node.outline = some (.node (node.respan .nameless))) :
    Part.ofDocuments? (nodes.map outline) =
      some ((nodes.map (respan .nameless)).map Part.node) := by
  induction nodes with
  | nil => rfl
  | cons first rest ih =>
      have readRest := ih fun node inRest => readBack node (List.mem_cons_of_mem _ inRest)
      rw [List.map_cons, Part.ofDocuments?, readBack first List.mem_cons_self, readRest]
      rfl

/-- A part that an outline tells is read back, once the nodes in it are. -/
theorem exists_outline?_eq {part : Part Node} (isTold : part.isSpan = false)
    (readBack : ∀ child ∈ part.children,
      Part.ofDocument? child.outline = some (.node (child.respan .nameless))) :
    ∃ document, (part.map outline).outline? = some document ∧
      Part.ofDocument? document = some (part.map (respan .nameless)) := by
  cases part with
  | span value => simp [isSpan] at isTold
  | node value => exact ⟨_, rfl, readBack value (by simp [Part.children])⟩
  | nodes values =>
      refine ⟨_, rfl, ?_⟩
      have items : Part.ofDocuments? (values.map outline) =
          some ((values.map (respan .nameless)).map Part.node) := ofDocuments?_outlines readBack
      rw [Part.ofDocument?, items, Option.bind_some, Part.ofItems?_nodes]
      rfl
  | absent | flag | number | text => exact ⟨_, rfl, rfl⟩

theorem ofMembers?_told {parts : List (String × Part Node)}
    (areTold : ∀ part ∈ parts, part.2.isSpan = false)
    (readBack : ∀ part ∈ parts, ∀ child ∈ part.2.children,
      Part.ofDocument? child.outline = some (.node (child.respan .nameless))) :
    Part.ofMembers? (parts.filterMap fun part =>
        (part.2.map outline).outline?.map fun document => (part.1, document)) =
      some (parts.map fun part => (part.1, part.2.map (respan .nameless))) := by
  induction parts with
  | nil => rfl
  | cons first rest ih =>
      have readRest := ih (fun part inRest => areTold part (List.mem_cons_of_mem _ inRest))
        fun part inRest => readBack part (List.mem_cons_of_mem _ inRest)
      obtain ⟨document, tells, reads⟩ :=
        exists_outline?_eq (areTold first List.mem_cons_self) (readBack first List.mem_cons_self)
      rw [List.filterMap_cons, tells, Option.map_some, Part.ofMembers?, reads, readRest]
      rfl

/-- A tree is read back from its outline as it was, but for the spans of names. -/
theorem ofDocument?_outline (node : Node) :
    Part.ofDocument? node.outline = some (.node (node.respan .nameless)) := by
  have below : ∀ part ∈ node.told, ∀ child ∈ part.2.children,
      Part.ofDocument? child.outline = some (.node (child.respan .nameless)) := by
    intro part isTold child inPart
    have smaller := sizeOf_child_lt (mem_children_of_mem_part (List.mem_filter.mp isTold).1 inPart)
    exact ofDocument?_outline child
  have members := ofMembers?_told (fun _ => isSpan_of_mem_told) below
  rw [outline_eq, Part.ofDocument?, Part.ofMembers?, Part.ofMembers?, members]
  exact congrArg (Option.map Part.node) (ofMembers?_retold node)
termination_by sizeOf node

/-- Spans of names make no difference to an outline. -/
theorem outline_respan_nameless (node : Node) : (node.respan .nameless).outline = node.outline := by
  have below : ∀ part ∈ node.told,
      (part.2.map (respan .nameless)).map outline = part.2.map outline := by
    intro part isTold
    refine (Part.map_map ..).trans (Part.map_congr fun child inPart => ?_)
    have smaller := sizeOf_child_lt (mem_children_of_mem_part (List.mem_filter.mp isTold).1 inPart)
    exact outline_respan_nameless child
  rw [outline_eq, outline_eq node, told_respan, List.filterMap_map, kind_respan, span_respan]
  refine congrArg (fun members => Document.object (_ :: _ :: members))
    (List.filterMap_congr fun part isTold => ?_)
  simp only [Function.comp_apply, below part isTold]
termination_by sizeOf node

/-- What an outline tells of a tree is all of it but the spans of names: the tree without them is
read back, and two trees have the same outline exactly when nothing else tells them apart. -/
theorem outline_lossless :
    (∀ tree : Node, ofOutline? tree.outline = some (tree.respan .nameless)) ∧
      ∀ left right : Node,
        left.outline = right.outline ↔ left.respan .nameless = right.respan .nameless := by
  have readsBack : ∀ tree : Node, ofOutline? tree.outline = some (tree.respan .nameless) :=
    fun tree => by rw [ofOutline?, ofDocument?_outline]; rfl
  refine ⟨readsBack, fun left right => ⟨fun same => ?_, fun same => ?_⟩⟩
  · exact Option.some.inj (by rw [← readsBack left, same, readsBack right])
  · rw [← outline_respan_nameless left, same, outline_respan_nameless right]

end Node

end Gloss
