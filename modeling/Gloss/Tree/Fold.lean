import Gloss.Tree.Node

/-!
# Folding over trees

`Node.fold` combines what it computed for the nodes below a node, and
`fold_eq` is its equation.  A node is larger than the nodes below it, which is
why folding ends.
-/

namespace Gloss

namespace Node

theorem sizeOf_span_pos (span : Span) : 0 < sizeOf span := by
  cases span
  simp only [Span.mk.sizeOf_spec]
  omega

theorem sizeOf_expression_child_lt (value : Tree.Expr) {child : Node}
    (member : child ∈ (Node.expression value).children) :
    sizeOf child < sizeOf (Node.expression value) := by
  cases value with
  | name | integer | text | boolean | null =>
      simp [children, parts, expressionParts, Part.children] at member
  | callableRef span target =>
      have := sizeOf_span_pos span
      simp [children, parts, expressionParts, Part.children, Tree.SimpleName.node] at member
      subst member
      simp
      omega
  | paren span inner =>
      have := sizeOf_span_pos span
      simp [children, parts, expressionParts, Part.children, Tree.Expr.node] at member
      subst member
      simp only [expression.sizeOf_spec, Tree.Expr.paren.sizeOf_spec]
      omega
  | ifThen span condition thenBranch =>
      simp [children, parts, expressionParts, Part.children, Tree.Expr.node] at member
      rcases member with rfl | rfl <;> simp <;> omega
  | ifElse span condition thenBranch elseBranch =>
      simp [children, parts, expressionParts, Part.children, Tree.Expr.node] at member
      rcases member with rfl | rfl | rfl <;> simp <;> omega
  | call span callee arguments =>
      simp [children, parts, expressionParts, Part.children, Tree.Expr.node] at member
      rcases member with rfl | ⟨item, itemMember, rfl⟩
      · simp
        omega
      · have := List.sizeOf_lt_of_mem itemMember
        simp
        omega
  | member span receiver selector =>
      have := sizeOf_span_pos span
      simp [children, parts, expressionParts, Part.children, Tree.Expr.node,
        Tree.SimpleName.node] at member
      rcases member with rfl | rfl <;> simp <;> omega
  | binary span left operator right =>
      simp [children, parts, expressionParts, Part.children, Tree.Expr.node] at member
      rcases member with rfl | rfl | rfl <;> simp <;> omega

theorem sizeOf_type_child_lt (written : Tree.TypeRef) {child : Node}
    (member : child ∈ (Node.type written).children) :
    sizeOf child < sizeOf (Node.type written) := by
  cases written with
  | named span nullable name nameSpan arguments =>
      simp [children, parts, typeParts, Part.children] at member
      obtain ⟨item, itemMember, rfl⟩ := member
      have := List.sizeOf_lt_of_mem itemMember
      simp
      omega
  | function span nullable parameters result =>
      simp [children, parts, typeParts, Part.children] at member
      rcases member with ⟨item, itemMember, rfl⟩ | rfl
      · have := List.sizeOf_lt_of_mem itemMember
        simp
        omega
      · simp only [type.sizeOf_spec, Tree.TypeRef.function.sizeOf_spec]
        omega

theorem sizeOf_statement_node (statement : Tree.Statement) :
    sizeOf statement.node = sizeOf statement := by
  cases statement <;> simp [Tree.Statement.node]

theorem sizeOf_body_node (body : Tree.Body) : sizeOf body.node = sizeOf body := by
  cases body <;> simp [Tree.Body.node]

theorem sizeOf_member_node (member : Tree.Member) : sizeOf member.node = sizeOf member := by
  cases member <;> simp [Tree.Member.node]

theorem sizeOf_topLevel_node (declaration : Tree.TopLevel) :
    sizeOf declaration.node ≤ sizeOf declaration := by
  cases declaration <;> simp [Tree.TopLevel.node, sizeOf_member_node]

theorem children_optional {ν α : Type} (toNode : α → ν) (item : Option α) (child : ν)
    (member : child ∈ (Part.optional (item.map toNode)).children) :
    ∃ value, item = some value ∧ child = toNode value := by
  cases item with
  | none => simp [Part.optional, Part.children] at member
  | some value => exact ⟨value, rfl, by simpa [Part.optional, Part.children] using member⟩

theorem sizeOf_child_lt {node child : Node} (member : child ∈ node.children) :
    sizeOf child < sizeOf node := by
  cases node with
  | expression value => exact sizeOf_expression_child_lt value member
  | type written => exact sizeOf_type_child_lt written member
  | typeParameter | operator => simp [children, parts, Part.children] at member
  | file source =>
      obtain ⟨span, package, declarations⟩ := source
      have := sizeOf_span_pos span
      simp only [children, parts, List.flatMap_cons, List.flatMap_nil, List.append_nil,
        List.mem_append] at member
      rcases member with member | member
      · obtain ⟨value, rfl, rfl⟩ := children_optional _ _ _ member
        simp
        omega
      · simp only [Part.children, List.mem_map] at member
        obtain ⟨item, itemMember, rfl⟩ := member
        have := List.sizeOf_lt_of_mem itemMember
        have := sizeOf_topLevel_node item
        simp
        omega
  | package header =>
      obtain ⟨span, names⟩ := header
      have := sizeOf_span_pos span
      simp [children, parts, Part.children, Tree.SimpleName.node] at member
      obtain ⟨item, itemMember, rfl⟩ := member
      have := List.sizeOf_lt_of_mem itemMember
      simp
      omega
  | constructorParameter parameter =>
      obtain ⟨span, name, nameSpan, type, binding⟩ := parameter
      have := sizeOf_span_pos span
      have : child = .type type := by
        cases binding <;> simpa [children, parts, Part.children] using member
      subst this
      simp
      omega
  | valueParameter parameter =>
      obtain ⟨span, name, nameSpan, type⟩ := parameter
      have := sizeOf_span_pos span
      simp [children, parts, Part.children] at member
      subst member
      simp only [Node.type.sizeOf_spec, valueParameter.sizeOf_spec,
        Tree.ValueParameter.mk.sizeOf_spec]
      omega
  | property declared =>
      obtain ⟨span, name, nameSpan, binding, type, initializer⟩ := declared
      have := sizeOf_span_pos span
      simp only [children, parts, List.flatMap_cons, List.flatMap_nil, List.append_nil,
        List.mem_append] at member
      rcases member with member | member | member | member | member
      · simp [Part.children] at member
      · simp [Part.children] at member
      · simp [Part.children] at member
      · obtain ⟨value, rfl, rfl⟩ := children_optional _ _ _ member
        simp
        omega
      · obtain ⟨value, rfl, rfl⟩ := children_optional _ _ _ member
        simp
        omega
  | function declared =>
      obtain ⟨span, name, nameSpan, typeParameters, parameters, returnType, body⟩ := declared
      have := sizeOf_span_pos span
      have := sizeOf_body_node body
      simp only [children, parts, List.flatMap_cons, List.flatMap_nil, List.append_nil,
        List.mem_append] at member
      rcases member with member | member | member | member | member | member
      · simp [Part.children] at member
      · simp [Part.children] at member
      · simp only [Part.children, List.mem_map] at member
        obtain ⟨item, itemMember, rfl⟩ := member
        have := List.sizeOf_lt_of_mem itemMember
        simp
        omega
      · simp only [Part.children, List.mem_map] at member
        obtain ⟨item, itemMember, rfl⟩ := member
        have := List.sizeOf_lt_of_mem itemMember
        simp
        omega
      · obtain ⟨value, rfl, rfl⟩ := children_optional _ _ _ member
        simp
        omega
      · simp only [Part.children, List.mem_singleton] at member
        subst member
        simp
        omega
  | «class» declared =>
      obtain ⟨span, name, nameSpan, typeParameters, constructorParameters, members⟩ := declared
      have := sizeOf_span_pos span
      simp only [children, parts, List.flatMap_cons, List.flatMap_nil, List.append_nil,
        List.mem_append] at member
      rcases member with member | member | member | member | member
      · simp [Part.children] at member
      · simp [Part.children] at member
      all_goals
        simp only [Part.children, List.mem_map] at member
        obtain ⟨item, itemMember, rfl⟩ := member
        have := List.sizeOf_lt_of_mem itemMember
      · simp
        omega
      · simp
        omega
      · have := sizeOf_member_node item
        simp
        omega
  | block steps =>
      obtain ⟨span, statements⟩ := steps
      simp [children, parts, Part.children] at member
      obtain ⟨item, itemMember, rfl⟩ := member
      have := List.sizeOf_lt_of_mem itemMember
      have := sizeOf_statement_node item
      simp
      omega

theorem mem_children_of_mem_part {node : Node} {part : String × Part Node} {child : Node}
    (inNode : part ∈ node.parts) (inPart : child ∈ part.2.children) : child ∈ node.children :=
  List.mem_flatMap.2 ⟨part, inNode, inPart⟩

/-- What `combine` makes of a node and of its results for the nodes below. -/
def fold {α : Type} (combine : Node → List (String × Part α) → α) (node : Node) : α :=
  combine node (node.parts.attach.map fun part =>
    (part.1.1, part.1.2.mapChildren fun child _ => fold combine child))
termination_by sizeOf node
decreasing_by exact sizeOf_child_lt (mem_children_of_mem_part part.2 (by assumption))

/-- A fold is `combine` of the node and of the folds of the nodes below. -/
theorem fold_eq {α : Type} (combine : Node → List (String × Part α) → α) (node : Node) :
    fold combine node =
      combine node (node.parts.map fun part => (part.1, part.2.map (fold combine))) := by
  rw [fold]
  simp only [Part.mapChildren_eq_map]
  congr 1
  exact List.attach_map_val (l := node.parts)
    (f := fun part => (part.1, part.2.map (fold combine)))

end Node

end Gloss
