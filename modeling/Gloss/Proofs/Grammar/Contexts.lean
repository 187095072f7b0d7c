import Gloss.Proofs.Grammar.Nodes
import Gloss.Proofs.Grammar.Placement.Files
import Gloss.Proofs.Resolution.Outcomes
import Gloss.Proofs.Tree.Ancestors

/-!
# Nodes in their context

What is above a node in the tree is what stands around its start in the text.
The declaration that a node is in, found from the nodes above it, is the
declaration that its start means, since nothing begins with a declaration but
the declaration itself: a block begins with its brace.  The statement of an
expression is the largest expression around its start.
-/

namespace Gloss

namespace Node

/-- A block begins before everything that is in it. -/
def Opens (node : Node) : Prop :=
  node.kind = .block → ∀ child ∈ node.children, node.span.start < child.span.start

theorem Opens.of_kind {node : Node} (noBlock : node.kind ≠ .block) : node.Opens :=
  fun isBlock => absurd isBlock noBlock

theorem opens_expression (value : Tree.Expr) : value.node.Opens :=
  .of_kind (by cases value <;> exact nofun)

theorem opens_type (written : Tree.TypeRef) : (type written).Opens :=
  .of_kind (by cases written <;> exact nofun)

theorem opens_of_isStep {node : Node} (isStep : node.isStep = true) : node.Opens := by
  cases node with
  | expression value => exact opens_expression value
  | _ => cases isStep

/-- Nothing but a file, a declaration or a block has parts that are no parts of expressions
or written types. -/
theorem isInnermost_children_of_kind {node child : Node} (notFile : node.kind ≠ .file)
    (notDeclaration : node.kind.isDeclaration = false) (noBlock : node.kind ≠ .block)
    (isChild : child ∈ node.children) : child.isInnermost = true := by
  cases node with
  | file => exact absurd rfl notFile
  | block => exact absurd rfl noBlock
  | package header =>
      simp only [children, parts, Part.children, List.flatMap_cons, List.flatMap_nil,
        List.append_nil, List.mem_map] at isChild
      obtain ⟨name, -, rfl⟩ := isChild
      rfl
  | expression | type | operator => exact isInnermost_children rfl child isChild
  | _ => cases notDeclaration

theorem isInnermost_of_mem_subtree {node inner : Node} (innermost : node.isInnermost = true)
    (isInside : inner ∈ node.subtree) : inner.isInnermost = true := by
  rcases mem_subtree_iff.mp isInside with rfl | ⟨child, isChild, isBelow⟩
  · exact innermost
  · have smaller := sizeOf_child_lt isChild
    exact isInnermost_of_mem_subtree (isInnermost_children innermost child isChild) isBelow
termination_by sizeOf node

/-- No declaration begins where a node begins that it is in, unless this is a declaration or
a file. -/
theorem start_lt_of_isDeclaration {text : List Char} {node child inner : Node}
    (placed : WellPlaced text node) (opens : node.Opens) (notFile : node.kind ≠ .file)
    (notDeclaration : node.kind.isDeclaration = false) (isChild : child ∈ node.children)
    (isBelow : inner ∈ child.subtree) (isDeclaration : inner.kind.isDeclaration = true) :
    node.span.start < inner.span.start := by
  by_cases isBlock : node.kind = .block
  · have begins := opens isBlock child isChild
    have inside := ((placed.child isChild).of_mem_subtree isBelow).1
    omega
  · have innermost := isInnermost_children_of_kind notFile notDeclaration isBlock isChild
    rw [isDeclaration_of_isInnermost (isInnermost_of_mem_subtree innermost isBelow)] at isDeclaration
    cases isDeclaration

end Node

namespace Grammar

open Node (Everywhere Throughout throughout_singleton)

/-- What a rule reads in its place, with all blocks in it opened by braces. -/
def openedReading (text : List Char) : Peg.RuleReading Rule := fun _ name start value stop =>
  placedReading text name start value stop ∧ Throughout Node.Opens (roots name value)

section Rules

variable {text : List Char} {start stop : Nat} {α : Type}

theorem sound_openedReading (text : List Char) : Sound text (openedReading text) :=
  ⟨fun _ _ _ _ reading => reading.1.1, fun reading => reading.1.2⟩

theorem opens_block {value : Tree.Block}
    (reads : Reads text (openedReading text) (phrase .block) start value stop) :
    (Node.block value).Opens := by
  obtain ⟨⟨span, statements⟩, ⟨spans, reads⟩, rfl⟩ := reads
  cases spans
  obtain ⟨innerStart, opens, row⟩ :=
    row_inside_braces (sound_openedReading text) reads fun _ _ _ row => row
  have children : (Node.block ⟨⟨start, stop⟩, statements⟩).children =
      statements.map Tree.Statement.node := by
    simp [Node.children, Node.parts, Part.children]
  intro _ child isChild
  rw [children] at isChild
  exact Nat.lt_of_lt_of_le opens (row.spread.of_mem (List.mem_map_of_mem isChild)).1

/-- The body of a function is a block only where a block was read. -/
theorem opens_functionBody {value : Tree.Body}
    (reads : Reads text (openedReading text) (phrase .functionBody) start value stop) :
    value.node.Opens := by
  rcases reads with ⟨expression, -, rfl⟩ | ⟨block, reads, rfl⟩
  · exact Node.opens_expression expression
  · exact (throughout_singleton.mp reads.2).here

theorem opens_of_mem_roots {name : Rule α} {value : α}
    (reads : Reads text (openedReading text) (phrase name) start value stop) :
    ∀ node ∈ roots name value, node.Opens := by
  have only {node : Node} (opens : node.Opens) : ∀ root ∈ [node], root.Opens :=
    List.forall_mem_singleton.mpr opens
  have names (list : List Tree.SimpleName) :
      ∀ root ∈ list.map Tree.SimpleName.node, root.Opens :=
    List.forall_mem_map.mpr fun _ _ => .of_kind nofun
  have types (list : List Tree.TypeRef) : ∀ root ∈ list.map Node.type, root.Opens :=
    List.forall_mem_map.mpr fun written _ => Node.opens_type written
  have member (value : Tree.Member) : value.node.Opens :=
    .of_kind (by cases value <;> exact nofun)
  have topLevel (value : Tree.TopLevel) : value.node.Opens := by
    cases value with
    | «class» => exact .of_kind nofun
    | member value => exact member value
  have statement (value : Tree.Statement) : value.node.Opens := by
    cases value with
    | «variable» => exact .of_kind nofun
    | expression value => exact Node.opens_expression value
  have suffix (value : Suffix) : ∀ root ∈ value.roots, root.Opens := by
    cases value with
    | call arguments => exact List.forall_mem_map.mpr fun value _ => Node.opens_expression value
    | member selector => exact only (.of_kind nofun)
  cases name with
  | block => exact only (opens_block reads)
  | functionBody => exact only (opens_functionBody reads)
  | file | packagePart | packageHeader | classDeclaration | constructorParameter
  | functionDeclaration | valueParameter | propertyDeclaration | comparisonOperator
  | additiveOperator | multiplicativeOperator | typeParameter | nameReference =>
      exact only (.of_kind nofun)
  | topLevel | declaration => exact only (topLevel value)
  | qualifiedName => exact names value
  | member => exact only (member value)
  | typeParameters | constructorParameters | constructorParameterList | valueParameters =>
      exact List.forall_mem_map.mpr fun _ _ => .of_kind nofun
  | classBody => exact List.forall_mem_map.mpr fun value _ => member value
  | statement | statementBody => exact only (statement value)
  | type | typeBody | functionType | namedType => exact only (Node.opens_type value)
  | typeList | typeArguments => exact types value
  | expressionBody | expression | additive | multiplicative | suffixed | primary | conditional
  | parenthesized | callableReference | literal | integerLiteral | textLiteral | truthLiteral
  | nullLiteral => exact only (Node.opens_expression value)
  | suffix | callSuffix | memberSuffix => exact suffix value
  | arguments => exact List.forall_mem_map.mpr fun value _ => Node.opens_expression value
  | declaredName | typeName | nullable | packageKeyword | classKeyword | functionKeyword
  | ifKeyword | elseKeyword | bindingKeyword | blank => exact List.forall_mem_nil _

/-- A rule opens the blocks that it reads when the rules inside of it do. -/
theorem openedReading_of_reads {name : Rule α} {value : α}
    (reads : Reads text (openedReading text) (phrase name) start value stop) :
    openedReading text name start value stop := by
  have sound := sound_openedReading text
  refine ⟨⟨extent_of_reads sound.extent reads, places_of_reads sound reads⟩, ?_⟩
  have inside : ∀ {β : Type} {name : Rule β} {start stop : Nat} {value : β},
      openedReading text name start value stop → Throughout Node.Opens (roots name value) :=
    fun reading => reading.2
  have opens := opens_of_mem_roots reads
  cases once : isChain name with
  | false =>
      exact throughout_roots inside once (fun node isRoot _ _ => opens node isRoot)
        (fun _ => opens) reads
  | true => exact throughout_chain inside once (fun _ => Node.opens_of_isStep) reads

end Rules

/-- The blocks of a tree that was read from a text begin before everything in them. -/
theorem opens_of_read {file : String} {text : List Char} {tree : Tree.File}
    (read : read file text = .ok tree) : (Node.file tree).Everywhere Node.Opens := by
  obtain ⟨next, matched, -⟩ := exists_match_of_read read
  have closed : ∀ {α : Type} (name : Rule α) start value stop,
      Reads text (openedReading text) (phrase name) start value stop →
        openedReading text name start value stop := fun _ _ _ _ => openedReading_of_reads
  obtain ⟨reading, -⟩ :=
    Peg.reads_of_runRule Token.scan_le_length closed (Cursor.in_ofText text) matched
  exact throughout_singleton.mp reading.2

end Grammar

namespace Tree.File

variable {text : List Char} {file : File} {occurrence : Occurrence}

/-- All declarations around the start of a node are above it, unless the node is a
declaration or the file itself. -/
theorem WellPlaced.isAbove_of_isDeclaration (placed : file.WellPlaced text)
    (opens : (Node.file file).Everywhere Node.Opens) (occurs : occurrence ∈ file.occurrences)
    (notFile : occurrence.node.kind ≠ .file)
    (notDeclaration : occurrence.node.kind.isDeclaration = false) :
    ∀ other ∈ file.occurrences,
      other.isAround NodeKind.isDeclaration occurrence.node.span.start = true →
        other.IsAbove occurrence := by
  intro other otherOccurs isAround
  obtain ⟨isDeclaration, contains⟩ := Occurrence.isAround_iff.mp isAround
  simp only [Span.contains, Bool.and_eq_true, decide_eq_true_eq] at contains
  have nodePlaced := placed.of_mem_occurrences occurs notFile
  have nonempty := nodePlaced.tidy.tight.start_lt_stop
  rcases Occurrence.eq_or_related placed.pairwise_aboveOrBefore otherOccurs occurs with
    rfl | (isAbove | before) | (isBelow | behind)
  · rw [notDeclaration] at isDeclaration
    cases isDeclaration
  · exact isAbove
  · omega
  · obtain ⟨child, isChild, inChild⟩ := isBelow.exists_child otherOccurs
    have here : occurrence.node.Opens :=
      opens _ (Node.mem_subtree_of_mem_occurrences occurs)
    have later := Node.start_lt_of_isDeclaration nodePlaced here notFile notDeclaration isChild
      inChild isDeclaration
    omega
  · omega

end Tree.File

namespace Resolution

/-- What is above the nodes of a file is what stands around their starts. -/
structure SeesContext (resolution : Resolution) : Prop where
  declaration : ∀ occurrence ∈ resolution.file.occurrences, occurrence.node.kind ≠ .file →
    occurrence.node.kind.isDeclaration = false →
      (resolution.file.innermost? NodeKind.isDeclaration occurrence.node.span.start).map
          Occurrence.node = occurrence.declaration? ∧
        resolution.declarationAt? occurrence.node.span.start =
          occurrence.declaration?.map Node.ref
  statement : ∀ occurrence ∈ resolution.file.occurrences,
    occurrence.node.kind.isExpression = true →
      ∃ largest ∈ resolution.file.occurrences, largest.node = occurrence.statement ∧
        largest.isAround NodeKind.isExpression occurrence.node.span.start = true ∧
        ∀ other ∈ resolution.file.occurrences,
          other.isAround NodeKind.isExpression occurrence.node.span.start = true →
            other = largest ∨ other.node.span.size < largest.node.span.size

variable {name : String} {text : List Char} {resolution : Resolution}

/-- In a file that can be read the nodes above a node and the spans around its start tell the
same declaration and the same statement. -/
theorem seesContext_of_read (readable : read name text = .ok resolution) :
    resolution.SeesContext := by
  obtain ⟨file, parsed, rfl⟩ := eq_ofFile_of_read readable
  have placed := Grammar.wellPlaced_of_read parsed
  have opens := Grammar.opens_of_read parsed
  constructor
  · intro occurrence occurs notFile notDeclaration
    have nearest : (file.innermost? NodeKind.isDeclaration occurrence.node.span.start).map
        Occurrence.node = occurrence.declaration? :=
      placed.map_innermost?_of_isAbove rfl occurs
        (placed.isAbove_of_isDeclaration opens occurs notFile notDeclaration)
    refine ⟨nearest, ?_⟩
    rw [← nearest, Option.map_map]
    rfl
  · intro occurrence occurs isExpression
    exact placed.exists_largest occurs isExpression

/-- A block that begins with a declaration, behind its brace. -/
theorem seesContext_of_read_nested :
    ∃ resolution,
      read "sample" "class A \x7b fun f(x: Int) \x7b val y = x.g(x + 1) \x7d \x7d".toList =
        .ok resolution ∧
      resolution.declarationAt? 24 = some ⟨.function, ⟨10, 46⟩⟩ ∧
      resolution.declarationAt? 38 = some ⟨.property, ⟨26, 44⟩⟩ ∧
      resolution.SeesContext := by
  have computed :
      (match read "sample"
          "class A \x7b fun f(x: Int) \x7b val y = x.g(x + 1) \x7d \x7d".toList with
        | .ok resolution =>
            decide (resolution.declarationAt? 24 = some ⟨.function, ⟨10, 46⟩⟩ ∧
              resolution.declarationAt? 38 = some ⟨.property, ⟨26, 44⟩⟩)
        | .error _ => false) = true := by
    decide +kernel
  cases readable : read "sample"
      "class A \x7b fun f(x: Int) \x7b val y = x.g(x + 1) \x7d \x7d".toList with
  | error fault =>
      rw [readable] at computed
      cases computed
  | ok resolution =>
      simp only [readable, decide_eq_true_eq] at computed
      exact ⟨resolution, rfl, computed.1, computed.2, seesContext_of_read readable⟩

end Resolution

end Gloss
