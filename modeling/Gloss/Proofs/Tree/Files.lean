import Gloss.Proofs.Tree.Members
import Gloss.Proofs.Tree.Placement

/-!
# The nodes of a file

The nodes of a file are those of its package line and those of its
declarations.  In a well placed file they are all different, so no reference
and no declaration occurs twice, and the names in the package line are not
among the references.
-/

namespace Gloss.Tree.File

/-- The names in the package line of a file. -/
def packageNames (file : File) : List NodeRef :=
  file.package.toList.flatMap fun header => header.names.map fun name => name.node.ref

theorem nodes_eq (file : File) :
    file.nodes =
      (file.package.toList.flatMap fun header => (Node.package header).subtree) ++
        (file.declarations.map TopLevel.node).flatMap Node.subtree := by
  have children : (Node.file file).children =
      file.package.toList.map Node.package ++ file.declarations.map TopLevel.node := by
    cases package : file.package <;>
      simp [Node.children, Node.parts, Part.children, Part.optional, package]
  rw [nodes, children, List.flatMap_append, List.flatMap_map]

theorem subtree_package (header : Package) :
    (Node.package header).subtree =
      .package header :: header.names.map fun name => name.node := by
  have leaf (name : SimpleName) : name.node.subtree = [name.node] := by
    rw [Node.subtree_eq]
    rfl
  rw [Node.subtree_eq]
  simp only [Node.children, Node.parts, Part.children, List.flatMap_cons, List.flatMap_nil,
    List.append_nil, List.flatMap_map, leaf]
  rw [List.map_eq_flatMap]

/-- The nodes that are not in the package line. -/
def declarationNodes (file : File) : List Node :=
  (file.declarations.map TopLevel.node).flatMap Node.subtree

theorem mem_nodes_of_mem_declarationNodes {file : File} {node : Node}
    (inDeclarations : node ∈ file.declarationNodes) : node ∈ file.nodes := by
  rw [nodes_eq]
  exact List.mem_append_right _ inDeclarations

theorem coe_references (file : File) :
    ((((file.declarationNodes.filter fun node => node.kind.isReference).map Node.ref) :
      List NodeRef) : Multiset NodeRef) = file.references := by
  rw [declarationNodes, Node.coe_flatMap_filter, List.map_map]
  rfl

theorem coe_declaredNodes (file : File) :
    ((((file.declarationNodes.filter fun node => node.kind.isDeclaration).map Node.ref) :
      List NodeRef) : Multiset NodeRef) = file.declaredNodes := by
  rw [declarationNodes, Node.coe_flatMap_filter, List.map_map]
  rfl

theorem mem_references_iff {file : File} {reference : NodeRef} :
    reference ∈ file.references ↔
      ∃ node ∈ file.declarationNodes, node.kind.isReference = true ∧ node.ref = reference := by
  rw [← coe_references, Multiset.mem_coe, List.mem_map]
  simp only [List.mem_filter, and_assoc]

theorem mem_declaredNodes_iff {file : File} {declaration : NodeRef} :
    declaration ∈ file.declaredNodes ↔
      ∃ node ∈ file.declarationNodes,
        node.kind.isDeclaration = true ∧ node.ref = declaration := by
  rw [← coe_declaredNodes, Multiset.mem_coe, List.mem_map]
  simp only [List.mem_filter, and_assoc]

/-- A node of the file that is no package line and no name in it is part of a
declaration. -/
theorem mem_declarationNodes {file : File} {node : Node} (inFile : node ∈ file.nodes)
    (notPackage : node.kind ≠ .package) (notName : node.ref ∉ file.packageNames) :
    node ∈ file.declarationNodes := by
  rw [nodes_eq, List.mem_append, List.mem_flatMap] at inFile
  rcases inFile with ⟨header, isHeader, inHeader⟩ | inDeclarations
  · rw [subtree_package, List.mem_cons, List.mem_map] at inHeader
    rcases inHeader with rfl | ⟨name, inNames, rfl⟩
    · exact absurd rfl notPackage
    · refine absurd ?_ notName
      exact List.mem_flatMap.mpr ⟨header, isHeader, List.mem_map.mpr ⟨name, inNames, rfl⟩⟩
  · exact inDeclarations

/-- The declarations of a file are declared nodes. -/
theorem mem_declaredNodes_of_mem_nodes {file : File} {node : Node}
    (inFile : node ∈ file.nodes) (isDeclaration : node.kind.isDeclaration = true) : node.ref ∈ file.declaredNodes := by
  refine mem_declaredNodes_iff.mpr ⟨node, mem_declarationNodes inFile ?_ ?_, isDeclaration, rfl⟩
  · intro isPackage
    rw [isPackage] at isDeclaration
    cases isDeclaration
  · intro isName
    obtain ⟨header, -, inHeader⟩ := List.mem_flatMap.mp isName
    obtain ⟨name, -, same⟩ := List.mem_map.mp inHeader
    have sameKind : node.kind = .name := congrArg NodeRef.kind same.symm
    rw [sameKind] at isDeclaration
    cases isDeclaration

section Placed

variable {file : File} {text : List Char}

theorem sublist_nodes (file : File) (accept : Node → Bool) :
    ((file.declarationNodes.filter accept).map Node.ref).Sublist (file.nodes.map Node.ref) := by
  rw [nodes_eq]
  exact (List.filter_sublist.trans (List.sublist_append_right _ _)).map _

theorem WellPlaced.nodup_refs (placed : file.WellPlaced text) :
    (file.nodes.map Node.ref).Nodup := by
  apply List.Nodup.of_map NodeRef.span
  rw [List.map_map]
  exact placed.nodup_spans

theorem WellPlaced.nodup_references (placed : file.WellPlaced text) : file.references.Nodup := by
  rw [← coe_references, Multiset.coe_nodup]
  exact List.Nodup.sublist (file.sublist_nodes _) placed.nodup_refs

theorem WellPlaced.nodup_declaredNodes (placed : file.WellPlaced text) :
    file.declaredNodes.Nodup := by
  rw [← coe_declaredNodes, Multiset.coe_nodup]
  exact List.Nodup.sublist (file.sublist_nodes _) placed.nodup_refs

/-- No name in the package line is part of a declaration. -/
theorem WellPlaced.notMem_packageNames (placed : file.WellPlaced text) {node : Node}
    (inDeclarations : node ∈ file.declarationNodes) : node.ref ∉ file.packageNames := by
  intro isName
  have distinct := placed.nodup_refs
  rw [nodes_eq, List.map_append, List.nodup_append] at distinct
  refine distinct.2.2 node.ref ?_ node.ref (List.mem_map_of_mem inDeclarations) rfl
  obtain ⟨header, isHeader, inHeader⟩ := List.mem_flatMap.mp isName
  obtain ⟨name, inNames, same⟩ := List.mem_map.mp inHeader
  rw [← same]
  apply List.mem_map_of_mem
  refine List.mem_flatMap.mpr ⟨header, isHeader, ?_⟩
  rw [subtree_package]
  exact List.mem_cons_of_mem _ (List.mem_map.mpr ⟨name, inNames, rfl⟩)

/-- The names in the package line are not among the references. -/
theorem WellPlaced.notMem_references (placed : file.WellPlaced text) {reference : NodeRef}
    (isName : reference ∈ file.packageNames) : reference ∉ file.references := by
  intro isReference
  obtain ⟨node, inDeclarations, -, rfl⟩ := mem_references_iff.mp isReference
  exact placed.notMem_packageNames inDeclarations isName

/-- The references of a file occur in its package line or are to be resolved. -/
theorem WellPlaced.mem_references_iff_notMem_packageNames (placed : file.WellPlaced text)
    {node : Node} (inFile : node ∈ file.nodes) (isReference : node.kind.isReference = true) :
    node.ref ∈ file.references ↔ node.ref ∉ file.packageNames := by
  constructor
  · exact fun inReferences isName => placed.notMem_references isName inReferences
  · intro notName
    have notPackage : node.kind ≠ .package := by
      intro isPackage
      rw [isPackage] at isReference
      cases isReference
    have inDeclarations := mem_declarationNodes inFile notPackage notName
    exact mem_references_iff.mpr ⟨node, inDeclarations, isReference, rfl⟩

end Placed

end Gloss.Tree.File

/-! ### What is collected from a tree

Whatever single nodes have to offer is collected from a node and all nodes below
it.  Where parts of expressions and of written types offer nothing, it is
enough to look at declarations, blocks and statements. -/

namespace Gloss

namespace Node

variable {α : Type} (own : Node → List α)

/-- What a node and all nodes below it have to offer. -/
def collect (node : Node) : List α := node.subtree.flatMap own

theorem collect_eq (node : Node) :
    node.collect own = own node ++ node.children.flatMap (collect own) := by
  rw [collect, subtree_eq, List.flatMap_cons, List.flatMap_assoc]
  rfl

section Silent

variable {own} (silent : ∀ node : Node, node.isInnermost = true → own node = [])

include silent

theorem collect_of_isInnermost (node : Node) (innermost : node.isInnermost = true) :
    node.collect own = [] := by
  have none : ∀ child ∈ node.children, child.collect own = [] := by
    intro child member
    have smaller := sizeOf_child_lt member
    exact collect_of_isInnermost child (isInnermost_children innermost child member)
  rw [collect_eq, silent node innermost, List.flatMap_eq_nil_iff.mpr none, List.append_nil]
termination_by sizeOf node

theorem collect_expression (value : Tree.Expr) : (expression value).collect own = [] :=
  collect_of_isInnermost silent _ rfl

theorem collect_type (written : Tree.TypeRef) : (type written).collect own = [] :=
  collect_of_isInnermost silent _ rfl

section Equations

attribute [local simp] children parts Part.children Part.optional

omit silent in
theorem collect_typeParameter (parameter : Tree.TypeParameter) :
    (typeParameter parameter).collect own = own (typeParameter parameter) := by
  rw [collect_eq]
  simp

theorem collect_valueParameter (parameter : Tree.ValueParameter) :
    (valueParameter parameter).collect own = own (valueParameter parameter) := by
  rw [collect_eq]
  simp [collect_type silent]

theorem collect_constructorParameter (parameter : Tree.ConstructorParameter) :
    (constructorParameter parameter).collect own = own (constructorParameter parameter) := by
  rw [collect_eq]
  cases bound : parameter.binding <;> simp [bound, collect_type silent]

theorem collect_property (declared : Tree.Property) :
    (property declared).collect own = own (property declared) := by
  rw [collect_eq]
  cases written : declared.type <;> cases initialized : declared.initializer <;>
    simp [written, initialized, collect_type silent, collect_expression silent]

omit silent in
theorem collect_block (steps : Tree.Block) :
    (block steps).collect own =
      own (block steps) ++ steps.statements.flatMap fun statement => statement.node.collect own := by
  rw [collect_eq]
  simp [List.flatMap_map]

theorem collect_function (declared : Tree.Function) :
    (function declared).collect own =
      own (function declared) ++
        ((declared.typeParameters.flatMap fun parameter => own (typeParameter parameter)) ++
          ((declared.parameters.flatMap fun parameter => own (valueParameter parameter)) ++
            declared.body.node.collect own)) := by
  rw [collect_eq]
  cases written : declared.returnType <;>
    simp [written, List.flatMap_map, collect_type silent, collect_typeParameter,
      collect_valueParameter silent]

theorem collect_class (declared : Tree.Class) :
    («class» declared).collect own =
      own («class» declared) ++
        ((declared.typeParameters.flatMap fun parameter => own (typeParameter parameter)) ++
          ((declared.constructorParameters.flatMap fun parameter =>
              own (constructorParameter parameter)) ++
            declared.members.flatMap fun member => member.node.collect own)) := by
  rw [collect_eq]
  simp [List.flatMap_map, collect_typeParameter, collect_constructorParameter silent]

end Equations

end Silent

/-- The constructor parameter that a node is, if it is one. -/
def constructorParameters : Node → List Tree.ConstructorParameter
  | .constructorParameter parameter => [parameter]
  | _ => []

theorem mem_constructorParameters_iff {node : Node} {parameter : Tree.ConstructorParameter} :
    parameter ∈ node.constructorParameters ↔ node = .constructorParameter parameter := by
  cases node with
  | constructorParameter other => simp [constructorParameters, eq_comm]
  | _ => exact ⟨nofun, nofun⟩

theorem exists_constructorParameter_of_kind {node : Node} (kind : node.kind = .constructorParameter) :
    ∃ parameter, node = .constructorParameter parameter := by
  cases node with
  | constructorParameter parameter => exact ⟨parameter, rfl⟩
  | type written => cases written <;> cases kind
  | expression value => cases value <;> cases kind
  | _ => cases kind

theorem constructorParameters_of_isInnermost (node : Node) (innermost : node.isInnermost = true) :
    node.constructorParameters = [] := by
  cases node with
  | operator | type | expression => rfl
  | _ => cases innermost

end Node

namespace Tree

theorem Body.collect_constructorParameters (body : Body) :
    body.node.collect Node.constructorParameters = [] := by
  cases body with
  | expression value => exact Node.collect_expression Node.constructorParameters_of_isInnermost value
  | block steps =>
      rw [node, Node.collect_block]
      refine List.flatMap_eq_nil_iff.mpr ?_
      intro statement _
      cases statement with
      | expression value =>
          exact Node.collect_expression Node.constructorParameters_of_isInnermost value
      | «variable» declared =>
          exact Node.collect_property Node.constructorParameters_of_isInnermost declared

theorem Member.collect_constructorParameters (member : Member) :
    member.node.collect Node.constructorParameters = [] := by
  cases member with
  | function declared =>
      rw [node, Node.collect_function Node.constructorParameters_of_isInnermost,
        Body.collect_constructorParameters]
      simp [Node.constructorParameters]
  | property declared =>
      exact Node.collect_property Node.constructorParameters_of_isInnermost declared

theorem TopLevel.collect_constructorParameters (declared : TopLevel) :
    declared.node.collect Node.constructorParameters = declared.constructorParameters := by
  cases declared with
  | «class» declaration =>
      have typeParameters : (declaration.typeParameters.flatMap fun parameter =>
          (Node.typeParameter parameter).constructorParameters) = [] :=
        List.flatMap_eq_nil_iff.mpr fun _ _ => rfl
      have members : (declaration.members.flatMap fun member =>
          member.node.collect Node.constructorParameters) = [] :=
        List.flatMap_eq_nil_iff.mpr fun member _ => member.collect_constructorParameters
      rw [node, Node.collect_class Node.constructorParameters_of_isInnermost, typeParameters, members,
        List.nil_append, List.append_nil]
      exact List.flatMap_singleton' _
  | member declaration => exact declaration.collect_constructorParameters

/-- Constructor parameters occur in the classes of a file only. -/
theorem File.mem_constructorParameters {file : File} {parameter : ConstructorParameter}
    (inFile : .constructorParameter parameter ∈ file.nodes) :
    parameter ∈ file.constructorParameters := by
  rw [nodes_eq, List.mem_append, List.mem_flatMap] at inFile
  rcases inFile with ⟨header, -, inHeader⟩ | inDeclarations
  · rw [subtree_package, List.mem_cons, List.mem_map] at inHeader
    rcases inHeader with isPackage | ⟨name, -, isName⟩
    · cases isPackage
    · cases isName
  · obtain ⟨top, isTop, inTop⟩ := List.mem_flatMap.mp inDeclarations
    obtain ⟨declared, isDeclared, rfl⟩ := List.mem_map.mp isTop
    refine List.mem_flatMap.mpr ⟨declared, isDeclared, ?_⟩
    rw [← declared.collect_constructorParameters]
    exact List.mem_flatMap.mpr ⟨_, inTop, Node.mem_constructorParameters_iff.mpr rfl⟩

end Tree

end Gloss
