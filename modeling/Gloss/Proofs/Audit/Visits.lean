import Gloss.Proofs.Audit.Checking
import Gloss.Proofs.Tree.Files

/-!
# What is visited in a file

The bodies and initializers of a file and the statements of its blocks are the
roots of inference: each is inferred on its own, and what is visited in it
follows.  No more is visited than has a type or is declared, so in a file whose
nodes are all different nothing is visited twice.
-/

namespace Gloss

namespace Node

/-- The expressions and statements right below a node that are inferred on their
own. -/
def roots : Node → List NodeRef
  | .function declared =>
      match declared.body with
      | .expression body => [body.node.ref]
      | .block _ => []
  | .property declared => declared.initializer.toList.map fun value => value.node.ref
  | .block steps => steps.statements.map fun statement => statement.node.ref
  | _ => []

theorem kind_ne_file_of_mem_roots {node : Node} {root : NodeRef} (isRoot : root ∈ node.roots) :
    node.kind ≠ .file := by
  cases node with
  | function | property | block => exact nofun
  | _ => cases isRoot

/-- No part of an expression or of a written type is inferred on its own. -/
theorem roots_of_isInnermost (node : Node) (innermost : node.isInnermost = true) :
    node.roots = [] := by
  cases node with
  | operator | type | expression => rfl
  | _ => cases innermost

/-- The roots of inference from a node downwards. -/
def rootsBelow (node : Node) : List NodeRef := node.collect roots

theorem rootsBelow_expression (value : Tree.Expr) : (expression value).rootsBelow = [] :=
  collect_expression roots_of_isInnermost value

theorem rootsBelow_property (declared : Tree.Property) :
    (property declared).rootsBelow =
      declared.initializer.toList.map fun value => value.node.ref :=
  collect_property roots_of_isInnermost declared

theorem rootsBelow_block (steps : Tree.Block) :
    (block steps).rootsBelow =
      (steps.statements.map fun statement => statement.node.ref) ++
        steps.statements.flatMap fun statement => statement.node.rootsBelow :=
  collect_block steps

theorem rootsBelow_function (declared : Tree.Function) :
    (function declared).rootsBelow = (function declared).roots ++ declared.body.node.rootsBelow := by
  have typeParameters : (declared.typeParameters.flatMap fun parameter =>
      (typeParameter parameter).roots) = [] := List.flatMap_eq_nil_iff.mpr fun _ _ => rfl
  have parameters : (declared.parameters.flatMap fun parameter =>
      (valueParameter parameter).roots) = [] := List.flatMap_eq_nil_iff.mpr fun _ _ => rfl
  rw [rootsBelow, collect_function roots_of_isInnermost, typeParameters, parameters]
  rfl

theorem rootsBelow_class (declared : Tree.Class) :
    («class» declared).rootsBelow = declared.members.flatMap fun member => member.node.rootsBelow := by
  have typeParameters : (declared.typeParameters.flatMap fun parameter =>
      (typeParameter parameter).roots) = [] := List.flatMap_eq_nil_iff.mpr fun _ _ => rfl
  have parameters : (declared.constructorParameters.flatMap fun parameter =>
      (constructorParameter parameter).roots) = [] := List.flatMap_eq_nil_iff.mpr fun _ _ => rfl
  rw [rootsBelow, collect_class roots_of_isInnermost, typeParameters, parameters]
  rfl

end Node

/-! ### What is visited -/

/-- Whatever is visited has a type or is declared. -/
def Tally.IsTraced (tally : Tally) : Prop := tally.2 ≤ tally.1 .type + tally.1 .declaration

namespace Tally

variable {first second : Tally}

theorem isTraced_filling (filled : Slot → Multiset NodeRef) : (filling filled).IsTraced :=
  Multiset.zero_le _

theorem isTraced_entry (slot : Slot) (node : NodeRef) : (entry slot node).IsTraced :=
  Multiset.zero_le _

theorem IsTraced.add (traced : first.IsTraced) (isTraced : second.IsTraced) :
    (first + second).IsTraced := by
  have together := add_le_add traced isTraced
  rwa [add_add_add_comm] at together

theorem isTraced_sum {α : Type} {tally : α → Tally} {parts : List α}
    (traced : ∀ part ∈ parts, (tally part).IsTraced) : (parts.map tally).sum.IsTraced := by
  induction parts with
  | nil => exact Multiset.zero_le _
  | cons part rest ih =>
      obtain ⟨first, others⟩ := List.forall_mem_cons.mp traced
      rw [List.map_cons, List.sum_cons]
      exact first.add (ih others)

theorem fst_sum {α : Type} (tally : α → Tally) (parts : List α) :
    (parts.map tally).sum.1 = (parts.map fun part => (tally part).1).sum := by
  induction parts with
  | nil => rfl
  | cons part rest ih =>
      rw [List.map_cons, List.sum_cons, Prod.fst_add, ih, List.map_cons, List.sum_cons]

theorem mem_snd_sum {α : Type} {tally : α → Tally} {parts : List α} {part : α} {node : NodeRef}
    (isPart : part ∈ parts) (visited : node ∈ (tally part).2) :
    node ∈ (parts.map tally).sum.2 := by
  induction parts with
  | nil => cases isPart
  | cons first rest ih =>
      rw [List.map_cons, List.sum_cons, Prod.snd_add, Multiset.mem_add]
      rcases List.mem_cons.mp isPart with rfl | inRest
      · exact .inl visited
      · exact .inr (ih inRest)

/-- A visit of something that gets a type in the end. -/
theorem IsTraced.visited (traced : first.IsTraced) (node : NodeRef) :
    (visit node + (first + entry .type node)).IsTraced := by
  have together : {node} + first.2 ≤ {node} + (first.1 .type + first.1 .declaration) :=
    add_le_add_right traced {node}
  refine le_trans (le_of_eq ?_) (le_trans together (le_of_eq ?_))
  · change {node} + (first.2 + 0) = {node} + first.2
    rw [add_zero]
  change {node} + (first.1 .type + first.1 .declaration) =
    (0 + (first.1 .type + {node})) + (0 + (first.1 .declaration + 0))
  abel

end Tally

namespace Tree

namespace TypeRef

theorem isTraced_tally? (type : Option TypeRef) : (tally? type).IsTraced := by
  rw [tally?_eq]
  exact Tally.isTraced_filling _

end TypeRef

namespace Expr

mutual

theorem isTraced_tally : (value : Expr) → value.tally.IsTraced
  | .name simple => by
      rw [tally_name]
      exact (Tally.isTraced_entry _ _).visited _
  | .integer _ _ | .text _ _ | .boolean _ _ | .null _ => by
      rw [tally_leaf (by simp) rfl rfl, ← zero_add (Tally.entry .type _)]
      exact Tally.IsTraced.visited (Multiset.zero_le _) _
  | .callableRef span target => by
      rw [tally_callableRef]
      exact ((Tally.isTraced_entry _ _).add (Tally.isTraced_entry _ _)).visited _
  | .paren span inner => by
      rw [tally_paren]
      exact (isTraced_tally inner).visited _
  | .ifThen span condition thenBranch => by
      rw [tally_ifThen, ← add_assoc condition.tally]
      exact ((isTraced_tally condition).add (isTraced_tally thenBranch)).visited _
  | .ifElse span condition thenBranch elseBranch => by
      rw [tally_ifElse, ← add_assoc thenBranch.tally, ← add_assoc condition.tally]
      exact ((isTraced_tally condition).add
        ((isTraced_tally thenBranch).add (isTraced_tally elseBranch))).visited _
  | .member span receiver selector => by
      rw [tally_member, ← add_assoc receiver.tally]
      exact ((isTraced_tally receiver).add
        ((Tally.isTraced_entry _ _).add (Tally.isTraced_entry _ _))).visited _
  | .binary span left operator right => by
      rw [tally_binary, ← add_assoc right.tally, ← add_assoc left.tally]
      exact ((isTraced_tally left).add
        ((isTraced_tally right).add (Tally.isTraced_entry _ _))).visited _
  | .call span callee arguments => by
      cases callee with
      | name simple =>
          rw [tally_callName, ← add_assoc (tallyAll arguments)]
          exact ((isTraced_tallyAll arguments).add
            ((Tally.isTraced_entry _ _).add (Tally.isTraced_entry _ _))).visited _
      | member memberSpan receiver selector =>
          rw [tally_callMember, ← add_assoc _ _ (Tally.entry .type (call _ _ _).node.ref),
            ← add_assoc receiver.tally, ← add_assoc (tallyAll arguments)]
          exact ((isTraced_tallyAll arguments).add ((isTraced_tally receiver).add
            (((Tally.isTraced_entry _ _).add (Tally.isTraced_entry _ _)).add
              (Tally.isTraced_entry _ _)))).visited _
      | _ =>
          rw [tally_call span arguments (by simp) (by simp), ← add_assoc (tallyAll arguments)]
          exact ((isTraced_tallyAll arguments).add (isTraced_tally _)).visited _

theorem isTraced_tallyAll : (values : List Expr) → (tallyAll values).IsTraced
  | [] => Multiset.zero_le _
  | value :: rest => by
      rw [tallyAll_cons]
      exact (isTraced_tally value).add (isTraced_tallyAll rest)

end

theorem mem_visited (value : Expr) : value.node.ref ∈ value.visited := by
  rw [visited.eq_def]
  exact Multiset.mem_add.mpr (.inl (Multiset.mem_singleton_self _))

theorem isTraced_tally? (value : Option Expr) : ((value.map tally).getD 0).IsTraced := by
  cases value with
  | none => exact Multiset.zero_le _
  | some value => exact value.isTraced_tally

end Expr

namespace Statement

theorem isTraced_tally (statement : Statement) : statement.tally.IsTraced := by
  cases statement with
  | expression value => exact value.isTraced_tally
  | «variable» declared =>
      rw [tally_variable]
      have traced := (TypeRef.isTraced_tally? declared.type).add
        (Expr.isTraced_tally? declared.initializer)
      have together := add_le_add_right traced ({(Node.property declared).ref} : Multiset NodeRef)
      refine le_trans (le_of_eq ?_) (le_trans together (le_of_eq ?_))
      · simp [Tally.visit, Tally.entry]
      · simp only [Tally.visit, Tally.entry, Prod.fst_add, Pi.add_apply, Pi.zero_apply]
        change _ = 0 + (_ + (_ + 0)) + (0 + (_ + (_ + {(Node.property declared).ref})))
        abel

/-- A statement is visited, and so are all roots of inference in it. -/
theorem mem_visited (statement : Statement) :
    statement.node.ref ∈ statement.visited ∧
      ∀ root ∈ statement.node.rootsBelow, root ∈ statement.visited := by
  cases statement with
  | expression value =>
      refine ⟨value.mem_visited, fun root isRoot => ?_⟩
      rw [node, Node.rootsBelow_expression] at isRoot
      cases isRoot
  | «variable» declared =>
      refine ⟨Multiset.mem_add.mpr (.inl (Multiset.mem_singleton_self _)), fun root isRoot => ?_⟩
      rw [node, Node.rootsBelow_property] at isRoot
      obtain ⟨value, isInitializer, rfl⟩ := List.mem_map.mp isRoot
      rw [visited, Option.mem_toList.mp isInitializer]
      exact Multiset.mem_add.mpr (.inr value.mem_visited)

end Statement

namespace Member

/-- What declaring and checking a member adds to a ledger. -/
def tally (member : Member) : Tally := member.headTally + member.checkedTally

theorem fst_checkedTally (member : Member) :
    member.checkedTally.1 = Node.filledOf? member.checkedBody? := by
  cases member with
  | function declared =>
      obtain ⟨span, name, nameSpan, typeParameters, parameters, returnType, body⟩ := declared
      cases body with
      | expression value => cases returnType <;> rfl
      | block steps =>
          rw [checkedTally, Tally.fst_sum]
          cases returnType <;> exact (filled_block steps).symm
  | property declared =>
      obtain ⟨span, name, nameSpan, binding, type, initializer⟩ := declared
      cases type <;> cases initializer <;> rfl

theorem fst_tally (member : Member) : member.tally.1 = member.node.filled := by
  have opened : ((member.openBody?.map Expr.tally).getD 0).1 =
      Node.filledOf? (member.openBody?.map Node.expression) := by
    cases member.openBody? <;> rfl
  rw [tally, headTally, Prod.fst_add, Prod.fst_add, opened, fst_checkedTally, add_assoc, filled_eq]
  rfl

theorem isTraced_checkedTally (member : Member) : member.checkedTally.IsTraced := by
  cases member with
  | function declared =>
      cases body : declared.body with
      | block steps =>
          simp only [checkedTally, body]
          exact Tally.isTraced_sum fun statement _ => statement.isTraced_tally
      | expression value =>
          simp only [checkedTally, body]
          split
          · exact Expr.isTraced_tally _
          · exact Multiset.zero_le _
  | property declared =>
      simp only [checkedTally]
      split
      · exact Expr.isTraced_tally? _
      · exact Multiset.zero_le _

theorem isTraced_tally (member : Member) : member.tally.IsTraced :=
  ((Tally.isTraced_filling _).add (Expr.isTraced_tally? _)).add member.isTraced_checkedTally

/-- All roots of inference in a member are visited. -/
theorem mem_tally_of_mem_roots (member : Member) {root : NodeRef}
    (isRoot : root ∈ member.node.rootsBelow) : root ∈ member.tally.2 := by
  have split : member.tally.2 =
      0 + ((member.openBody?.map Expr.tally).getD 0).2 + member.checkedTally.2 := rfl
  rw [split, zero_add, Multiset.mem_add]
  cases member with
  | function declared =>
      obtain ⟨span, name, nameSpan, typeParameters, parameters, returnType, body⟩ := declared
      rw [node, Node.rootsBelow_function] at isRoot
      cases body with
      | expression value =>
          rw [Body.node, Node.rootsBelow_expression, List.append_nil] at isRoot
          cases List.mem_singleton.mp isRoot
          cases returnType with
          | none => exact .inl value.mem_visited
          | some type => exact .inr value.mem_visited
      | block steps =>
          rw [Body.node, Node.rootsBelow_block, Node.roots, List.nil_append,
            List.mem_append] at isRoot
          refine .inr ?_
          rcases isRoot with isStatement | inStatement
          · obtain ⟨statement, isPart, rfl⟩ := List.mem_map.mp isStatement
            exact Tally.mem_snd_sum isPart statement.mem_visited.1
          · obtain ⟨statement, isPart, inStatement⟩ := List.mem_flatMap.mp inStatement
            exact Tally.mem_snd_sum isPart (statement.mem_visited.2 root inStatement)
  | property declared =>
      obtain ⟨span, name, nameSpan, binding, type, initializer⟩ := declared
      rw [node, Node.rootsBelow_property] at isRoot
      obtain ⟨value, isInitializer, rfl⟩ := List.mem_map.mp isRoot
      cases Option.mem_toList.mp isInitializer
      cases type with
      | none => exact .inl value.mem_visited
      | some type => exact .inr value.mem_visited

end Member

namespace TopLevel

/-- What declaring and checking a declaration adds to a ledger. -/
def tally (declared : TopLevel) : Tally :=
  .filling declared.headFilled + declared.contentTally +
    (declared.members.map Member.checkedTally).sum

theorem tally_eq (declared : TopLevel) :
    declared.tally =
      .filling declared.headFilled +
        (declared.constructorParameters.map fun parameter =>
          Tally.filling (Node.constructorParameter parameter).filled).sum +
          (declared.members.map Member.tally).sum := by
  have split : (declared.members.map Member.tally).sum =
      (declared.members.map Member.headTally).sum +
        (declared.members.map Member.checkedTally).sum := by
    rw [← List.sum_map_add]
    rfl
  rw [tally, contentTally, split]
  abel

theorem fst_tally (declared : TopLevel) : declared.tally.1 = declared.node.filled := by
  have parameters : (declared.constructorParameters.map fun parameter =>
      Tally.filling (Node.constructorParameter parameter).filled).sum.1 =
        (declared.constructorParameters.map fun parameter =>
          (Node.constructorParameter parameter).filled).sum :=
    Tally.fst_sum _ _
  rw [tally_eq, Prod.fst_add, Prod.fst_add, parameters, Tally.fst_sum]
  simp only [Member.fst_tally]
  cases declared with
  | «class» declaration =>
      rw [node, filled_class, Tally.filling, headFilled, Class.headFilled, constructorParameters,
        members, add_assoc, add_right_comm]
  | member declaration =>
      simp [node, Tally.filling, headFilled, constructorParameters, members]

theorem isTraced_tally (declared : TopLevel) : declared.tally.IsTraced := by
  rw [tally_eq]
  exact ((Tally.isTraced_filling _).add (Tally.isTraced_sum fun _ _ => Tally.isTraced_filling _)).add
    (Tally.isTraced_sum fun member _ => member.isTraced_tally)

theorem mem_tally_of_mem_roots (declared : TopLevel) {root : NodeRef}
    (isRoot : root ∈ declared.node.rootsBelow) : root ∈ declared.tally.2 := by
  have inMember : ∃ member ∈ declared.members, root ∈ member.node.rootsBelow := by
    cases declared with
    | «class» declaration =>
        rw [node, Node.rootsBelow_class] at isRoot
        exact List.mem_flatMap.mp isRoot
    | member declaration => exact ⟨declaration, List.mem_singleton_self _, isRoot⟩
  obtain ⟨member, isMember, inMember⟩ := inMember
  rw [tally_eq, Prod.snd_add, Multiset.mem_add]
  exact .inr (Tally.mem_snd_sum isMember (member.mem_tally_of_mem_roots inMember))

end TopLevel

namespace File

/-- What declaring and checking a file adds to a ledger. -/
def tally (file : File) : Tally := (file.declarations.map TopLevel.tally).sum

theorem tally_eq (file : File) :
    file.tally =
      (file.declarations.map fun declared => Tally.filling declared.headFilled).sum +
        (file.declarations.map TopLevel.contentTally).sum +
          (file.members.map Member.checkedTally).sum := by
  rw [members, TopLevel.sum_map_members, ← List.sum_map_add, ← List.sum_map_add]
  rfl

/-- A slot is filled for the nodes of its kinds outside of the package line. -/
theorem fst_tally (file : File) (slot : Slot) :
    file.tally.1 slot =
      ((file.declarationNodes.filter fun node => slot.accept node.kind).map Node.ref :
        List NodeRef) := by
  rw [tally, Tally.fst_sum, Pi.list_sum_apply, List.map_map, declarationNodes,
    Node.coe_flatMap_filter, List.map_map]
  congr 1
  apply List.map_congr_left
  intro declared _
  exact congrFun declared.fst_tally slot

theorem isTraced_tally (file : File) : file.tally.IsTraced :=
  Tally.isTraced_sum fun declared _ => declared.isTraced_tally

section Placed

variable {file : File} {text : List Char} {node : Node}

/-- The roots of inference of all nodes are visited. -/
theorem mem_tally_of_mem_roots (inFile : node ∈ file.nodes) {root : NodeRef}
    (isRoot : root ∈ node.roots) : root ∈ file.tally.2 := by
  rw [nodes_eq, List.mem_append, List.mem_flatMap] at inFile
  rcases inFile with ⟨header, -, inHeader⟩ | inDeclarations
  · rw [subtree_package, List.mem_cons, List.mem_map] at inHeader
    rcases inHeader with rfl | ⟨name, -, rfl⟩ <;> cases isRoot
  · obtain ⟨top, isTop, inTop⟩ := List.mem_flatMap.mp inDeclarations
    obtain ⟨declared, isDeclared, rfl⟩ := List.mem_map.mp isTop
    exact Tally.mem_snd_sum isDeclared
      (declared.mem_tally_of_mem_roots (List.mem_flatMap.mpr ⟨node, inTop, isRoot⟩))

/-- A slot is filled for a node at most once. -/
theorem WellPlaced.nodup_filled (placed : file.WellPlaced text) (slot : Slot) :
    (file.tally.1 slot).Nodup := by
  rw [file.fst_tally slot, Multiset.coe_nodup]
  exact List.Nodup.sublist (file.sublist_nodes _) placed.nodup_refs

theorem mem_filled_iff {slot : Slot} {ref : NodeRef} :
    ref ∈ file.tally.1 slot ↔
      ∃ node ∈ file.declarationNodes, slot.accept node.kind = true ∧ node.ref = ref := by
  rw [file.fst_tally slot, Multiset.mem_coe, List.mem_map]
  simp only [List.mem_filter, and_assoc]

/-- Outside of the package line each slot of a node is filled once. -/
theorem WellPlaced.count_filled (placed : file.WellPlaced text) (inFile : node ∈ file.nodes)
    {slot : Slot} (accepted : slot.accept node.kind = true) :
    (file.tally.1 slot).count node.ref = if node.ref ∈ file.packageNames then 0 else 1 := by
  rw [Multiset.count_eq_of_nodup (placed.nodup_filled slot)]
  by_cases isName : node.ref ∈ file.packageNames
  · rw [if_pos isName, if_neg]
    intro isFilled
    obtain ⟨other, inDeclarations, -, same⟩ := mem_filled_iff.mp isFilled
    exact placed.notMem_packageNames inDeclarations (same ▸ isName)
  · have notPackage : node.kind ≠ .package := by
      intro isPackage
      rw [isPackage] at accepted
      cases slot <;> cases accepted
    rw [if_neg isName, if_pos]
    exact mem_filled_iff.mpr ⟨node, mem_declarationNodes inFile notPackage isName, accepted, rfl⟩

/-- Nothing is visited twice. -/
theorem WellPlaced.nodup_visited (placed : file.WellPlaced text) : file.tally.2.Nodup := by
  refine Multiset.nodup_of_le file.isTraced_tally
    (Multiset.nodup_add.mpr ⟨placed.nodup_filled .type, placed.nodup_filled .declaration, ?_⟩)
  rw [Multiset.disjoint_left]
  intro ref isTyped isDeclared
  obtain ⟨typed, -, isType, rfl⟩ := mem_filled_iff.mp isTyped
  obtain ⟨declared, -, isDeclaration, same⟩ := mem_filled_iff.mp isDeclared
  have kind : declared.kind = typed.kind := congrArg NodeRef.kind same
  rw [kind] at isDeclaration
  revert isType isDeclaration
  cases typed.kind <;> decide

end Placed

end File

end Tree

end Gloss
