import Gloss.Tree.Occurrence
import Mathlib.Data.List.Basic

/-!
# The nodes of a tree

Without the nodes above them, the occurrences from a node downwards are the
node and the nodes of the subtrees right below it, in the order of the text.
-/

namespace Gloss

namespace Node

/-- The node and all nodes below it. -/
def subtree (node : Node) : List Node := (node.occurrences []).map Occurrence.node

theorem map_node_occurrences (node : Node) (above : List Node) :
    (node.occurrences above).map Occurrence.node = node.subtree := by
  unfold subtree
  rw [occurrences_eq, occurrences_eq node []]
  simp only [List.map_cons, List.map_flatMap]
  congr 1
  apply List.flatMap_congr
  intro child member
  have smaller := sizeOf_child_lt member
  rw [map_node_occurrences child, map_node_occurrences child]
termination_by sizeOf node

theorem subtree_eq (node : Node) :
    node.subtree = node :: node.children.flatMap subtree := by
  rw [subtree, occurrences_eq]
  simp only [List.map_cons, List.map_flatMap, map_node_occurrences]

theorem mem_subtree_iff {node inner : Node} :
    inner ∈ node.subtree ↔ inner = node ∨ ∃ child ∈ node.children, inner ∈ child.subtree := by
  rw [subtree_eq, List.mem_cons, List.mem_flatMap]

theorem mem_subtree_self (node : Node) : node ∈ node.subtree :=
  mem_subtree_iff.mpr (.inl rfl)

theorem mem_subtree_of_child {node child inner : Node} (isChild : child ∈ node.children)
    (isBelow : inner ∈ child.subtree) : inner ∈ node.subtree :=
  mem_subtree_iff.mpr (.inr ⟨child, isChild, isBelow⟩)

/-- What goes from nodes to their children goes to all nodes below them. -/
theorem forall_mem_subtree {holds : Node → Prop}
    (child : ∀ node, holds node → ∀ below ∈ node.children, holds below) (node : Node)
    (held : holds node) : ∀ below ∈ node.subtree, holds below := by
  intro below isBelow
  rcases mem_subtree_iff.mp isBelow with rfl | ⟨inner, isChild, isBelow⟩
  · exact held
  · have smaller := sizeOf_child_lt isChild
    exact forall_mem_subtree child inner (child node held inner isChild) below isBelow
termination_by sizeOf node

/-- Everything below a node of a tree is in the tree. -/
theorem subtree_subset (node : Node) {inner : Node} (isBelow : inner ∈ node.subtree) :
    inner.subtree ⊆ node.subtree := by
  rcases mem_subtree_iff.mp isBelow with rfl | ⟨child, isChild, isBelow⟩
  · exact List.Subset.refl _
  · have smaller := sizeOf_child_lt isChild
    exact fun below isBelow' => mem_subtree_of_child isChild (subtree_subset child isBelow isBelow')
termination_by sizeOf node

theorem mem_subtree_of_mem_occurrences {node : Node} {around : List Node}
    {occurrence : Occurrence} (occurs : occurrence ∈ node.occurrences around) :
    occurrence.node ∈ node.subtree := by
  rw [← map_node_occurrences node around]
  exact List.mem_map_of_mem occurs

/-- What is above a node is above everything in it. -/
theorem suffix_of_mem_occurrences {occurrence : Occurrence} (node : Node) (above : List Node)
    (occurs : occurrence ∈ node.occurrences above) : above <:+ occurrence.above := by
  rw [occurrences_eq] at occurs
  rcases List.mem_cons.mp occurs with rfl | isBelow
  · exact List.suffix_rfl
  · obtain ⟨child, isChild, occursBelow⟩ := List.mem_flatMap.mp isBelow
    have smaller := sizeOf_child_lt isChild
    exact (List.suffix_cons node above).trans (suffix_of_mem_occurrences child _ occursBelow)
termination_by sizeOf node

/-! ### Occurrences from a node downwards -/

section Occurrences

variable {node child : Node} {above around outer : List Node} {occurrence : Occurrence}

theorem mem_occurrences_self (node : Node) (above : List Node) :
    ⟨node, above⟩ ∈ node.occurrences above := by
  rw [occurrences_eq]
  exact List.mem_cons_self

theorem mem_occurrences_of_child (isChild : child ∈ node.children)
    (occurs : occurrence ∈ child.occurrences (node :: above)) :
    occurrence ∈ node.occurrences above := by
  rw [occurrences_eq]
  exact List.mem_cons_of_mem _ (List.mem_flatMap.mpr ⟨child, isChild, occurs⟩)

theorem mem_occurrences_trans (root : Node) (above : List Node)
    (occurs : ⟨node, around⟩ ∈ root.occurrences above)
    (inner : occurrence ∈ node.occurrences around) : occurrence ∈ root.occurrences above := by
  have known := occurs
  rw [occurrences_eq] at known
  rcases List.mem_cons.mp known with same | isBelow
  · cases same
    exact inner
  · obtain ⟨child, isChild, occursBelow⟩ := List.mem_flatMap.mp isBelow
    have smaller := sizeOf_child_lt isChild
    exact mem_occurrences_of_child isChild (mem_occurrences_trans child _ occursBelow inner)
termination_by sizeOf root

/-- A node above an occurrence occurs with those nodes above it that follow it in the list. -/
theorem mem_occurrences_of_suffix (root : Node) (above : List Node)
    (occurs : occurrence ∈ root.occurrences above) (suffix : node :: outer <:+ occurrence.above)
    (inside : above.length ≤ outer.length) :
    ⟨node, outer⟩ ∈ root.occurrences above ∧ occurrence ∈ node.occurrences outer := by
  have known := occurs
  rw [occurrences_eq] at known
  rcases List.mem_cons.mp known with rfl | isBelow
  · have := suffix.length_le
    simp only [List.length_cons] at this
    omega
  · obtain ⟨child, isChild, occursBelow⟩ := List.mem_flatMap.mp isBelow
    have smaller := sizeOf_child_lt isChild
    have rootSuffix := suffix_of_mem_occurrences child _ occursBelow
    rcases Nat.eq_or_lt_of_le inside with same | further
    · have sameNodes : node :: outer = root :: above :=
        (List.suffix_of_suffix_length_le suffix rootSuffix (by simp [same])).eq_of_length
          (by simp [same])
      cases sameNodes
      exact ⟨mem_occurrences_self _ _, occurs⟩
    · obtain ⟨nodeOccurs, isInside⟩ := mem_occurrences_of_suffix child _ occursBelow suffix further
      exact ⟨mem_occurrences_of_child isChild nodeOccurs, isInside⟩
termination_by sizeOf root

end Occurrences

end Node

namespace Tree.File

/-- All nodes of a file below the file itself. -/
def nodes (file : File) : List Node := (Node.file file).children.flatMap Node.subtree

theorem map_node_occurrences (file : File) :
    file.occurrences.map Occurrence.node = .file file :: file.nodes := by
  rw [occurrences, Node.map_node_occurrences, Node.subtree_eq, nodes]

end Tree.File

end Gloss
