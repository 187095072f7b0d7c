import Gloss.Proofs.Grammar.Placement.Files
import Gloss.Proofs.Tree.Files
import Gloss.Proofs.Tree.Innermost

/-!
# Tight laminar spans

The spans of a tree that was read from a text form a laminar family: of any two
nodes one lies in the other or they stand apart.  Below the file no node begins
or ends with white space, and none fills the node that it is part of.
-/

namespace Gloss

namespace Span

/-- The first span lies in the second one. -/
def Inside (inner outer : Span) : Prop :=
  outer.start ≤ inner.start ∧ inner.stop ≤ outer.stop

/-- The first span ends where the second one begins or earlier. -/
def Before (earlier later : Span) : Prop := earlier.stop ≤ later.start

end Span

namespace Node

theorem eq_file_of_kind {node : Node} (kind : node.kind = .file) :
    ∃ source, node = .file source := by
  cases node with
  | file source => exact ⟨source, rfl⟩
  | type written => cases written <;> cases kind
  | expression value => cases value <;> cases kind
  | _ => cases kind

/-- No file is part of another node. -/
theorem file_notMem_children (source : Tree.File) (node : Node) : file source ∉ node.children := by
  have statement (step : Tree.Statement) : step.node ≠ file source := by cases step <;> exact nofun
  have body (body : Tree.Body) : body.node ≠ file source := by cases body <;> exact nofun
  have member (declared : Tree.Member) : declared.node ≠ file source := by
    cases declared <;> exact nofun
  have topLevel (declared : Tree.TopLevel) : declared.node ≠ file source := by
    cases declared with
    | «class» => exact nofun
    | member declared => exact member declared
  have children : node.children = node.parts.flatMap fun part => part.2.children := rfl
  rw [children]
  cases node with
  | type written =>
      cases written <;> simp [parts, typeParts, Part.children]
  | expression value =>
      cases value <;>
        simp [parts, expressionParts, Part.children, Tree.Expr.node, Tree.SimpleName.node]
  | file source =>
      cases package : source.package <;>
        simp [parts, Part.children, Part.optional, package, topLevel]
  | constructorParameter parameter =>
      cases binding : parameter.binding <;> simp [parts, Part.children, binding]
  | property declared =>
      cases type : declared.type <;> cases initializer : declared.initializer <;>
        simp [parts, Part.children, Part.optional, type, initializer]
  | function declared =>
      cases type : declared.returnType <;>
        simp [parts, Part.children, Part.optional, type, (body declared.body).symm]
  | _ => simp [parts, Part.children, Tree.SimpleName.node, statement, member]

theorem kind_ne_file_of_mem_subtree {node inner : Node} (notFile : node.kind ≠ .file)
    (member : inner ∈ node.subtree) : inner.kind ≠ .file := by
  rcases mem_subtree_iff.mp member with rfl | ⟨child, isChild, inChild⟩
  · exact notFile
  · have smaller := sizeOf_child_lt isChild
    refine kind_ne_file_of_mem_subtree (fun isFile => ?_) inChild
    obtain ⟨source, rfl⟩ := eq_file_of_kind isFile
    exact file_notMem_children source node isChild
termination_by sizeOf node

end Node

namespace Tree.File

/-- What the spans of a tree have in common with brackets in its text. -/
structure Laminar (text : List Char) (file : File) : Prop where
  inText : ∀ node ∈ (Node.file file).subtree,
    node.span.start ≤ node.span.stop ∧ node.span.stop ≤ text.length
  firm : ∀ node ∈ file.nodes, node.span.start < node.span.stop ∧
    (∃ first, text[node.span.start]? = some first ∧ Text.isBlank first = false) ∧
    ∃ last, text[node.span.stop - 1]? = some last ∧ Text.isBlank last = false
  inside : ∀ parent ∈ (Node.file file).subtree, ∀ child ∈ parent.children,
    child.span.Inside parent.span ∧
      (parent.kind ≠ .file → child.span.size < parent.span.size)
  ordered : ∀ parent ∈ (Node.file file).subtree,
    (parent.children.map Node.span).Pairwise Span.Before
  nested : (Node.file file).subtree.Pairwise fun first second =>
    second.span.Inside first.span ∨ first.span.Before second.span
  distinct : ((Node.file file).subtree.map Node.ref).Nodup

variable {text : List Char} {file : File}

theorem subtree_eq (file : File) : (Node.file file).subtree = .file file :: file.nodes :=
  Node.subtree_eq _

theorem kind_ne_file_of_mem_nodes {node : Node} (inFile : node ∈ file.nodes) :
    node.kind ≠ .file := by
  obtain ⟨child, isChild, inChild⟩ := List.mem_flatMap.mp inFile
  refine Node.kind_ne_file_of_mem_subtree (fun isFile => ?_) inChild
  obtain ⟨source, rfl⟩ := Node.eq_file_of_kind isFile
  exact Node.file_notMem_children source _ isChild

theorem forall_mem_subtree {holds : Node → Prop} (root : holds (.file file))
    (below : ∀ node ∈ file.nodes, holds node) : ∀ node ∈ (Node.file file).subtree, holds node := by
  rw [subtree_eq]
  exact List.forall_mem_cons.mpr ⟨root, below⟩

namespace WellPlaced

variable (placed : file.WellPlaced text)

include placed

theorem span_root : (Node.file file).span = ⟨0, text.length⟩ := placed.span

theorem nested :
    (Node.file file).subtree.Pairwise fun first second =>
      second.span.Inside first.span ∨ first.span.Before second.span := by
  rw [subtree_eq]
  refine .cons ?_ (placed.pairwise_nodes.imp ?_)
  · intro node inFile
    left
    rw [placed.span_root]
    exact ⟨Nat.zero_le _, (placed.of_mem_nodes inFile).tidy.tight.stop_le_length⟩
  · intro first second precedes
    exact precedes.imp_left fun holds => ⟨holds.start_le, holds.stop_le⟩

theorem nodup_subtree : ((Node.file file).subtree.map Node.ref).Nodup := by
  rw [subtree_eq, List.map_cons]
  refine List.nodup_cons.mpr ⟨?_, placed.nodup_refs⟩
  intro isBelow
  obtain ⟨node, inFile, same⟩ := List.mem_map.mp isBelow
  exact kind_ne_file_of_mem_nodes inFile (congrArg NodeRef.kind same)

theorem laminar : file.Laminar text where
  inText := by
    apply forall_mem_subtree
    · rw [placed.span_root]
      exact ⟨Nat.zero_le _, Nat.le_refl _⟩
    · intro node inFile
      have tight := (placed.of_mem_nodes inFile).tidy.tight
      exact ⟨Nat.le_of_lt tight.start_lt_stop, tight.stop_le_length⟩
  firm node inFile := by
    have tight := (placed.of_mem_nodes inFile).tidy.tight
    exact ⟨tight.start_lt_stop, tight.first.2, tight.last.2⟩
  inside := by
    apply forall_mem_subtree
    · intro child isChild
      have inText := placed.spread.of_mem (List.mem_map_of_mem isChild)
      rw [placed.span_root]
      exact ⟨⟨inText.1, inText.2.2⟩, fun notFile => absurd rfl notFile⟩
    · intro parent inFile child isChild
      have parentPlaced := placed.of_mem_nodes inFile
      have holds := parentPlaced.tidy.holds_child isChild
      have nonempty := (parentPlaced.child isChild).tidy.tight.start_lt_stop
      exact ⟨⟨holds.start_le, holds.stop_le⟩, fun _ => holds.size_lt nonempty⟩
  ordered := by
    apply forall_mem_subtree
    · exact placed.spread.pairwise
    · intro parent inFile
      exact (placed.of_mem_nodes inFile).tidy.spread_children.pairwise
  nested := placed.nested
  distinct := placed.nodup_subtree

end WellPlaced

end Tree.File

namespace Grammar

/-- The spans of a tree that was read from a text are laminar. -/
theorem laminar_of_read {name : String} {text : List Char} {file : Tree.File}
    (readable : read name text = .ok file) : file.Laminar text :=
  (wellPlaced_of_read readable).laminar

/-- Chains of operators and suffixes and a type with a question mark behind a
package line. -/
theorem laminar_of_read_chains :
    ∃ file, read "sample" "package p\n\nval a: Int? = b.c(1)(2) + d + 3 \n".toList = .ok file ∧
      file.Laminar "package p\n\nval a: Int? = b.c(1)(2) + d + 3 \n".toList := by
  have computed :
      (read "sample" "package p\n\nval a: Int? = b.c(1)(2) + d + 3 \n".toList).isOk = true := by
    decide +kernel
  cases readable : read "sample" "package p\n\nval a: Int? = b.c(1)(2) + d + 3 \n".toList with
  | error fault =>
      rw [readable] at computed
      cases computed
  | ok file => exact ⟨file, rfl, laminar_of_read readable⟩

end Grammar

end Gloss
