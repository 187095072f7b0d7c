import Gloss.Tree.Fold

/-!
# Occurrences

An occurrence is a node of a file together with the nodes above it, the
nearest first.  The occurrences of a file stand in the order of the text,
each node before the nodes below it.
-/

namespace Gloss

/-- A node with the nodes above it, the nearest first. -/
structure Occurrence where
  node : Node
  above : List Node

namespace Node

def visit (here : Node) (below : List (String × Part (List Node → List Occurrence)))
    (above : List Node) : List Occurrence :=
  ⟨here, above⟩ ::
    (below.flatMap fun part => part.2.children).flatMap fun walk => walk (here :: above)

def occurrences (node : Node) (above : List Node) : List Occurrence :=
  node.fold visit above

theorem children_map {ν μ : Type} (part : Part ν) (change : ν → μ) :
    (part.map change).children = part.children.map change := by
  cases part <;> simp [Part.map, Part.children]

/-- The occurrences from a node downwards are its own and those of the nodes
below it. -/
theorem occurrences_eq (node : Node) (above : List Node) :
    node.occurrences above =
      ⟨node, above⟩ :: node.children.flatMap fun child => child.occurrences (node :: above) := by
  unfold occurrences
  rw [fold_eq, visit]
  congr 1
  unfold children
  induction node.parts with
  | nil => rfl
  | cons part rest ih =>
      simp only [List.map_cons, List.flatMap_cons, List.flatMap_append, ih, children_map]
      congr 1
      rw [List.flatMap_map]

end Node

namespace Occurrence

def ref (occurrence : Occurrence) : NodeRef := occurrence.node.ref

def depth (occurrence : Occurrence) : Nat := occurrence.above.length

/-- The outermost expression around the node, or the node itself when it
stands in no expression. -/
def statement (occurrence : Occurrence) : Node :=
  ((occurrence.above.takeWhile fun node => node.kind.isExpression).getLast?).getD
    occurrence.node

def declaration? (occurrence : Occurrence) : Option Node :=
  occurrence.above.find? fun node => node.kind.isDeclaration

end Occurrence

namespace Tree.File

def occurrences (file : File) : List Occurrence :=
  (Node.file file).occurrences []

def occurrence? (file : File) (ref : NodeRef) : Option Occurrence :=
  file.occurrences.find? fun occurrence => occurrence.ref = ref

end Tree.File

end Gloss
