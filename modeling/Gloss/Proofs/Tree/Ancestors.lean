import Gloss.Proofs.Tree.Innermost

/-!
# Nodes above a node

The nodes above a node hold it.  If all acceptable nodes around the start of a
node are above it, the nearest of these is the one that this position means.
The outermost of the expressions right above an expression is the largest of all
expressions around its start.
-/

namespace Gloss

namespace Node

variable {node child : Node} {inner : Occurrence}

theorem children_of_child_of_expression (isExpression : node.kind.isExpression = true)
    (isChild : child ∈ node.children) : child.kind.isExpression = true ∨ child.children = [] := by
  have expression (value : Tree.Expr) : value.node.kind.isExpression = true := by
    cases value <;> rfl
  cases node with
  | expression value =>
      cases value with
      | name | integer | text | boolean | null => cases isChild
      | callableRef _ target => exact .inl (List.mem_singleton.mp isChild ▸ rfl)
      | paren _ inner => exact .inl (List.mem_singleton.mp isChild ▸ expression inner)
      | ifThen _ condition thenBranch =>
          left
          simp [children, parts, expressionParts, Part.children] at isChild
          rcases isChild with rfl | rfl <;> exact expression _
      | ifElse _ condition thenBranch elseBranch =>
          left
          simp [children, parts, expressionParts, Part.children] at isChild
          rcases isChild with rfl | rfl | rfl <;> exact expression _
      | call _ callee arguments =>
          left
          simp [children, parts, expressionParts, Part.children] at isChild
          rcases isChild with rfl | ⟨argument, -, rfl⟩ <;> exact expression _
      | member _ receiver selector =>
          left
          simp [children, parts, expressionParts, Part.children] at isChild
          rcases isChild with rfl | rfl
          · exact expression receiver
          · rfl
      | binary _ left use right =>
          simp [children, parts, expressionParts, Part.children] at isChild
          rcases isChild with rfl | rfl | rfl
          · exact .inl (expression left)
          · exact .inr rfl
          · exact .inl (expression right)
  | type written => cases written <;> cases isExpression
  | _ => cases isExpression

/-- Between an expression and what is below it stand expressions only. -/
theorem exists_between (node : Node) (above : List Node)
    (isExpression : node.kind.isExpression = true) (occurs : inner ∈ node.occurrences above) :
    inner = ⟨node, above⟩ ∨
      ∃ between, inner.above = between ++ node :: above ∧
        ∀ part ∈ between, part.kind.isExpression = true := by
  rw [occurrences_eq] at occurs
  refine (List.mem_cons.mp occurs).imp_right fun isBelow => ?_
  obtain ⟨child, isChild, occursBelow⟩ := List.mem_flatMap.mp isBelow
  have smaller := sizeOf_child_lt isChild
  rcases children_of_child_of_expression isExpression isChild with childIsExpression | leaf
  · rcases exists_between child _ childIsExpression occursBelow with
      rfl | ⟨between, aboveEq, expressions⟩
    · exact ⟨[], rfl, nofun⟩
    · refine ⟨between ++ [child], by simpa using aboveEq, ?_⟩
      exact List.forall_mem_append.mpr ⟨expressions, List.forall_mem_singleton.mpr childIsExpression⟩
  · rw [occurrences_eq, leaf] at occursBelow
    cases List.mem_singleton.mp occursBelow
    exact ⟨[], rfl, nofun⟩
termination_by sizeOf node

end Node

namespace Occurrence

variable {file : Tree.File} {outer inner : Occurrence}

theorem IsAbove.length_lt (isAbove : outer.IsAbove inner) :
    outer.above.length < inner.above.length := by
  have length := isAbove.length_le
  rw [List.length_cons] at length
  exact length

theorem IsAbove.mem_above (isAbove : outer.IsAbove inner) : outer.node ∈ inner.above :=
  isAbove.subset List.mem_cons_self

/-- An occurrence above another one occurs itself, and the other one right below it or
farther down. -/
theorem IsAbove.occurs (isAbove : outer.IsAbove inner) (innerOccurs : inner ∈ file.occurrences) :
    outer ∈ file.occurrences ∧ inner ∈ outer.node.occurrences outer.above :=
  Node.mem_occurrences_of_suffix _ _ innerOccurs isAbove (Nat.zero_le _)

theorem IsAbove.exists_child (isAbove : outer.IsAbove inner)
    (innerOccurs : inner ∈ file.occurrences) :
    ∃ child ∈ outer.node.children, inner.node ∈ child.subtree := by
  have isInside := (isAbove.occurs innerOccurs).2
  rw [Node.occurrences_eq] at isInside
  rcases List.mem_cons.mp isInside with rfl | isBelow
  · exact absurd isAbove.length_lt (Nat.lt_irrefl _)
  · obtain ⟨child, isChild, inChild⟩ := List.mem_flatMap.mp isBelow
    exact ⟨child, isChild, Node.mem_subtree_of_mem_occurrences inChild⟩

/-- Right above what is below an expression stands an expression. -/
theorem IsAbove.exists_expression (isAbove : outer.IsAbove inner)
    (isExpression : outer.node.kind.isExpression = true) (innerOccurs : inner ∈ file.occurrences) :
    ∃ node ∈ inner.above.head?, node.kind.isExpression = true := by
  rcases Node.exists_between _ _ isExpression (isAbove.occurs innerOccurs).2 with
    rfl | ⟨between, aboveEq, expressions⟩
  · exact absurd isAbove.length_lt (Nat.lt_irrefl _)
  · cases between with
    | nil => exact ⟨outer.node, by rw [aboveEq]; rfl, isExpression⟩
    | cons nearest between =>
        exact ⟨nearest, by rw [aboveEq]; rfl, expressions nearest List.mem_cons_self⟩

/-- The statement of an expression is the expression itself or one above it, with no
expression right above. -/
theorem exists_statement (occurs : inner ∈ file.occurrences)
    (isExpression : inner.node.kind.isExpression = true) :
    ∃ outer ∈ file.occurrences, outer.node = inner.statement ∧
      outer.node.kind.isExpression = true ∧ (outer = inner ∨ outer.IsAbove inner) ∧
      ∀ node ∈ outer.above.head?, node.kind.isExpression = false := by
  have whole := List.takeWhile_append_dropWhile
    (p := fun node : Node => node.kind.isExpression) (l := inner.above)
  have expressions := List.all_takeWhile
    (p := fun node : Node => node.kind.isExpression) (l := inner.above)
  have farther := List.head?_dropWhile_not
    (fun node : Node => node.kind.isExpression) inner.above
  have statement : inner.statement = ((inner.above.takeWhile fun node =>
    node.kind.isExpression).getLast?).getD inner.node := rfl
  generalize (inner.above.takeWhile fun node => node.kind.isExpression) = chain at *
  generalize (inner.above.dropWhile fun node => node.kind.isExpression) = rest at *
  have noExpression : ∀ node ∈ rest.head?, node.kind.isExpression = false := by
    intro node isFirst
    rw [Option.mem_def] at isFirst
    simpa [isFirst] using farther
  rcases List.eq_nil_or_concat chain with rfl | ⟨nearer, last, rfl⟩
  · refine ⟨inner, occurs, statement.symm, isExpression, .inl rfl, ?_⟩
    rw [← whole]
    exact noExpression
  · have isAbove : IsAbove ⟨last, rest⟩ inner := ⟨nearer, by rw [← whole]; simp⟩
    have lastIsExpression : last.kind.isExpression = true :=
      List.all_eq_true.mp expressions last (by simp)
    refine ⟨⟨last, rest⟩, (isAbove.occurs occurs).1, ?_, lastIsExpression, .inr isAbove,
      noExpression⟩
    rw [statement, List.concat_eq_append, List.getLast?_concat]
    rfl

/-- The nearest of the acceptable nodes above has all others above it. -/
theorem IsAbove.eq_or_isAbove_of_find? {accept : Node → Bool} {nearer above : List Node} {node : Node}
    (isAbove : outer.IsAbove inner) (accepted : accept outer.node = true)
    (aboveEq : inner.above = nearer ++ node :: above) (refused : ∀ part ∈ nearer, !accept part) :
    outer = ⟨node, above⟩ ∨ outer.IsAbove ⟨node, above⟩ := by
  have nearest : node :: above <:+ inner.above := ⟨nearer, aboveEq.symm⟩
  have same (equal : outer.node :: outer.above = node :: above) : outer = ⟨node, above⟩ := by
    cases outer
    cases equal
    rfl
  rcases List.suffix_or_suffix_of_suffix isAbove nearest with farther | closer
  · exact (List.suffix_cons_iff.mp farther).imp_left same
  · rcases List.suffix_cons_iff.mp closer with equal | ⟨between, closerEq⟩
    · exact .inl (same equal.symm)
    · obtain ⟨before, outerEq⟩ := isAbove
      have nearerEq : nearer = before ++ outer.node :: between := by
        apply List.append_cancel_right
        rw [← aboveEq, ← outerEq, ← closerEq, List.append_assoc, List.cons_append]
      have isNearer : outer.node ∈ nearer := by simp [nearerEq]
      have notAccepted := refused _ isNearer
      rw [accepted] at notAccepted
      cases notAccepted

end Occurrence

namespace Tree.File

variable {text : List Char} {file : File} {occurrence outer : Occurrence}
  {accept : NodeKind → Bool}

/-- A node above an occurrence holds it. -/
theorem WellPlaced.holds_of_isAbove (placed : file.WellPlaced text)
    (occurs : occurrence ∈ file.occurrences) (isAbove : outer.IsAbove occurrence)
    (notFile : outer.node.kind ≠ .file) :
    outer.node.Holds occurrence.node ∧
      occurrence.node.span.start < occurrence.node.span.stop := by
  have outerPlaced := placed.of_mem_occurrences (isAbove.occurs occurs).1 notFile
  obtain ⟨child, isChild, inChild⟩ := isAbove.exists_child occurs
  obtain ⟨start_le, stop_le, innerPlaced⟩ :=
    (outerPlaced.child isChild).of_mem_subtree inChild
  exact ⟨(outerPlaced.tidy.holds_child isChild).of_inside start_le stop_le,
    innerPlaced.tidy.tight.start_lt_stop⟩

theorem WellPlaced.isAround_self (placed : file.WellPlaced text)
    (noFile : accept .file = false) (occurs : occurrence ∈ file.occurrences)
    (accepted : accept occurrence.node.kind = true) :
    occurrence.isAround accept occurrence.node.span.start = true := by
  have notFile := NodeKind.ne_file_of_accept accepted noFile
  have nonempty := (placed.of_mem_occurrences occurs notFile).tidy.tight.start_lt_stop
  simp only [Occurrence.isAround_iff, accepted, Span.contains, Bool.and_eq_true,
    decide_eq_true_eq, true_and]
  omega

/-- A node above an occurrence is around the start of it. -/
theorem WellPlaced.isAround_of_isAbove (placed : file.WellPlaced text)
    (noFile : accept .file = false) (occurs : occurrence ∈ file.occurrences)
    (isAbove : outer.IsAbove occurrence) (accepted : accept outer.node.kind = true) :
    outer.isAround accept occurrence.node.span.start = true := by
  obtain ⟨holds, nonempty⟩ :=
    placed.holds_of_isAbove occurs isAbove (NodeKind.ne_file_of_accept accepted noFile)
  have start_le := holds.start_le
  have stop_le := holds.stop_le
  simp only [Occurrence.isAround_iff, accepted, Span.contains, Bool.and_eq_true,
    decide_eq_true_eq, true_and]
  omega

/-- The nearest acceptable node above a node is the one that the start of the node means,
if all acceptable nodes there are above it. -/
theorem WellPlaced.map_innermost?_of_isAbove (placed : file.WellPlaced text)
    (noFile : accept .file = false) (occurs : occurrence ∈ file.occurrences)
    (allAbove : ∀ other ∈ file.occurrences,
      other.isAround accept occurrence.node.span.start = true → other.IsAbove occurrence) :
    (file.innermost? accept occurrence.node.span.start).map Occurrence.node =
      occurrence.above.find? fun node => accept node.kind := by
  have search : file.innermost? accept occurrence.node.span.start =
      Occurrence.innermost? (file.occurrences.filter
        (Occurrence.isAround accept occurrence.node.span.start)) := rfl
  rw [search]
  cases found : occurrence.above.find? fun node => accept node.kind with
  | none =>
      have nothing : file.occurrences.filter
          (Occurrence.isAround accept occurrence.node.span.start) = [] := by
        rw [List.filter_eq_nil_iff]
        intro other otherOccurs isAround
        have isAbove := (allAbove other otherOccurs isAround).mem_above
        exact List.find?_eq_none.mp found _ isAbove (Occurrence.isAround_iff.mp isAround).1
      rw [nothing]
      rfl
  | some node =>
      obtain ⟨accepted, nearer, outer, aboveEq, refused⟩ := List.find?_eq_some_iff_append.mp found
      have nearest : Occurrence.IsAbove ⟨node, outer⟩ occurrence := ⟨nearer, aboveEq.symm⟩
      have isAround := placed.isAround_of_isAbove noFile occurs nearest accepted
      have innermost : Occurrence.innermost? (file.occurrences.filter
          (Occurrence.isAround accept occurrence.node.span.start)) = some ⟨node, outer⟩ := by
        apply Occurrence.innermost?_eq_some
        · exact List.mem_filter.mpr ⟨(nearest.occurs occurs).1, isAround⟩
        · intro other inList
          obtain ⟨otherOccurs, otherAround⟩ := List.mem_filter.mp inList
          have isAbove := allAbove other otherOccurs otherAround
          have otherAccepted := (Occurrence.isAround_iff.mp otherAround).1
          refine (isAbove.eq_or_isAbove_of_find? otherAccepted aboveEq refused).imp_right ?_
          intro farther
          obtain ⟨holds, nonempty⟩ := placed.holds_of_isAbove (nearest.occurs occurs).1 farther
            (NodeKind.ne_file_of_accept otherAccepted noFile)
          exact holds.size_lt nonempty
      rw [innermost]
      rfl

/-- The statement of an expression is the largest expression around its start. -/
theorem WellPlaced.exists_largest (placed : file.WellPlaced text)
    (occurs : occurrence ∈ file.occurrences)
    (isExpression : occurrence.node.kind.isExpression = true) :
    ∃ outer ∈ file.occurrences, outer.node = occurrence.statement ∧
      outer.isAround NodeKind.isExpression occurrence.node.span.start = true ∧
      ∀ other ∈ file.occurrences,
        other.isAround NodeKind.isExpression occurrence.node.span.start = true →
          other = outer ∨ other.node.span.size < outer.node.span.size := by
  obtain ⟨outer, outerOccurs, isStatement, outerIsExpression, holds, outermost⟩ :=
    Occurrence.exists_statement occurs isExpression
  have isAround : outer.isAround NodeKind.isExpression occurrence.node.span.start = true := by
    rcases holds with rfl | isAbove
    · exact placed.isAround_self rfl occurs isExpression
    · exact placed.isAround_of_isAbove rfl occurs isAbove outerIsExpression
  refine ⟨outer, outerOccurs, isStatement, isAround, ?_⟩
  intro other otherOccurs otherAround
  have related := Occurrence.eq_or_related (placed.pairwise_around rfl)
    (List.mem_filter.mpr ⟨otherOccurs, otherAround⟩) (List.mem_filter.mpr ⟨outerOccurs, isAround⟩)
  rcases related with same | ⟨isAbove, -⟩ | ⟨-, smaller⟩
  · exact .inl same
  · -- Nothing stands between the other expression and the outermost one.
    obtain ⟨node, isRightAbove, nodeIsExpression⟩ :=
      isAbove.exists_expression (Occurrence.isAround_iff.mp otherAround).1 outerOccurs
    rw [outermost node isRightAbove] at nodeIsExpression
    cases nodeIsExpression
  · exact .inr smaller

end Tree.File

end Gloss
