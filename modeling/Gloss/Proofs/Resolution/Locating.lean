import Gloss.Proofs.Grammar.Laminar
import Gloss.Proofs.Resolution.Outcomes
import Gloss.Proofs.Tree.Innermost

/-!
# Nodes at positions

A question for the declaration, the reference or the expression at a position
is answered with the innermost one around it: it has all others above it.  A
position in the name of a declaration means that declaration, and the first
position of a reference means that reference.
-/

namespace Gloss

namespace Tree.File

/-- How the question for an acceptable node at a position must be answered.  The last part
asks the same question of the nodes of the file in another order. -/
structure InnermostAt (file : File) (accept : NodeKind → Bool) (position : Int)
    (answer : Option NodeRef) : Prop where
  eq_none_iff : answer = none ↔
    ∀ occurrence ∈ file.occurrences, occurrence.isAround accept position = false
  innermost : ∀ reference ∈ answer, ∃ inner ∈ file.occurrences,
    inner.ref = reference ∧ inner.isAround accept position = true ∧
      ∀ other ∈ file.occurrences, other.isAround accept position = true →
        other = inner ∨ other.IsAbove inner
  anyOrder : ∀ index : List Occurrence, index.Perm file.occurrences →
    (Occurrence.innermost? (index.filter (Occurrence.isAround accept position))).map
      Occurrence.ref = answer

variable {text : List Char} {file : File} {accept : NodeKind → Bool} {position : Int}

theorem InnermostAt.map_innermost? {answer : Option NodeRef}
    (answers : file.InnermostAt accept position answer) :
    (file.innermost? accept position).map Occurrence.ref = answer :=
  answers.anyOrder file.occurrences (List.Perm.refl _)

/-- Around some positions there is nothing acceptable. -/
theorem innermostAt_none
    (around : ∀ occurrence ∈ file.occurrences, occurrence.isAround accept position = false) :
    file.InnermostAt accept position none where
  eq_none_iff := iff_of_true rfl around
  innermost := nofun
  anyOrder index perm := by
    have none : index.filter (Occurrence.isAround accept position) = [] := by
      apply List.filter_eq_nil_iff.mpr
      intro occurrence inIndex
      rw [around occurrence (perm.mem_iff.mp inIndex)]
      exact Bool.false_ne_true
    rw [none]
    rfl

theorem innermostAt_some {inner : Occurrence} (occurs : inner ∈ file.occurrences)
    (isAround : inner.isAround accept position = true)
    (others : ∀ other ∈ file.occurrences, other.isAround accept position = true →
      other = inner ∨ other.IsAbove inner ∧ inner.node.span.size < other.node.span.size) :
    file.InnermostAt accept position (some inner.ref) where
  eq_none_iff := by
    refine iff_of_false nofun fun nowhere => ?_
    rw [nowhere inner occurs] at isAround
    cases isAround
  innermost := by
    rintro _ ⟨⟩
    refine ⟨inner, occurs, rfl, isAround, ?_⟩
    intro other otherOccurs otherAround
    exact (others other otherOccurs otherAround).imp_right And.left
  anyOrder index perm := by
    have found : Occurrence.innermost? (index.filter (Occurrence.isAround accept position)) =
        some inner := by
      apply Occurrence.innermost?_eq_some
      · exact List.mem_filter.mpr ⟨perm.mem_iff.mpr occurs, isAround⟩
      · intro other inList
        obtain ⟨inIndex, otherAround⟩ := List.mem_filter.mp inList
        exact (others other (perm.mem_iff.mp inIndex) otherAround).imp_right And.right
    rw [found]
    rfl

/-- The smallest acceptable node around a position is the innermost one. -/
theorem WellPlaced.innermostAt (placed : file.WellPlaced text) (noFile : accept .file = false)
    (position : Int) :
    file.InnermostAt accept position ((file.innermost? accept position).map Occurrence.ref) := by
  by_cases around : ∃ occurrence ∈ file.occurrences, occurrence.isAround accept position = true
  · obtain ⟨inner, occurs, isAround, others⟩ := placed.exists_innermost noFile around
    have answers := innermostAt_some occurs isAround others
    rw [answers.map_innermost?]
    exact answers
  · have answers : file.InnermostAt accept position none := by
      apply innermostAt_none
      intro occurrence occurs
      exact Bool.eq_false_iff.mpr fun isAround => around ⟨occurrence, occurs, isAround⟩
    rw [answers.map_innermost?]
    exact answers

theorem WellPlaced.nodup_map_ref_occurrences (placed : file.WellPlaced text) :
    (file.occurrences.map Occurrence.ref).Nodup := by
  have refs : file.occurrences.map Occurrence.ref =
      (file.occurrences.map Occurrence.node).map Node.ref := by
    rw [List.map_map]
    rfl
  rw [refs, map_node_occurrences, ← subtree_eq]
  exact placed.nodup_subtree

/-- No two references begin at the same offset. -/
theorem WellPlaced.nodup_reference_starts (placed : file.WellPlaced text) :
    ((file.occurrences.filter fun occurrence => occurrence.node.kind.isReference).map
      fun occurrence => occurrence.node.span.start).Nodup := by
  apply List.Nodup.map_on
  · intro first isFirst second isSecond same
    obtain ⟨firstOccurs, firstIsReference⟩ := List.mem_filter.mp isFirst
    obtain ⟨secondOccurs, secondIsReference⟩ := List.mem_filter.mp isSecond
    have meansFirst := placed.innermost?_of_reference firstOccurs firstIsReference
    have meansSecond := placed.innermost?_of_reference secondOccurs secondIsReference
    rw [same, meansSecond] at meansFirst
    exact (Option.some.inj meansFirst).symm
  · exact (List.Nodup.of_map _ placed.nodup_map_ref_occurrences).filter _

end Tree.File

namespace Resolution

variable {name : String} {text : List Char} {resolution : Resolution}

/-- At every position the declaration, the reference and the expression asked for is the
innermost one around the position. -/
theorem innermostAt_of_read (readable : read name text = .ok resolution) (position : Int) :
    resolution.file.InnermostAt NodeKind.isDeclaration position
        (resolution.declarationAt? position) ∧
      resolution.file.InnermostAt NodeKind.isReference position
        (resolution.referenceAt? position) ∧
      resolution.file.InnermostAt NodeKind.isExpression position
        (resolution.expressionAt? position) := by
  have placed := (completes_of_read readable).1
  exact ⟨placed.innermostAt rfl position, placed.innermostAt rfl position,
    placed.innermostAt rfl position⟩

/-- Four expressions and two declarations around one position. -/
theorem innermostAt_of_read_nested :
    ∃ resolution, read "sample" "class A \x7b val a = b.c(1) + 2 \x7d".toList = .ok resolution ∧
      resolution.expressionAt? 18 = some ⟨.name, ⟨18, 19⟩⟩ ∧
      resolution.declarationAt? 18 = some ⟨.property, ⟨10, 28⟩⟩ ∧
      resolution.file.InnermostAt NodeKind.isDeclaration 18 (resolution.declarationAt? 18) ∧
      resolution.file.InnermostAt NodeKind.isReference 18 (resolution.referenceAt? 18) ∧
      resolution.file.InnermostAt NodeKind.isExpression 18 (resolution.expressionAt? 18) := by
  have computed :
      (match read "sample" "class A \x7b val a = b.c(1) + 2 \x7d".toList with
        | .ok resolution => decide (resolution.expressionAt? 18 = some ⟨.name, ⟨18, 19⟩⟩ ∧
            resolution.declarationAt? 18 = some ⟨.property, ⟨10, 28⟩⟩)
        | .error _ => false) = true := by
    decide +kernel
  cases readable : read "sample" "class A \x7b val a = b.c(1) + 2 \x7d".toList with
  | error fault =>
      rw [readable] at computed
      cases computed
  | ok resolution =>
      simp only [readable, decide_eq_true_eq] at computed
      exact ⟨resolution, rfl, computed.1, computed.2, innermostAt_of_read readable 18⟩

/-- Every position in the name of a declaration means that declaration, and the name is
spelled there.  The start of a reference means that reference.  A kind and a span stand for
one node only. -/
structure Pinpoints (resolution : Resolution) (text : List Char) : Prop where
  declaration : ∀ occurrence ∈ resolution.file.occurrences,
    occurrence.node.kind.isDeclaration = true →
      ∃ declared nameSpan, occurrence.node.declaredName? = some (declared, nameSpan) ∧
        Text.slice nameSpan.start nameSpan.stop text = declared.toList ∧
        ∀ position : Int, nameSpan.contains position = true →
          resolution.declarationAt? position = some occurrence.ref
  reference : ∀ occurrence ∈ resolution.file.occurrences,
    occurrence.node.kind.isReference = true →
      resolution.referenceAt? occurrence.node.span.start = some occurrence.ref
  apart : ((resolution.file.occurrences.filter fun occurrence =>
    occurrence.node.kind.isReference).map fun occurrence => occurrence.node.span.start).Nodup
  distinct : (resolution.file.occurrences.map Occurrence.ref).Nodup

/-- The names in a file that can be read pinpoint the nodes that they belong to. -/
theorem pinpoints_of_read (readable : read name text = .ok resolution) :
    resolution.Pinpoints text := by
  have placed := (completes_of_read readable).1
  refine ⟨?_, ?_, placed.nodup_reference_starts, placed.nodup_map_ref_occurrences⟩
  · intro occurrence occurs isDeclaration
    obtain ⟨declared, nameSpan, declares⟩ := Node.declaredName?_of_isDeclaration isDeclaration
    have notFile : occurrence.node.kind ≠ .file := by
      intro isFile
      rw [isFile] at isDeclaration
      cases isDeclaration
    have tidy := (placed.of_mem_occurrences occurs notFile).tidy
    refine ⟨declared, nameSpan, declares,
      tidy.spelled declared nameSpan (Node.name?_of_declaredName? declares), ?_⟩
    intro position inName
    simp only [Span.contains, Bool.and_eq_true, decide_eq_true_eq] at inName
    obtain ⟨offset, rfl⟩ := Int.eq_ofNat_of_zero_le (Int.le_trans (Int.natCast_nonneg _) inName.1)
    have within : nameSpan.start ≤ offset ∧ offset < nameSpan.stop := by omega
    rw [declarationAt?, placed.innermost?_of_declaredName occurs declares within]
    rfl
  · intro occurrence occurs isReference
    rw [referenceAt?, placed.innermost?_of_reference occurs isReference]
    rfl

/-- Type parameters before and after the name, a bound constructor parameter, a nullable type
in a generic one, and an operator. -/
theorem pinpoints_of_read_generic :
    ∃ resolution, read "sample"
        "class A<T>(val p: A<A<T>?>)\nfun <U> f(x: (U) -> Int): Int = x(1) + 2".toList =
          .ok resolution ∧
      resolution.Pinpoints
        "class A<T>(val p: A<A<T>?>)\nfun <U> f(x: (U) -> Int): Int = x(1) + 2".toList := by
  have computed :
      (read "sample"
        "class A<T>(val p: A<A<T>?>)\nfun <U> f(x: (U) -> Int): Int = x(1) + 2".toList).isOk =
          true := by
    decide +kernel
  cases readable : read "sample"
      "class A<T>(val p: A<A<T>?>)\nfun <U> f(x: (U) -> Int): Int = x(1) + 2".toList with
  | error fault =>
      rw [readable] at computed
      cases computed
  | ok resolution => exact ⟨resolution, rfl, pinpoints_of_read readable⟩

end Resolution

end Gloss
