import Gloss.Proofs.Tree.Placement
import Gloss.Tree.Context
import Mathlib.Data.List.Pairwise

/-!
# The node that a position means

A position in the name of a node means that node: of the nodes around the
position it is the smallest, because the nodes below it stand clear of its
name.
-/

namespace Gloss

/-- Only nodes of other kinds are acceptable where files are not. -/
theorem NodeKind.ne_file_of_accept {accept : NodeKind → Bool} {kind : NodeKind}
    (accepted : accept kind = true) (noFile : accept .file = false) : kind ≠ .file := by
  rintro rfl
  rw [noFile] at accepted
  cases accepted

namespace Occurrence

variable {occurrence : Occurrence} {list : List Occurrence}

theorem isInner_of_size_lt {outer : Occurrence}
    (smaller : occurrence.node.span.size < outer.node.span.size) :
    occurrence.isInner outer = true := by
  simp [isInner, smaller]

theorem isInner_eq_false {other : Occurrence}
    (least : other = occurrence ∨ occurrence.node.span.size < other.node.span.size) :
    other.isInner occurrence = false := by
  rcases least with rfl | larger
  · simp [isInner]
  · have notSmaller : ¬ other.node.span.size < occurrence.node.span.size := by omega
    have different : other.node.span.size ≠ occurrence.node.span.size := by omega
    simp [isInner, notSmaller, different]

/-- Once the smallest occurrence is the best one it stays so. -/
theorem foldl_isInner {best : Occurrence} (member : occurrence = best ∨ occurrence ∈ list)
    (bestLeast : best = occurrence ∨ occurrence.node.span.size < best.node.span.size)
    (least : ∀ other ∈ list,
      other = occurrence ∨ occurrence.node.span.size < other.node.span.size) :
    list.foldl (fun best next => if next.isInner best then next else best) best = occurrence := by
  induction list generalizing best with
  | nil => exact (member.resolve_right List.not_mem_nil).symm
  | cons next rest ih =>
      obtain ⟨nextLeast, restLeast⟩ := List.forall_mem_cons.mp least
      rw [List.foldl_cons]
      by_cases isBest : best = occurrence
      · subst isBest
        rw [isInner_eq_false nextLeast]
        exact ih (.inl rfl) (.inl rfl) restLeast
      · have larger := bestLeast.resolve_left isBest
        rcases nextLeast with rfl | nextLarger
        · rw [isInner_of_size_lt larger]
          exact ih (.inl rfl) (.inl rfl) restLeast
        · have inRest : occurrence ∈ rest := by
            rcases member with rfl | inList
            · exact absurd rfl isBest
            · refine (List.mem_cons.mp inList).resolve_left ?_
              intro same
              subst same
              omega
          apply ih (.inr inRest) _ restLeast
          split
          · exact .inr nextLarger
          · exact .inr larger

theorem innermost?_eq_some (member : occurrence ∈ list)
    (least : ∀ other ∈ list,
      other = occurrence ∨ occurrence.node.span.size < other.node.span.size) :
    innermost? list = some occurrence := by
  cases list with
  | nil => exact absurd member List.not_mem_nil
  | cons first rest =>
      obtain ⟨firstLeast, restLeast⟩ := List.forall_mem_cons.mp least
      rw [innermost?, foldl_isInner (List.mem_cons.mp member) firstLeast restLeast]

theorem mem_of_innermost? (innermost : innermost? list = some occurrence) :
    occurrence ∈ list := by
  have kept (best : Occurrence) (others : List Occurrence) :
      others.foldl (fun best next => if next.isInner best then next else best) best ∈
        best :: others := by
    induction others generalizing best with
    | nil => exact List.mem_singleton_self best
    | cons next rest ih =>
        rw [List.foldl_cons]
        split
        · exact List.mem_cons_of_mem best (ih next)
        · exact (List.mem_cons.mp (ih best)).elim (fun same => List.mem_cons.mpr (.inl same))
            fun inRest => List.mem_cons_of_mem _ (List.mem_cons_of_mem _ inRest)
  cases list with
  | nil => cases innermost
  | cons first rest =>
      cases innermost
      exact kept first rest

/-- Of two members of an ordered list one comes first. -/
theorem eq_or_related {related : Occurrence → Occurrence → Prop} {list : List Occurrence}
    (ordered : list.Pairwise related) {first second : Occurrence} (firstIn : first ∈ list)
    (secondIn : second ∈ list) :
    first = second ∨ related first second ∨ related second first := by
  obtain ⟨index, inRange, rfl⟩ := List.getElem_of_mem firstIn
  obtain ⟨other, otherInRange, rfl⟩ := List.getElem_of_mem secondIn
  rw [List.pairwise_iff_getElem] at ordered
  rcases Nat.lt_trichotomy index other with earlier | rfl | later
  · exact .inr (.inl (ordered index other inRange otherInRange earlier))
  · exact .inl rfl
  · exact .inr (.inr (ordered other index otherInRange inRange later))

end Occurrence

namespace Node

variable {text : List Char} {node inner : Node} {nameSpan : Span} {position : Nat}

theorem Tidy.name_inside (tidy : Tidy text node) (isName : nameSpan ∈ node.nameSpans) :
    node.span.start ≤ nameSpan.start ∧ nameSpan.start < nameSpan.stop ∧
      nameSpan.stop ≤ node.span.stop := by
  obtain ⟨before, after, -, spread⟩ := tidy.spread
  apply spread.of_mem
  exact List.mem_append_left _ (List.mem_append_right _ isName)

theorem Holds.size_lt (holds : node.Holds inner) (nonempty : inner.span.start < inner.span.stop) :
    inner.span.size < node.span.size := by
  have start_le := holds.start_le
  have stop_le := holds.stop_le
  simp only [Span.size]
  by_contra notSmaller
  apply holds.smaller
  have sameStart : inner.span.start = node.span.start := by omega
  have sameStop : inner.span.stop = node.span.stop := by omega
  cases innerSpan : inner.span
  cases nodeSpan : node.span
  simp_all

theorem exists_name_of_isReference (isReference : node.kind.isReference = true) :
    ∃ name nameSpan, node.name? = some (name, nameSpan) := by
  cases node with
  | type written => cases written <;> first | exact ⟨_, _, rfl⟩ | cases isReference
  | expression value => cases value <;> first | exact ⟨_, _, rfl⟩ | cases isReference
  | operator use => exact ⟨_, _, rfl⟩
  | _ => cases isReference

theorem declaredName?_of_isDeclaration {node : Node} (isDeclaration : node.kind.isDeclaration = true) :
    ∃ name nameSpan, node.declaredName? = some (name, nameSpan) := by
  cases node with
  | type written => cases written <;> cases isDeclaration
  | expression value => cases value <;> cases isDeclaration
  | typeParameter | constructorParameter | valueParameter | property | function | «class» =>
      exact ⟨_, _, rfl⟩
  | _ => cases isDeclaration

theorem isDeclaration_of_declaredName? {node : Node} {name : String × Span}
    (declares : node.declaredName? = some name) :
    node.kind.isDeclaration = true ∧ name.2 ∈ node.nameSpans := by
  cases node with
  | typeParameter | constructorParameter | valueParameter | property | function | «class» =>
      cases declares
      exact ⟨rfl, List.mem_singleton_self _⟩
  | _ => cases declares

theorem name?_of_declaredName? {node : Node} {name : String × Span}
    (declares : node.declaredName? = some name) : node.name? = some name := by
  cases node with
  | typeParameter | constructorParameter | valueParameter | property | function | «class» =>
      exact declares
  | _ => cases declares

end Node

namespace Tree.File

variable {text : List Char} {file : File} {occurrence other : Occurrence} {position : Nat}

theorem occurrences_eq (file : File) :
    ∃ below, file.occurrences = ⟨.file file, []⟩ :: below ∧
      below.map Occurrence.node = file.nodes := by
  have map := map_node_occurrences file
  rw [occurrences, Node.occurrences_eq] at map ⊢
  exact ⟨_, rfl, (List.cons.inj map).2⟩

theorem pairwise_occurrences (placed : file.WellPlaced text) :
    file.occurrences.Pairwise fun first second =>
      first.node = .file file ∨ first.node.Precedes second.node := by
  obtain ⟨below, occurrences, nodes⟩ := file.occurrences_eq
  rw [occurrences]
  refine .cons (fun _ _ => .inl rfl) ?_
  have pairwise := placed.pairwise_nodes
  rw [← nodes, List.pairwise_map] at pairwise
  exact pairwise.imp .inr

theorem mem_nodes_of_kind (member : occurrence ∈ file.occurrences)
    (notFile : occurrence.node.kind ≠ .file) : occurrence.node ∈ file.nodes := by
  have inMap := List.mem_map_of_mem (f := Occurrence.node) member
  rw [map_node_occurrences] at inMap
  refine (List.mem_cons.mp inMap).resolve_left ?_
  intro isFile
  exact notFile (by rw [isFile]; rfl)

theorem exists_occurrence {node : Node} (inFile : node ∈ file.nodes) :
    ∃ occurrence ∈ file.occurrences, occurrence.node = node := by
  obtain ⟨below, occurrences, nodes⟩ := file.occurrences_eq
  rw [← nodes] at inFile
  obtain ⟨occurrence, isBelow, isNode⟩ := List.mem_map.mp inFile
  exact ⟨occurrence, by rw [occurrences]; exact List.mem_cons_of_mem _ isBelow, isNode⟩

theorem WellPlaced.of_mem_occurrences (placed : file.WellPlaced text)
    (member : occurrence ∈ file.occurrences) (notFile : occurrence.node.kind ≠ .file) :
    Node.WellPlaced text occurrence.node :=
  placed.of_mem_nodes (mem_nodes_of_kind member notFile)

/-- Around a position in the name of a node all other nodes are larger. -/
theorem WellPlaced.size_lt_of_contains (placed : file.WellPlaced text)
    (member : occurrence ∈ file.occurrences) (otherMember : other ∈ file.occurrences)
    (notFile : occurrence.node.kind ≠ .file) (otherNotFile : other.node.kind ≠ .file)
    {nameSpan : Span} (isName : nameSpan ∈ occurrence.node.nameSpans)
    (inName : nameSpan.start ≤ position ∧ position < nameSpan.stop)
    (inOther : other.node.span.start ≤ position ∧ position < other.node.span.stop) :
    other = occurrence ∨ occurrence.node.span.size < other.node.span.size := by
  have tidy := (placed.of_mem_occurrences member notFile).tidy
  have nonempty := tidy.tight.start_lt_stop
  have inside := tidy.name_inside isName
  have related : other = occurrence ∨ occurrence.node.Precedes other.node ∨
      other.node.Precedes occurrence.node := by
    rcases Occurrence.eq_or_related (pairwise_occurrences placed) member otherMember with
      rfl | (isFile | precedes) | (isFile | precedes)
    · exact .inl rfl
    · exact absurd (by rw [isFile]; rfl) notFile
    · exact .inr (.inl precedes)
    · exact absurd (by rw [isFile]; rfl) otherNotFile
    · exact .inr (.inr precedes)
  rcases related with same | (holds | before) | (holds | before)
  · exact .inl same
  · have beside := holds.besideName nameSpan isName
    omega
  · omega
  · exact .inr (holds.size_lt nonempty)
  · omega

/-- A position in the name of a node means that node. -/
theorem WellPlaced.innermost?_of_name (placed : file.WellPlaced text) {accept : NodeKind → Bool}
    (member : occurrence ∈ file.occurrences) (accepted : accept occurrence.node.kind = true)
    (noFile : accept .file = false) {nameSpan : Span}
    (isName : nameSpan ∈ occurrence.node.nameSpans)
    (inName : nameSpan.start ≤ position ∧ position < nameSpan.stop) :
    file.innermost? accept position = some occurrence := by
  have notFile := NodeKind.ne_file_of_accept accepted noFile
  have inside := (placed.of_mem_occurrences member notFile).tidy.name_inside isName
  apply Occurrence.innermost?_eq_some
  · rw [List.mem_filter]
    refine ⟨member, ?_⟩
    simp only [accepted, Span.contains, Bool.true_and, Bool.and_eq_true, decide_eq_true_eq]
    omega
  · intro other otherMember
    obtain ⟨inFile, holds⟩ := List.mem_filter.mp otherMember
    simp only [Span.contains, Bool.and_eq_true, decide_eq_true_eq] at holds
    exact placed.size_lt_of_contains member inFile notFile
      (NodeKind.ne_file_of_accept holds.1 noFile) isName inName (by omega)

/-- A position in the name of a declaration means that declaration. -/
theorem WellPlaced.innermost?_of_declaredName (placed : file.WellPlaced text)
    (member : occurrence ∈ file.occurrences) {name : String × Span}
    (declares : occurrence.node.declaredName? = some name)
    (inName : name.2.start ≤ position ∧ position < name.2.stop) :
    file.innermost? NodeKind.isDeclaration position = some occurrence := by
  obtain ⟨isDeclaration, isName⟩ := Node.isDeclaration_of_declaredName? declares
  exact placed.innermost?_of_name member isDeclaration rfl isName inName

/-- The start of a reference means that reference. -/
theorem WellPlaced.innermost?_of_reference (placed : file.WellPlaced text)
    (member : occurrence ∈ file.occurrences)
    (isReference : occurrence.node.kind.isReference = true) :
    file.innermost? NodeKind.isReference occurrence.node.span.start = some occurrence := by
  obtain ⟨name, nameSpan, named⟩ := Node.exists_name_of_isReference isReference
  have isName : nameSpan ∈ occurrence.node.nameSpans := by simp [Node.nameSpans, named]
  have notFile := NodeKind.ne_file_of_accept isReference rfl
  have tidy := (placed.of_mem_occurrences member notFile).tidy
  have leads := tidy.leading isReference nameSpan isName
  have inside := tidy.name_inside isName
  apply placed.innermost?_of_name member isReference rfl isName
  omega

end Tree.File

/-! ### Nodes above other nodes

In a well placed file two nodes around one position never stand side by side:
the one that comes first is above the other.  So of all acceptable nodes around
a position there is one that has all others above it, and the search for the
smallest span finds that node, in whatever order it looks at them. -/

namespace Occurrence

/-- The first occurrence is on the way from the root down to the second one. -/
def IsAbove (outer inner : Occurrence) : Prop := outer.node :: outer.above <:+ inner.above

/-- The occurrence is one of those that a question for a position is about. -/
def isAround (accept : NodeKind → Bool) (position : Int) (occurrence : Occurrence) : Bool :=
  accept occurrence.node.kind && occurrence.node.span.contains position

theorem isAround_iff {accept : NodeKind → Bool} {position : Int} {occurrence : Occurrence} :
    occurrence.isAround accept position = true ↔
      accept occurrence.node.kind = true ∧ occurrence.node.span.contains position = true :=
  Bool.and_eq_true_iff

/-- The first occurrence is above the second or ends before it. -/
def AboveOrBefore (first second : Occurrence) : Prop :=
  first.IsAbove second ∨ first.node.span.stop ≤ second.node.span.start

/-- The last element of a list in which each element is related to all later ones. -/
theorem exists_last {related : Occurrence → Occurrence → Prop} {list : List Occurrence}
    (ordered : list.Pairwise related) (nonempty : list ≠ []) :
    ∃ last ∈ list, ∀ other ∈ list, other = last ∨ related other last := by
  refine ⟨list.getLast nonempty, List.getLast_mem nonempty, ?_⟩
  intro other inList
  rw [← List.dropLast_append_getLast nonempty, List.mem_append, List.mem_singleton] at inList
  rcases inList with isEarlier | isLast
  · exact .inr (ordered.rel_dropLast_getLast isEarlier)
  · exact .inl isLast

end Occurrence

namespace Node

open Occurrence (AboveOrBefore)

variable {text : List Char} {node : Node} {start stop : Nat} {children above : List Node}

theorem pairwise_flatMap_occurrences (spread : Spread start (children.map span) stop)
    (placed : ∀ child ∈ children, WellPlaced text child)
    (inside : ∀ child ∈ children, (child.occurrences above).Pairwise AboveOrBefore) :
    (children.flatMap fun child => child.occurrences above).Pairwise AboveOrBefore := by
  rw [List.pairwise_flatMap]
  refine ⟨inside, ?_⟩
  have ordered := List.pairwise_map.mp spread.pairwise
  refine ordered.imp_of_mem ?_
  intro child later isChild isLater before first inChild second inLater
  have firstInside :=
    (placed child isChild).of_mem_subtree (mem_subtree_of_mem_occurrences inChild)
  have secondInside :=
    (placed later isLater).of_mem_subtree (mem_subtree_of_mem_occurrences inLater)
  right
  omega

/-- A node is above everything that occurs in the nodes right below it. -/
theorem pairwise_occurrences_cons
    (below : (node.children.flatMap fun child =>
      child.occurrences (node :: above)).Pairwise AboveOrBefore) :
    (node.occurrences above).Pairwise AboveOrBefore := by
  rw [occurrences_eq]
  refine .cons ?_ below
  intro inner isBelow
  obtain ⟨child, -, inChild⟩ := List.mem_flatMap.mp isBelow
  exact .inl (suffix_of_mem_occurrences child _ inChild)

theorem WellPlaced.pairwise_occurrences (placed : WellPlaced text node) (above : List Node) :
    (node.occurrences above).Pairwise AboveOrBefore := by
  induction placed generalizing above with
  | @intro node tidy below ih =>
      apply pairwise_occurrences_cons
      exact pairwise_flatMap_occurrences tidy.spread_children below
        fun child isChild => ih child isChild (node :: above)

end Node

namespace Tree.File

variable {text : List Char} {file : File} {occurrence : Occurrence}
  {accept : NodeKind → Bool} {position : Int}

namespace WellPlaced

variable (placed : file.WellPlaced text)

include placed

theorem pairwise_aboveOrBefore : file.occurrences.Pairwise Occurrence.AboveOrBefore := by
  apply Node.pairwise_occurrences_cons
  exact Node.pairwise_flatMap_occurrences placed.spread placed.below
    fun child isChild => (placed.below child isChild).pairwise_occurrences _

/-- Of two acceptable occurrences around a position the first is above the second and larger. -/
theorem pairwise_around (noFile : accept .file = false) :
    (file.occurrences.filter (Occurrence.isAround accept position)).Pairwise fun outer inner =>
      outer.IsAbove inner ∧ inner.node.span.size < outer.node.span.size := by
  rw [List.pairwise_filter]
  refine (placed.pairwise_aboveOrBefore.and (pairwise_occurrences placed)).imp_of_mem ?_
  intro outer inner _ innerOccurs related outerAround innerAround
  obtain ⟨outerAccepted, outerContains⟩ := Occurrence.isAround_iff.mp outerAround
  obtain ⟨innerAccepted, innerContains⟩ := Occurrence.isAround_iff.mp innerAround
  simp only [Span.contains, Bool.and_eq_true, decide_eq_true_eq] at outerContains innerContains
  have notBefore : ¬ outer.node.span.stop ≤ inner.node.span.start := by omega
  have outerNotFile := NodeKind.ne_file_of_accept outerAccepted noFile
  have innerNotFile := NodeKind.ne_file_of_accept innerAccepted noFile
  have isAbove := related.1.resolve_right notBefore
  have precedes := related.2.resolve_left fun isFile => outerNotFile (by rw [isFile]; rfl)
  have holds := precedes.resolve_right notBefore
  have nonempty :=
    (placed.of_mem_occurrences innerOccurs innerNotFile).tidy.tight.start_lt_stop
  exact ⟨isAbove, holds.size_lt nonempty⟩

/-- Around a position there is no acceptable occurrence, or one that has all others above. -/
theorem exists_innermost (noFile : accept .file = false)
    (around : ∃ occurrence ∈ file.occurrences, occurrence.isAround accept position = true) :
    ∃ inner ∈ file.occurrences, inner.isAround accept position = true ∧
      ∀ other ∈ file.occurrences, other.isAround accept position = true →
        other = inner ∨ other.IsAbove inner ∧ inner.node.span.size < other.node.span.size := by
  obtain ⟨occurrence, occurs, isAround⟩ := around
  obtain ⟨inner, inList, others⟩ := Occurrence.exists_last (placed.pairwise_around noFile)
    (List.ne_nil_of_mem (List.mem_filter.mpr ⟨occurs, isAround⟩))
  obtain ⟨innerOccurs, innerAround⟩ := List.mem_filter.mp inList
  refine ⟨inner, innerOccurs, innerAround, ?_⟩
  intro other otherOccurs otherAround
  exact others other (List.mem_filter.mpr ⟨otherOccurs, otherAround⟩)

end WellPlaced

end Tree.File

end Gloss
