import Gloss.Proofs.Grammar.Extents
import Gloss.Proofs.Tree.Subtree

/-!
# How nodes lie in the text

In a well placed tree every node is tight, and the nodes below it lie inside of
it one after the other, none of them as large as the node itself.  The name
that a node declares or uses stands apart from the nodes below.
-/

namespace Gloss

/-- Spans that lie between two offsets one after the other, none of them
empty. -/
def Spread : Nat → List Span → Nat → Prop
  | start, [], stop => start ≤ stop
  | start, span :: rest, stop =>
      start ≤ span.start ∧ span.start < span.stop ∧ Spread span.stop rest stop

namespace Spread

variable {start middle stop : Nat} {spans first second : List Span}

theorem le (spread : Spread start spans stop) : start ≤ stop := by
  induction spans generalizing start with
  | nil => exact spread
  | cons span rest ih =>
      obtain ⟨before, nonempty, later⟩ := spread
      have := ih later
      omega

theorem append_iff :
    Spread start (first ++ second) stop ↔
      ∃ middle, Spread start first middle ∧ Spread middle second stop := by
  induction first generalizing start with
  | nil =>
      constructor
      · intro spread
        exact ⟨start, Nat.le_refl _, spread⟩
      · intro given
        obtain ⟨middle, le, spread⟩ := given
        cases second with
        | nil => exact Nat.le_trans le spread
        | cons span rest => exact ⟨Nat.le_trans le spread.1, spread.2⟩
  | cons span rest ih =>
      constructor
      · intro given
        obtain ⟨before, nonempty, later⟩ := given
        obtain ⟨middle, inFirst, inSecond⟩ := ih.mp later
        exact ⟨middle, ⟨before, nonempty, inFirst⟩, inSecond⟩
      · intro given
        obtain ⟨middle, ⟨before, nonempty, inFirst⟩, inSecond⟩ := given
        exact ⟨before, nonempty, ih.mpr ⟨middle, inFirst, inSecond⟩⟩

theorem append (inFirst : Spread start first middle) (inSecond : Spread middle second stop) :
    Spread start (first ++ second) stop :=
  append_iff.mpr ⟨middle, inFirst, inSecond⟩

theorem widen (spread : Spread start spans stop) {earlier later : Nat}
    (before : earlier ≤ start) (after : stop ≤ later) : Spread earlier spans later := by
  have starts : Spread earlier [] start := before
  have stops : Spread stop [] later := after
  simpa using (starts.append spread).append stops

theorem of_mem (spread : Spread start spans stop) {span : Span} (member : span ∈ spans) :
    start ≤ span.start ∧ span.start < span.stop ∧ span.stop ≤ stop := by
  obtain ⟨before, after, rfl⟩ := List.append_of_mem member
  obtain ⟨middle, inBefore, starts, nonempty, inAfter⟩ := append_iff.mp spread
  have := inBefore.le
  have := inAfter.le
  omega

theorem pairwise (spread : Spread start spans stop) :
    spans.Pairwise fun span later => span.stop ≤ later.start := by
  induction spans generalizing start with
  | nil => exact .nil
  | cons span rest ih =>
      obtain ⟨-, -, later⟩ := spread
      exact .cons (fun next member => (later.of_mem member).1) (ih later)

/-- Of two spans or more none fills the whole stretch. -/
theorem ne_of_mem (spread : Spread start spans stop) (several : 1 < spans.length)
    {span : Span} (member : span ∈ spans) : span ≠ ⟨start, stop⟩ := by
  intro same
  subst same
  obtain ⟨before, after, rfl⟩ := List.append_of_mem member
  obtain ⟨middle, inBefore, starts, nonempty, inAfter⟩ := append_iff.mp spread
  simp only at starts nonempty inAfter
  have beforeLe := inBefore.le
  cases before with
  | cons first rest =>
      obtain ⟨firstStarts, firstNonempty, later⟩ := inBefore
      have := later.le
      omega
  | nil =>
      cases after with
      | nil => simp at several
      | cons first rest =>
          obtain ⟨afterStarts, afterNonempty, later⟩ := inAfter
          have := later.le
          omega

end Spread

namespace Node

/-- The name that a node declares or uses, with its span. -/
def name? : Node → Option (String × Span)
  | .type (.named _ _ name nameSpan _) => some (name, nameSpan)
  | .expression (.name simple) => some (simple.text, simple.span)
  | .operator use => some (use.operator.symbol, use.span)
  | node => node.declaredName?

/-- The span of the name of a node, if the node has a name. -/
def nameSpans (node : Node) : List Span := (node.name?.map Prod.snd).toList

/-- How a node lies in a text, and the nodes right below it in the node. -/
structure Tidy (text : List Char) (node : Node) : Prop where
  tight : Text.Tight text node.span
  spread : ∃ before after, node.children = before ++ after ∧
    Spread node.span.start (before.map span ++ node.nameSpans ++ after.map span) node.span.stop
  smaller : ∀ child ∈ node.children, child.span ≠ node.span
  spelled : ∀ name nameSpan, node.name? = some (name, nameSpan) →
    Text.slice nameSpan.start nameSpan.stop text = name.toList
  leading : node.kind.isReference = true →
    ∀ nameSpan ∈ node.nameSpans, nameSpan.start = node.span.start

/-- A node that is tidy, and so is every node below it. -/
inductive WellPlaced (text : List Char) : Node → Prop where
  | intro {node : Node} (tidy : Tidy text node)
      (below : ∀ child ∈ node.children, WellPlaced text child) : WellPlaced text node

theorem WellPlaced.tidy {text : List Char} {node : Node} (placed : WellPlaced text node) :
    Tidy text node := by
  cases placed with
  | intro tidy _ => exact tidy

theorem WellPlaced.child {text : List Char} {node : Node} (placed : WellPlaced text node)
    {child : Node} (member : child ∈ node.children) : WellPlaced text child := by
  cases placed with
  | intro _ below => exact below child member

/-- The inner node lies in the outer one, is smaller, and stays clear of the
name of the outer one. -/
structure Holds (outer inner : Node) : Prop where
  start_le : outer.span.start ≤ inner.span.start
  stop_le : inner.span.stop ≤ outer.span.stop
  smaller : inner.span ≠ outer.span
  besideName : ∀ nameSpan ∈ outer.nameSpans,
    inner.span.stop ≤ nameSpan.start ∨ nameSpan.stop ≤ inner.span.start

/-- The first of two nodes holds the second or ends before it. -/
def Precedes (first second : Node) : Prop :=
  first.Holds second ∨ first.span.stop ≤ second.span.start

section Laminar

variable {text : List Char} {node : Node}

theorem Tidy.spread_children (tidy : Tidy text node) :
    Spread node.span.start (node.children.map span) node.span.stop := by
  obtain ⟨before, after, children, spread⟩ := tidy.spread
  obtain ⟨afterName, beforeSpread, inAfter⟩ := Spread.append_iff.mp spread
  obtain ⟨beforeName, inBefore, named⟩ := Spread.append_iff.mp beforeSpread
  rw [children, List.map_append]
  exact inBefore.append (inAfter.widen named.le (Nat.le_refl _))

theorem Tidy.holds_child (tidy : Tidy text node) {child : Node}
    (member : child ∈ node.children) : node.Holds child := by
  have inside := tidy.spread_children.of_mem (List.mem_map_of_mem member)
  refine ⟨inside.1, inside.2.2, tidy.smaller child member, ?_⟩
  intro nameSpan isName
  obtain ⟨before, after, children, spread⟩ := tidy.spread
  have ordered := spread.pairwise
  rw [List.append_assoc, List.pairwise_append] at ordered
  obtain ⟨-, behind, beforeAll⟩ := ordered
  rw [List.pairwise_append] at behind
  rw [children] at member
  rcases List.mem_append.mp member with inBefore | inAfter
  · exact .inl (beforeAll _ (List.mem_map_of_mem inBefore) _ (List.mem_append_left _ isName))
  · exact .inr (behind.2.2 _ isName _ (List.mem_map_of_mem inAfter))

/-- What a smaller node inside of a child holds is inside of the node too. -/
theorem Holds.of_inside {outer child inner : Node} (holds : outer.Holds child)
    (start_le : child.span.start ≤ inner.span.start)
    (stop_le : inner.span.stop ≤ child.span.stop) : outer.Holds inner := by
  have outerStart := holds.start_le
  have outerStop := holds.stop_le
  refine ⟨by omega, by omega, ?_, ?_⟩
  · intro same
    apply holds.smaller
    have sameStart : inner.span.start = outer.span.start := congrArg Span.start same
    have sameStop : inner.span.stop = outer.span.stop := congrArg Span.stop same
    rw [← same]
    have childStart : child.span.start = inner.span.start := by omega
    have childStop : child.span.stop = inner.span.stop := by omega
    cases childSpan : child.span
    cases innerSpan : inner.span
    simp_all
  · intro nameSpan isName
    have := holds.besideName nameSpan isName
    omega

/-- Every node of a well placed tree lies in its root and is well placed. -/
theorem WellPlaced.of_mem_subtree (placed : WellPlaced text node) {inner : Node}
    (member : inner ∈ node.subtree) :
    node.span.start ≤ inner.span.start ∧ inner.span.stop ≤ node.span.stop ∧
      WellPlaced text inner := by
  induction placed with
  | @intro node tidy below ih =>
      rcases mem_subtree_iff.mp member with rfl | ⟨child, childMember, inChild⟩
      · exact ⟨Nat.le_refl _, Nat.le_refl _, .intro tidy below⟩
      · obtain ⟨start_le, stop_le, innerPlaced⟩ := ih child childMember inChild
        have holds := tidy.holds_child childMember
        exact ⟨Nat.le_trans holds.start_le start_le, Nat.le_trans stop_le holds.stop_le,
          innerPlaced⟩

theorem pairwise_flatMap_subtree {start stop : Nat} {children : List Node}
    (spread : Spread start (children.map span) stop)
    (placed : ∀ child ∈ children, WellPlaced text child)
    (inside : ∀ child ∈ children, child.subtree.Pairwise Precedes) :
    (children.flatMap subtree).Pairwise Precedes := by
  rw [List.pairwise_flatMap]
  refine ⟨inside, ?_⟩
  have ordered := List.pairwise_map.mp spread.pairwise
  refine ordered.imp_of_mem ?_
  intro child later childMember laterMember before first inChild second inLater
  have firstInside := (placed child childMember).of_mem_subtree inChild
  have secondInside := (placed later laterMember).of_mem_subtree inLater
  right
  omega

/-- Of two nodes of a well placed tree the earlier one holds the later one or
ends before it. -/
theorem WellPlaced.pairwise_subtree (placed : WellPlaced text node) :
    node.subtree.Pairwise Precedes := by
  induction placed with
  | @intro node tidy below ih =>
      rw [subtree_eq]
      refine .cons ?_ (pairwise_flatMap_subtree tidy.spread_children below ih)
      intro inner member
      obtain ⟨child, childMember, inChild⟩ := List.mem_flatMap.mp member
      obtain ⟨start_le, stop_le, -⟩ := (below child childMember).of_mem_subtree inChild
      left
      exact (tidy.holds_child childMember).of_inside start_le stop_le

end Laminar

end Node

namespace Tree.File

/-- The declarations and the package line of a file lie in its text one after
the other. -/
structure WellPlaced (text : List Char) (file : File) : Prop where
  span : file.span = ⟨0, text.length⟩
  spread : Spread 0 ((Node.file file).children.map Node.span) text.length
  below : ∀ child ∈ (Node.file file).children, Node.WellPlaced text child

variable {text : List Char} {file : File}

theorem WellPlaced.of_mem_nodes (placed : file.WellPlaced text) {node : Node}
    (member : node ∈ file.nodes) : Node.WellPlaced text node := by
  obtain ⟨child, childMember, inChild⟩ := List.mem_flatMap.mp member
  exact ((placed.below child childMember).of_mem_subtree inChild).2.2

theorem WellPlaced.pairwise_nodes (placed : file.WellPlaced text) :
    file.nodes.Pairwise Node.Precedes :=
  Node.pairwise_flatMap_subtree placed.spread placed.below
    fun child member => (placed.below child member).pairwise_subtree

/-- No two nodes below the file have the same span. -/
theorem WellPlaced.nodup_spans (placed : file.WellPlaced text) :
    (file.nodes.map Node.span).Nodup := by
  apply List.pairwise_map.mpr
  refine placed.pairwise_nodes.imp_of_mem ?_
  intro first second firstMember _ precedes same
  rcases precedes with holds | before
  · exact holds.smaller same.symm
  · have nonempty := (placed.of_mem_nodes firstMember).tidy.tight.start_lt_stop
    rw [← same] at before
    omega

end Tree.File

/-! ### Rows of nodes

A row is a list of well placed nodes between two offsets.  A node is well
placed when the nodes below it, and its name if it has one, make up a row in
it. -/

namespace Node

/-- A well placed node that fills the stretch between two offsets. -/
structure Fills (text : List Char) (start : Nat) (node : Node) (stop : Nat) : Prop where
  span : node.span = ⟨start, stop⟩
  placed : WellPlaced text node

/-- Well placed nodes between two offsets, one after the other. -/
structure Row (text : List Char) (start : Nat) (nodes : List Node) (stop : Nat) : Prop where
  spread : Spread start (nodes.map Node.span) stop
  placed : ∀ node ∈ nodes, WellPlaced text node

variable {text : List Char} {node : Node} {nodes first second : List Node}
  {start middle stop : Nat}

theorem Fills.lt (fills : Fills text start node stop) : start < stop := by
  have nonempty := fills.placed.tidy.tight.start_lt_stop
  rw [fills.span] at nonempty
  exact nonempty

namespace Row

theorem nil (le : start ≤ stop) : Row text start [] stop :=
  ⟨le, fun _ member => absurd member List.not_mem_nil⟩

theorem le (row : Row text start nodes stop) : start ≤ stop := row.spread.le

theorem append (inFirst : Row text start first middle) (inSecond : Row text middle second stop) :
    Row text start (first ++ second) stop := by
  constructor
  · rw [List.map_append]
    exact inFirst.spread.append inSecond.spread
  · intro node member
    exact (List.mem_append.mp member).elim (inFirst.placed node) (inSecond.placed node)

theorem widen (row : Row text start nodes stop) {earlier later : Nat}
    (startLe : earlier ≤ start) (stopLe : stop ≤ later) : Row text earlier nodes later :=
  ⟨row.spread.widen startLe stopLe, row.placed⟩

end Row

theorem Fills.row (fills : Fills text start node stop) : Row text start [node] stop := by
  have nonempty := fills.lt
  constructor
  · simp only [List.map_cons, List.map_nil, fills.span]
    exact ⟨Nat.le_refl _, nonempty, Nat.le_refl _⟩
  · intro other member
    cases List.mem_singleton.mp member
    exact fills.placed

namespace WellPlaced

theorem of_nameless (tight : Text.Tight text ⟨start, stop⟩) (span : node.span = ⟨start, stop⟩)
    (nameless : node.name? = none) (row : Row text start node.children stop)
    (smaller : ∀ child ∈ node.children, child.span ≠ node.span) : WellPlaced text node := by
  refine .intro ⟨span ▸ tight, ⟨[], node.children, rfl, ?_⟩, smaller, ?_, ?_⟩ row.placed
  · simpa [nameSpans, nameless, span] using row.spread
  · simp [nameless]
  · simp [nameSpans, nameless]

/-- A node without a name is well placed when its text has something before or
after the nodes below. -/
theorem of_inner (tight : Text.Tight text ⟨start, stop⟩) (span : node.span = ⟨start, stop⟩)
    (nameless : node.name? = none) {innerStart innerStop : Nat}
    (row : Row text innerStart node.children innerStop)
    (startLe : start ≤ innerStart) (stopLe : innerStop ≤ stop)
    (inner : start < innerStart ∨ innerStop < stop) : WellPlaced text node := by
  apply of_nameless tight span nameless (row.widen startLe stopLe)
  intro child member same
  have inside := row.spread.of_mem (List.mem_map_of_mem member)
  rw [same, span] at inside
  simp only at inside
  omega

/-- A node without a name is well placed when there are several nodes below. -/
theorem of_several (tight : Text.Tight text ⟨start, stop⟩) (span : node.span = ⟨start, stop⟩)
    (nameless : node.name? = none) (row : Row text start node.children stop)
    (several : 1 < node.children.length) : WellPlaced text node := by
  apply of_nameless tight span nameless row
  intro child member
  rw [span]
  exact row.spread.ne_of_mem (by simpa using several) (List.mem_map_of_mem member)

/-- A node with a name is well placed when the nodes below stand before and
after the name. -/
theorem of_named (before after : List Node) {name : String} {nameSpan : Span}
    (tight : Text.Tight text ⟨start, stop⟩) (span : node.span = ⟨start, stop⟩) (named : node.name? = some (name, nameSpan))
    (spelled : Text.slice nameSpan.start nameSpan.stop text = name.toList)
    (nonempty : nameSpan.start < nameSpan.stop)
    (leading : node.kind.isReference = true → nameSpan.start = start)
    (children : node.children = before ++ after)
    (inBefore : Row text start before nameSpan.start)
    (inAfter : Row text nameSpan.stop after stop) : WellPlaced text node := by
  have nameSpans : node.nameSpans = [nameSpan] := by simp [nameSpans, named]
  have around : Spread start (before.map Node.span ++ [nameSpan] ++ after.map Node.span) stop := by
    rw [List.append_assoc]
    exact inBefore.spread.append ⟨Nat.le_refl _, nonempty, inAfter.spread⟩
  refine .intro ⟨span ▸ tight, ⟨before, after, children, ?_⟩, ?_, ?_, ?_⟩ ?_
  · rw [nameSpans, span]
    exact around
  · intro child member
    rw [span]
    refine around.ne_of_mem ?_ ?_
    · have several : 0 < before.length + after.length := by
        rw [← List.length_append, ← children]
        exact List.length_pos_of_mem member
      simp only [List.length_append, List.length_map, List.length_singleton]
      omega
    · rw [children, List.mem_append] at member
      simp only [List.mem_append, List.mem_map]
      exact member.imp (fun inBefore => .inl ⟨child, inBefore, rfl⟩)
        (fun inAfter => ⟨child, inAfter, rfl⟩)
  · intro otherName otherSpan isName
    rw [named, Option.some.injEq, Prod.mk.injEq] at isName
    obtain ⟨rfl, rfl⟩ := isName
    exact spelled
  · intro isReference otherSpan member
    rw [nameSpans, List.mem_singleton] at member
    rw [member, span]
    exact leading isReference
  · intro child member
    rw [children] at member
    exact (List.mem_append.mp member).elim (inBefore.placed child) (inAfter.placed child)

/-- A node that differs from a well placed one only in ending later. -/
theorem extend {longer : Node} (placed : WellPlaced text node)
    (span : node.span = ⟨start, middle⟩) (longerSpan : longer.span = ⟨start, stop⟩)
    (le : middle ≤ stop) (tight : Text.Tight text ⟨start, stop⟩)
    (children : longer.children = node.children) (name : longer.name? = node.name?)
    (kind : longer.kind = node.kind) : WellPlaced text longer := by
  have tidy := placed.tidy
  have sameNames : longer.nameSpans = node.nameSpans := by simp [nameSpans, name]
  refine .intro ⟨longerSpan ▸ tight, ?_, ?_, ?_, ?_⟩ ?_
  · obtain ⟨before, after, parts, spread⟩ := tidy.spread
    rw [span] at spread
    rw [children, sameNames, longerSpan]
    exact ⟨before, after, parts, spread.widen (Nat.le_refl _) le⟩
  · intro child member same
    rw [children] at member
    have inside := tidy.spread_children.of_mem (List.mem_map_of_mem member)
    have smaller := tidy.smaller child member
    rw [same, longerSpan, span] at inside smaller
    have : stop = middle := Nat.le_antisymm inside.2.2 le
    exact smaller (by rw [this])
  · rw [name]
    exact tidy.spelled
  · rw [kind, sameNames, longerSpan]
    intro isReference nameSpan member
    rw [tidy.leading isReference nameSpan member, span]
  · intro child member
    rw [children] at member
    exact placed.child member

end WellPlaced

end Node

end Gloss
