import Gloss.Fixture.Payload
import Gloss.Proofs.Fixture.Annotation
import Gloss.Proofs.Tree.Files
import Gloss.Proofs.Tree.Innermost

/-!
# Marking the nodes of a file

Every declaration gets a marker before its name and every reference one before
itself.  In a well placed file these markers can be told apart: no two
references begin at the same offset, and the offset of a marker means the node
that it was put before.
-/

namespace Gloss

/-- A label that is not taken for anything but a name. -/
structure PlainLabel (label : String) : Prop where
  nonempty : label ≠ ""
  unmarked : Unmarked label.toList
  notSentinel : ∀ sentinel : Sentinel, label ≠ sentinel.payload
  notPrefixed : ∀ start ∈ ["std::", "$", ":"], Text.startsWith start label = false

namespace Node

/-- The marker before the name of a declaration. -/
def labelInsertion? (label : NodeRef → String) (node : Node) : Option Insertion :=
  node.declaredName?.map fun name =>
    { offset := name.2.start, assertion := .declaration (label node.ref) }

/-- The marker before a reference, if it gets one. -/
def payloadInsertion? (payload? : NodeRef → Option String) (node : Node) : Option Insertion :=
  if node.kind.isReference then
    (payload? node.ref).map fun payload =>
      { offset := node.span.start, assertion := .reference payload }
  else none

end Node

namespace Tree.File

/-- The markers for the nodes of a file, in the order of their offsets. -/
def insertions (file : File) (label : NodeRef → String) (payload? : NodeRef → Option String) :
    List Insertion :=
  let nodes := file.occurrences.map Occurrence.node
  (nodes.filterMap (Node.labelInsertion? label) ++
    nodes.filterMap (Node.payloadInsertion? payload?)).mergeSort
      fun first second => first.offset ≤ second.offset

/-- Different plain labels for the declarations of a file. -/
structure Labels (file : File) (label : NodeRef → String) : Prop where
  plain : ∀ declaration ∈ file.declaredNodes, PlainLabel (label declaration)
  distinct : ∀ first ∈ file.declaredNodes, ∀ second ∈ file.declaredNodes,
    label first = label second → first = second

variable {file : File} {text : List Char} {label : NodeRef → String}
  {payload? : NodeRef → Option String} {node : Node}

/-- The name of a declaration means the declaration. -/
theorem WellPlaced.declarationAt (placed : file.WellPlaced text) (inFile : node ∈ file.nodes)
    {name : String × Span} (declares : node.declaredName? = some name) :
    (file.innermost? NodeKind.isDeclaration (name.2.start : Nat)).map Occurrence.ref =
      some node.ref := by
  obtain ⟨occurrence, occurs, rfl⟩ := exists_occurrence inFile
  obtain ⟨-, isName⟩ := Node.isDeclaration_of_declaredName? declares
  have inside := (placed.of_mem_nodes inFile).tidy.name_inside isName
  rw [placed.innermost?_of_declaredName occurs declares ⟨Nat.le_refl _, inside.2.1⟩]
  rfl

/-- The start of a reference means the reference. -/
theorem WellPlaced.referenceAt (placed : file.WellPlaced text) (inFile : node ∈ file.nodes)
    (isReference : node.kind.isReference = true) :
    (file.innermost? NodeKind.isReference (node.span.start : Nat)).map Occurrence.ref =
      some node.ref := by
  obtain ⟨occurrence, occurs, rfl⟩ := exists_occurrence inFile
  rw [placed.innermost?_of_reference occurs isReference]
  rfl

/-- Different references begin at different offsets. -/
theorem WellPlaced.start_ne_start (placed : file.WellPlaced text) {other : Node}
    (inFile : node ∈ file.nodes) (otherInFile : other ∈ file.nodes)
    (isReference : node.kind.isReference = true) (otherIsReference : other.kind.isReference = true)
    (different : node.ref ≠ other.ref) : node.span.start ≠ other.span.start := by
  intro same
  have means := placed.referenceAt inFile isReference
  rw [same, placed.referenceAt otherInFile otherIsReference, Option.some.injEq] at means
  exact different means.symm

theorem mem_insertions_iff {insertion : Insertion} :
    insertion ∈ file.insertions label payload? ↔
      ∃ node ∈ file.nodes, node.labelInsertion? label = some insertion ∨
        node.payloadInsertion? payload? = some insertion := by
  have noLabel : (Node.file file).labelInsertion? label = none := rfl
  have noPayload : (Node.file file).payloadInsertion? payload? = none := rfl
  rw [insertions, List.mem_mergeSort, map_node_occurrences, List.mem_append,
    List.filterMap_cons_none noLabel, List.filterMap_cons_none noPayload]
  simp only [List.mem_filterMap]
  constructor
  · intro given
    rcases given with ⟨node, inFile, isLabel⟩ | ⟨node, inFile, isPayload⟩
    · exact ⟨node, inFile, .inl isLabel⟩
    · exact ⟨node, inFile, .inr isPayload⟩
  · intro given
    obtain ⟨node, inFile, isLabel | isPayload⟩ := given
    · exact .inl ⟨node, inFile, isLabel⟩
    · exact .inr ⟨node, inFile, isPayload⟩

/-- What is picked from the markers is picked from labels and payloads. -/
theorem filterMap_insertions_perm {γ : Type} (pick : Insertion → Option γ) :
    ((file.insertions label payload?).filterMap pick).Perm
      ((file.nodes.filterMap fun node => (node.labelInsertion? label).bind pick) ++
        file.nodes.filterMap fun node => (node.payloadInsertion? payload?).bind pick) := by
  have noLabel : (Node.file file).labelInsertion? label = none := rfl
  have noPayload : (Node.file file).payloadInsertion? payload? = none := rfl
  rw [insertions, map_node_occurrences, List.filterMap_cons_none noLabel,
    List.filterMap_cons_none noPayload]
  apply ((List.mergeSort_perm _ _).filterMap pick).trans
  rw [List.filterMap_append, List.filterMap_filterMap, List.filterMap_filterMap]

theorem declarations_insertions_perm :
    (Insertion.declarations (file.insertions label payload?)).Perm
      (file.nodes.filterMap fun node =>
        node.declaredName?.map fun name => (label node.ref, (name.2.start : Int))) := by
  apply (filterMap_insertions_perm _).trans
  apply List.Perm.of_eq
  refine (congrArg₂ (· ++ ·) (List.filterMap_congr ?labels)
    (List.filterMap_eq_nil_iff.mpr ?payloads)).trans (List.append_nil _)
  case labels =>
    intro node _
    unfold Node.labelInsertion?
    cases node.declaredName? <;> rfl
  case payloads =>
    intro node _
    unfold Node.payloadInsertion?
    split
    · cases payload? node.ref <;> rfl
    · rfl

theorem references_insertions_perm :
    (Insertion.references (file.insertions label payload?)).Perm
      (file.nodes.filterMap fun node =>
        if node.kind.isReference then
          (payload? node.ref).map fun payload => ((node.span.start : Int), payload)
        else none) := by
  apply (filterMap_insertions_perm _).trans
  apply List.Perm.of_eq
  refine (congrArg₂ (· ++ ·) (List.filterMap_eq_nil_iff.mpr ?labels)
    (List.filterMap_congr ?payloads)).trans (List.nil_append _)
  case labels =>
    intro node _
    unfold Node.labelInsertion?
    cases node.declaredName? <;> rfl
  case payloads =>
    intro node _
    unfold Node.payloadInsertion?
    split
    · cases payload? node.ref <;> rfl
    · rfl

theorem mem_declarations_insertions {entry : String × Int} :
    entry ∈ Insertion.declarations (file.insertions label payload?) ↔
      ∃ node ∈ file.nodes, ∃ name, node.declaredName? = some name ∧
        entry = (label node.ref, (name.2.start : Int)) := by
  rw [declarations_insertions_perm.mem_iff, List.mem_filterMap]
  apply exists_congr
  intro node
  apply and_congr_right
  intro _
  rw [Option.map_eq_some_iff]
  constructor
  · intro given
    obtain ⟨name, declares, rfl⟩ := given
    exact ⟨name, declares, rfl⟩
  · intro given
    obtain ⟨name, declares, rfl⟩ := given
    exact ⟨name, declares, rfl⟩

theorem mem_references_insertions {entry : Int × String} :
    entry ∈ Insertion.references (file.insertions label payload?) ↔
      ∃ node ∈ file.nodes, node.kind.isReference = true ∧ ∃ payload,
        payload? node.ref = some payload ∧ entry = ((node.span.start : Int), payload) := by
  rw [references_insertions_perm.mem_iff, List.mem_filterMap]
  apply exists_congr
  intro node
  apply and_congr_right
  intro _
  split
  · next isReference =>
      rw [Option.map_eq_some_iff]
      constructor
      · intro given
        obtain ⟨payload, isGiven, rfl⟩ := given
        exact ⟨isReference, payload, isGiven, rfl⟩
      · intro given
        obtain ⟨-, payload, isGiven, rfl⟩ := given
        exact ⟨payload, isGiven, rfl⟩
  · next notReference => simp [notReference]

theorem typeAssertions_insertions :
    Insertion.typeAssertions (file.insertions label payload?) = [] := by
  apply List.filterMap_eq_nil_iff.mpr
  intro insertion member
  obtain ⟨node, -, isLabel | isPayload⟩ := mem_insertions_iff.mp member
  · obtain ⟨name, -, rfl⟩ := Option.map_eq_some_iff.mp isLabel
    rfl
  · unfold Node.payloadInsertion? at isPayload
    split at isPayload
    · obtain ⟨payload, -, rfl⟩ := Option.map_eq_some_iff.mp isPayload
      rfl
    · cases isPayload

theorem ascending_insertions :
    (file.insertions label payload?).Pairwise fun first second =>
      first.offset ≤ second.offset := by
  have sorted (markers : List Insertion) :
      (markers.mergeSort fun first second => first.offset ≤ second.offset).Pairwise
        fun first second => decide (first.offset ≤ second.offset) = true := by
    apply List.pairwise_mergeSort
    · intro first second third firstLe secondLe
      rw [decide_eq_true_eq] at firstLe secondLe ⊢
      omega
    · intro first second
      rw [Bool.or_eq_true, decide_eq_true_eq, decide_eq_true_eq]
      omega
  exact (sorted _).imp fun order => of_decide_eq_true order

/-- The labels of different declarations are different names of markers. -/
theorem nodup_labels (placed : file.WellPlaced text) (labels : file.Labels label) :
    ((Insertion.declarations (file.insertions label payload?)).map Prod.fst).Nodup := by
  rw [(declarations_insertions_perm.map Prod.fst).nodup_iff, List.map_filterMap]
  have different := List.pairwise_map.mp placed.nodup_refs
  apply List.pairwise_filterMap.mpr
  refine different.imp_of_mem ?_
  intro first second firstInFile secondInFile apart firstLabel isFirst secondLabel isSecond same
  simp only [Option.map_map, Option.map_eq_some_iff, Function.comp_apply] at isFirst isSecond
  obtain ⟨firstName, firstDeclares, rfl⟩ := isFirst
  obtain ⟨secondName, secondDeclares, rfl⟩ := isSecond
  apply apart
  apply labels.distinct _ _ _ _ same
  · exact mem_declaredNodes_of_mem_nodes firstInFile
      (Node.isDeclaration_of_declaredName? firstDeclares).1
  · exact mem_declaredNodes_of_mem_nodes secondInFile
      (Node.isDeclaration_of_declaredName? secondDeclares).1

theorem nodup_starts (placed : file.WellPlaced text) :
    ((Insertion.references (file.insertions label payload?)).map Prod.fst).Nodup := by
  rw [(references_insertions_perm.map Prod.fst).nodup_iff, List.map_filterMap]
  have different := List.pairwise_map.mp placed.nodup_refs
  have ofReference {node : Node} {start : Int}
      (isStart : (if node.kind.isReference then
          (payload? node.ref).map fun payload => ((node.span.start : Int), payload)
        else none).map Prod.fst = some start) :
      node.kind.isReference = true ∧ start = node.span.start := by
    split at isStart
    · next isReference =>
        obtain ⟨_, isEntry, rfl⟩ := Option.map_eq_some_iff.mp isStart
        obtain ⟨payload, -, rfl⟩ := Option.map_eq_some_iff.mp isEntry
        exact ⟨isReference, rfl⟩
    · cases isStart
  apply List.pairwise_filterMap.mpr
  refine different.imp_of_mem ?_
  intro first second firstInFile secondInFile apart firstStart isFirst secondStart isSecond same
  obtain ⟨firstIsReference, rfl⟩ := ofReference isFirst
  obtain ⟨secondIsReference, rfl⟩ := ofReference isSecond
  apply placed.start_ne_start firstInFile secondInFile firstIsReference secondIsReference apart
  exact Int.ofNat.inj same

/-- The markers for the nodes of a well placed file annotate its text. -/
theorem annotates_insertions (placed : file.WellPlaced text) (unmarked : Unmarked text)
    (labels : file.Labels label)
    (payloads : ∀ node ∈ file.nodes, node.kind.isReference = true →
      ∀ payload, payload? node.ref = some payload → (Assertion.reference payload).WellFormed) :
    Annotates text (file.insertions label payload?) := by
  have ofNode : ∀ insertion ∈ file.insertions label payload?, ∃ node ∈ file.nodes,
      insertion.assertion.kind ≠ .type ∧ insertion.assertion.WellFormed ∧
        insertion.offset ≤ node.span.stop := by
    intro insertion member
    obtain ⟨node, inFile, isLabel | isPayload⟩ := mem_insertions_iff.mp member
    · obtain ⟨name, declares, rfl⟩ := Option.map_eq_some_iff.mp isLabel
      obtain ⟨isDeclaration, isName⟩ := Node.isDeclaration_of_declaredName? declares
      have inside := (placed.of_mem_nodes inFile).tidy.name_inside isName
      have plain := labels.plain _ (mem_declaredNodes_of_mem_nodes inFile isDeclaration)
      refine ⟨node, inFile, nofun, ⟨plain.nonempty, plain.unmarked .tilde⟩, ?_⟩
      simp only
      omega
    · unfold Node.payloadInsertion? at isPayload
      split at isPayload
      · next isReference =>
          obtain ⟨payload, isGiven, rfl⟩ := Option.map_eq_some_iff.mp isPayload
          have tight := (placed.of_mem_nodes inFile).tidy.tight.start_lt_stop
          refine ⟨node, inFile, nofun, payloads node inFile isReference payload isGiven, ?_⟩
          simp only
          omega
      · cases isPayload
  refine ⟨unmarked, ascending_insertions, ?_, ?_, nodup_labels placed labels,
    nodup_starts placed, ?_, ?_⟩
  · intro insertion member
    obtain ⟨node, inFile, -, -, le_stop⟩ := ofNode insertion member
    exact Nat.le_trans le_stop (placed.of_mem_nodes inFile).tidy.tight.stop_le_length
  · intro insertion member
    obtain ⟨node, inFile, -, wellFormed, -⟩ := ofNode insertion member
    exact wellFormed
  · rw [typeAssertions_insertions]
    exact List.nodup_nil
  · intro insertion member isType
    obtain ⟨node, inFile, notType, -⟩ := ofNode insertion member
    exact absurd isType notType

end Tree.File

end Gloss
