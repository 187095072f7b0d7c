import Gloss.Proofs.Addition.Extensions
import Gloss.Proofs.Grammar.Laminar
import Gloss.Proofs.Tree.Equality

/-!
# One more declaration changes nothing

A text may go on with one more declaration.  As long as the text before does not use its name,
everything in it means what it meant, and all problems in it are reported as they were, in the
same order: whatever the new declaration asks for, and however many problems there are.
-/

namespace Gloss

open Gloss.Tree ResolutionState Resolver

namespace Journal

open Remark

/-- Two journals give the same answers about a node. -/
structure SameAt (node : NodeRef) (first second : Journal) : Prop where
  target : first.bindings.targets.get? node = second.bindings.targets.get? node
  candidates : first.bindings.ambiguous.get? node = second.bindings.ambiguous.get? node
  unresolved : first.bindings.isUnresolved node = second.bindings.isUnresolved node
  type : first.types.get? node = second.types.get? node
  declaration : first.declarations.get? node = second.declarations.get? node

variable {node : NodeRef} {total extra whole : List Remark}

/-- What was picked for a node is still found if nothing else is picked for it. -/
theorem lookupIn_of_perm_append {ν : Type} {pick : Remark → Option (NodeRef × ν)}
    (perm : whole.Perm (total ++ extra))
    (distinct : ((whole.filterMap pick).map Prod.fst).Nodup)
    (absent : node ∉ (extra.filterMap pick).map Prod.fst) :
    Table.lookupIn node (total.filterMap pick) = Table.lookupIn node (whole.filterMap pick) := by
  rw [Table.lookupIn_eq_of_perm distinct (perm.filterMap pick), List.filterMap_append,
    Table.lookupIn_append, Table.lookupIn_eq_none_iff.mpr absent, Option.or_none]

/-- Remarks about other nodes do not change the answers about a node. -/
theorem sameAt_remarkAll (perm : whole.Perm (total ++ extra))
    (distinct : ∀ slot, (nodes slot total).Nodup) (distinctWhole : ∀ slot, (nodes slot whole).Nodup)
    (absent : ∀ slot, node ∉ nodes slot extra) :
    SameAt node (empty.remarkAll total) (empty.remarkAll whole) := by
  have meaning : Table.lookupIn node (total.filterMap meaning?) =
      Table.lookupIn node (whole.filterMap meaning?) := by
    refine lookupIn_of_perm_append perm ?_ ?_
    · exact map_fst_filterMap_meaning? whole ▸ distinctWhole .meaning
    · exact map_fst_filterMap_meaning? extra ▸ absent .meaning
  have holds := holds_remarkAll (distinct .meaning) node
  have holdsWhole := holds_remarkAll (distinctWhole .meaning) node
  rw [← meaning] at holdsWhole
  constructor
  · rw [holds.target?_eq, holdsWhole.target?_eq]
  · rw [holds.candidates?_eq, holdsWhole.candidates?_eq]
  · rw [holds.isUnresolved_eq, holdsWhole.isUnresolved_eq]
  · rw [get?_types (distinct .type), get?_types (distinctWhole .type)]
    refine lookupIn_of_perm_append perm ?_ ?_
    · exact map_fst_filterMap_typed? whole ▸ distinctWhole .type
    · exact map_fst_filterMap_typed? extra ▸ absent .type
  · rw [get?_declarations (distinct .declaration), get?_declarations (distinctWhole .declaration)]
    refine lookupIn_of_perm_append perm ?_ ?_
    · exact map_fst_filterMap_declared? whole ▸ distinctWhole .declaration
    · exact map_fst_filterMap_declared? extra ▸ absent .declaration

end Journal

namespace ResolutionState

variable {home : NodeRef → Prop} {contents : List TopLevel} {added : TopLevel}
  {after later : ResolutionState} {total laterTotal : List Remark} {node : NodeRef}

namespace Preserved

variable (preserved : Preserved home added after later total laterTotal)

include preserved

/-- What is written down in addition is not about the old nodes. -/
theorem sameAt (distinct : ∀ slot, (Remark.nodes slot laterTotal).Nodup)
    (apart : ∀ below ∈ added.node.subtree, ¬ home below.ref) (isHome : home node) :
    (Journal.empty.remarkAll total).SameAt node (Journal.empty.remarkAll laterTotal) := by
  obtain ⟨extra, perm, included⟩ := preserved.extra
  have distinctTotal (slot : Slot) : (Remark.nodes slot total).Nodup :=
    (distinct slot).sublist (preserved.sublist.filterMap _)
  refine Journal.sameAt_remarkAll perm distinctTotal distinct fun slot isExtra => ?_
  have isFilled := Multiset.mem_of_le (included slot) (Multiset.mem_coe.mpr isExtra)
  obtain ⟨below, isBelow, rfl⟩ := Node.exists_of_mem_filled isFilled
  exact apart below isBelow isHome

/-- What is shown of the old nodes is what was shown. -/
theorem render_eq {descriptor : Descriptor} (shows : ∀ node ∈ descriptor.shownOpen?, home node) :
    descriptor.render after.inferred = descriptor.render later.inferred :=
  Descriptor.render_congr fun node isShown => preserved.known node (shows node isShown)

end Preserved

end ResolutionState

/-! ### Files -/

namespace Tree.File

/-- The file itself or a part of it is known by the reference. -/
def Contains (file : File) (node : NodeRef) : Prop := node ∈ (Node.file file).subtree.map Node.ref

theorem contains_of_mem_nodes {file : File} {node : Node} (inFile : node ∈ file.nodes) :
    file.Contains node.ref := by
  rw [Contains, subtree_eq]
  exact List.mem_map_of_mem (List.mem_cons_of_mem _ inFile)

variable {file longer : File} {added : TopLevel} {text : List Char}

theorem nodes_of_append (package : longer.package = file.package)
    (declarations : longer.declarations = file.declarations ++ [added]) :
    longer.nodes = file.nodes ++ added.node.subtree := by
  rw [nodes_eq, nodes_eq, package, declarations, List.map_append, List.flatMap_append,
    List.append_assoc]
  simp

/-- A declaration behind a file that does not use its name has nothing to do with the file. -/
theorem unrelated_of_append (placed : longer.WellPlaced text)
    (package : longer.package = file.package)
    (declarations : longer.declarations = file.declarations ++ [added])
    (unused : ∀ node ∈ file.nodes, node.identifier? ≠ some added.name) :
    added.Unrelated file.Contains file.declarations := by
  have inFile {declared : TopLevel} (isDeclared : declared ∈ file.declarations) {below : Node}
      (isBelow : below ∈ declared.node.subtree) : below ∈ file.nodes :=
    mem_nodes_of_mem_declarationNodes
      (List.mem_flatMap.mpr ⟨_, List.mem_map_of_mem isDeclared, isBelow⟩)
  constructor
  · exact fun _ isDeclared _ isBelow => contains_of_mem_nodes (inFile isDeclared isBelow)
  · exact fun _ isDeclared _ isBelow => unused _ (inFile isDeclared isBelow)
  · intro node isAdded isOld
    have nodes := nodes_of_append package declarations
    have inLonger : node ∈ longer.nodes := nodes ▸ List.mem_append_right _ isAdded
    have distinct := placed.nodup_refs
    rw [nodes, List.map_append, List.nodup_append] at distinct
    rw [Contains, subtree_eq, List.map_cons, List.mem_cons] at isOld
    rcases isOld with isRoot | isOld
    · exact kind_ne_file_of_mem_nodes inLonger (congrArg NodeRef.kind isRoot)
    · exact distinct.2.2 _ isOld _ (List.mem_map_of_mem isAdded) rfl

end Tree.File

namespace ResolutionState

/-- Both files are resolved, and the same is found in the first one. -/
theorem exists_preserved_resolveFile {file longer : File} {added : TopLevel}
    {text more : List Char} (placed : file.WellPlaced text) (placedLonger : longer.WellPlaced more)
    (declarations : longer.declarations = file.declarations ++ [added])
    (unrelated : added.Unrelated file.Contains file.declarations) :
    ∃ base other total laterTotal,
      Unfolds file.declarations base ((resolveFile file).run .initial).2 total ∧
        Unfolds (file.declarations ++ [added]) other ((resolveFile longer).run .initial).2
            laterTotal ∧
          Preserved file.Contains added ((resolveFile file).run .initial).2
            ((resolveFile longer).run .initial).2 total laterTotal := by
  obtain ⟨base, laid, played, continues⟩ := exists_played file placed.fillsOnce
  obtain ⟨other, laidLonger, playedLonger, continuesLonger⟩ :=
    exists_played longer placedLonger.fillsOnce
  rw [declarations] at laidLonger playedLonger
  have completes := completes_resolveFile file placed.nodup_declaredNodes
  have settled : ∀ node, base.isOpenType node = true →
      ((resolveFile file).run .initial).2.inferred.get? node ≠ none := by
    intro node isOpen unknown
    obtain ⟨deferred, found⟩ := Option.isSome_iff_exists.mp isOpen
    refine completes.settled node ⟨?_, unknown⟩
    rw [continues.deferred]
    exact Table.mem_keys_of_get? found
  have extended : Extended file.Contains file.declarations added base other :=
    ⟨unrelated, laid, laidLonger⟩
  exact ⟨base, other, extended.exists_preserved played.enacted playedLonger.enacted continuesLonger
    settled⟩

end ResolutionState

namespace Resolution

/-- Two resolutions say the same about a node: what becomes of it as a reference, what type it has,
what it declares, and how all this is shown. -/
structure SameAt (node : NodeRef) (first second : Resolution) : Prop where
  target : first.target? node = second.target? node
  candidates : first.candidates? node = second.candidates? node
  unresolved : first.isUnresolved node = second.isUnresolved node
  type : first.type? node = second.type? node
  descriptor : first.descriptor? node = second.descriptor? node
  shownTarget : first.describeOption (first.target? node) =
    second.describeOption (second.target? node)
  shownCandidates : (first.candidates? node).map (List.map first.describe) =
    (second.candidates? node).map (List.map second.describe)
  shownDescriptor : first.describeOption (first.descriptor? node) =
    second.describeOption (second.descriptor? node)

variable {name nameLonger : String} {text more : List Char} {resolution longer : Resolution}
  {added : TopLevel}

theorem describeOption_eq_of_forall {descriptor : Option Descriptor}
    (same : ∀ shown ∈ descriptor, resolution.describe shown = longer.describe shown) :
    resolution.describeOption descriptor = longer.describeOption descriptor := by
  cases descriptor with
  | none => rfl
  | some shown => exact same shown rfl

/-- Where all that is written down about a file is preserved, its nodes mean the same, and what
they mean is shown alike. -/
theorem sameAt_of_preserved {home : NodeRef → Prop} {contents : List TopLevel}
    {base other : ResolutionState} {total laterTotal : List Remark}
    (unfolds : Unfolds contents base resolution.state total)
    (unfoldsLonger : Unfolds (contents ++ [added]) other longer.state laterTotal)
    (preserved : Preserved home added resolution.state longer.state total laterTotal)
    (once : TopLevel.FillsOnce contents) (onceLonger : TopLevel.FillsOnce (contents ++ [added]))
    (apart : ∀ below ∈ added.node.subtree, ¬ home below.ref) {node : NodeRef} (isHome : home node) :
    resolution.SameAt node longer := by
  have journals := preserved.sameAt (unfoldsLonger.nodup_total onceLonger) apart isHome
  have distinct := unfolds.nodup_total once
  have target : ∀ shown ∈ resolution.target? node, .meaning node (.target shown) ∈ total := by
    intro shown isTarget
    rw [← Journal.get?_targets_iff (distinct .meaning), ← unfolds.journal]
    exact isTarget
  have candidates : ∀ among ∈ resolution.candidates? node,
      .meaning node (.ambiguous among) ∈ total := by
    intro among areCandidates
    rw [← Journal.get?_ambiguous_iff (distinct .meaning), ← unfolds.journal]
    exact areCandidates
  have descriptor : ∀ shown ∈ resolution.descriptor? node, .declared node shown ∈ total := by
    intro shown isDeclared
    rw [← Journal.get?_declarations_iff (distinct .declaration), ← unfolds.journal]
    exact isDeclared
  rw [← unfolds.journal, ← unfoldsLonger.journal] at journals
  have sameTarget : resolution.target? node = longer.target? node := journals.target
  have sameCandidates : resolution.candidates? node = longer.candidates? node :=
    journals.candidates
  have sameDescriptor : resolution.descriptor? node = longer.descriptor? node :=
    journals.declaration
  exact
    { target := sameTarget
      candidates := sameCandidates
      unresolved := journals.unresolved
      type := journals.type
      descriptor := sameDescriptor
      shownTarget := by
        rw [← sameTarget]
        exact describeOption_eq_of_forall fun shown isTarget =>
          preserved.render_eq (preserved.shows _ (target shown isTarget))
      shownCandidates := by
        rw [← sameCandidates]
        refine Option.map_congr fun among areCandidates => List.map_congr_left fun shown isOne => ?_
        exact preserved.render_eq (preserved.shows _ (candidates among areCandidates) shown isOne)
      shownDescriptor := by
        rw [← sameDescriptor]
        exact describeOption_eq_of_forall fun shown isDeclared =>
          preserved.render_eq (preserved.shows _ (descriptor shown isDeclared)) }

/-- Adding an unrelated declaration changes nothing: if a text can be read, and another one is read
as the same declarations and one more that has a name of its own, then everything in the first
file means the same and is shown alike, and all problems are reported in the same order. -/
theorem sameAt_of_read (readable : read name text = .ok resolution)
    (readableLonger : read nameLonger more = .ok longer)
    (package : longer.file.package = resolution.file.package)
    (declarations : longer.file.declarations = resolution.file.declarations ++ [added])
    (unused : ∀ node ∈ resolution.file.nodes, node.identifier? ≠ some added.name) :
    (∀ node ∈ (Node.file resolution.file).subtree, resolution.SameAt node.ref longer) ∧
      resolution.diagnostics.Sublist longer.diagnostics := by
  obtain ⟨file, parsed, rfl⟩ := eq_ofFile_of_read readable
  obtain ⟨fileLonger, parsedLonger, rfl⟩ := eq_ofFile_of_read readableLonger
  have placed := Grammar.wellPlaced_of_read parsed
  have placedLonger := Grammar.wellPlaced_of_read parsedLonger
  have unrelated := File.unrelated_of_append placedLonger package declarations unused
  obtain ⟨base, other, total, laterTotal, unfolds, unfoldsLonger, preserved⟩ :=
    exists_preserved_resolveFile placed placedLonger declarations unrelated
  have onceLonger : TopLevel.FillsOnce (file.declarations ++ [added]) :=
    declarations ▸ placedLonger.fillsOnce
  refine ⟨fun node inFile => ?_, ?_⟩
  · exact sameAt_of_preserved unfolds unfoldsLonger preserved placed.fillsOnce onceLonger
      unrelated.apart (List.mem_map_of_mem inFile)
  · have reported : (ofFile name text file).diagnostics = total.filterMap Remark.problem? :=
      unfolds.diagnostics
    have reportedLonger : (ofFile nameLonger more fileLonger).diagnostics =
        laterTotal.filterMap Remark.problem? := unfoldsLonger.diagnostics
    rw [reported, reportedLonger]
    exact preserved.sublist.filterMap Remark.problem?

/-- A function that depends on itself and two unknown names: a further function asks for the type of
the first one and is wrong itself, but what was reported still is. -/
theorem sameAt_of_read_recursion :
    ∃ resolution longer added,
      read "sample" "fun a() = a()\nval b: C = d".toList = .ok resolution ∧
        read "sample" "fun a() = a()\nval b: C = d\nfun e(x: F) = a()".toList = .ok longer ∧
          longer.file.package = resolution.file.package ∧
            longer.file.declarations = resolution.file.declarations ++ [added] ∧
              (∀ node ∈ resolution.file.nodes, node.identifier? ≠ some added.name) ∧
      (resolution.diagnostics.map fun found => found.problem.label) =
          ["unresolved-reference", "recursive-type", "unresolved-reference"] ∧
        (longer.diagnostics.map fun found => found.problem.label) =
            ["unresolved-reference", "unresolved-reference", "recursive-type",
              "unresolved-reference"] ∧
          (∀ node ∈ (Node.file resolution.file).subtree, resolution.SameAt node.ref longer) ∧
            resolution.diagnostics.Sublist longer.diagnostics := by
  have checked :
      ((read "sample" "fun a() = a()\nval b: C = d".toList).toOption.any fun resolution => decide
        (((read "sample" "fun a() = a()\nval b: C = d\nfun e(x: F) = a()".toList).toOption.any
          fun longer => decide (∃ added ∈ longer.file.declarations.getLast?,
            longer.file.package = resolution.file.package ∧
              longer.file.declarations = resolution.file.declarations ++ [added] ∧
                (∀ node ∈ resolution.file.nodes, node.identifier? ≠ some added.name) ∧
            (resolution.diagnostics.map fun found => found.problem.label) =
                ["unresolved-reference", "recursive-type", "unresolved-reference"] ∧
              (longer.diagnostics.map fun found => found.problem.label) =
                ["unresolved-reference", "unresolved-reference", "recursive-type",
                  "unresolved-reference"])) = true)) = true := by
    decide +kernel
  obtain ⟨resolution, readable, checkedLonger⟩ := exists_of_read checked
  obtain ⟨longer, readableLonger, added, -, package, declarations, unused, labels, labelsLonger⟩ :=
    exists_of_read checkedLonger
  exact ⟨resolution, longer, added, readable, readableLonger, package, declarations, unused, labels,
    labelsLonger, sameAt_of_read readable readableLonger package declarations unused⟩

end Resolution

end Gloss
