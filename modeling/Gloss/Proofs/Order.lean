import Gloss.Proofs.Audit.Visits
import Gloss.Proofs.Order.Confluence
import Gloss.Proofs.Resolution.Outcomes

/-!
# The order of declarations

As long as no name is declared twice and no declaration depends on itself, the order of
the declarations of a file does not matter.  Which declaration asks for the type of which
other one, and when, changes with the order, but all questions about the file have the
same answers.
-/

/-!
### Orders agree

In whatever order the declarations of a file stand, in the end the same types are known
and everything that was written down is the same.
-/

namespace Gloss

open Gloss.Tree ResolutionState

theorem Remark.filled_flatMap {α : Type} (written : α → List Remark) (pieces : List α) :
    filled (pieces.flatMap written) = (pieces.map fun piece => filled (written piece)).sum := by
  induction pieces with
  | nil => rfl
  | cons first rest ih =>
      rw [List.flatMap_cons, filled_append, ih, List.map_cons, List.sum_cons]

theorem Remark.filled_perm {remarks others : List Remark} (perm : remarks.Perm others) :
    filled remarks = filled others :=
  funext fun slot => Multiset.coe_eq_coe.mpr (perm.filterMap (node? slot))

/-- A sum over some things is at most that over all of them. -/
theorem sum_map_le_of_subset {first second : List NodeRef} (once : first.Nodup)
    (included : first ⊆ second) (count : NodeRef → Slot → Multiset NodeRef) :
    (first.map count).sum ≤ (second.map count).sum := by
  obtain ⟨rest, split⟩ := Multiset.le_iff_exists_add.mp
    (Multiset.coe_le.mpr (List.subperm_of_subset once included))
  have sums := congrArg (fun nodes : Multiset NodeRef => (nodes.map count).sum) split
  rw [Multiset.map_add, Multiset.sum_add, Multiset.map_coe, Multiset.map_coe, Multiset.sum_coe,
    Multiset.sum_coe] at sums
  rw [sums]
  exact fun slot => Multiset.le_add_right _ _

namespace ResolutionState

variable {first second contents : List TopLevel} {base other after afterOther : ResolutionState}
  {settlements others : List Settlement}

/-! ### What is filled -/

/-- What was put off for a member is its body, if that decides its type. -/
theorem Laid.openFilled_eq (laid : base.Laid contents) {site : Site}
    (isSite : site ∈ TopLevel.sitesOf contents) :
    base.openFilled site.member.node.ref =
      Node.filledOf? (site.member.openBody?.map Node.expression) := by
  obtain ⟨scope, -, -, put⟩ := laid.placed site isSite
  rw [openFilled, put, Option.map_map]
  rfl

/-- The bodies that are checked, and some that were put off, fill no slots but their own. -/
theorem Laid.filled_bodies_le (laid : base.Laid contents) {sites : List Site}
    (inFile : ∀ site ∈ sites, site ∈ TopLevel.sitesOf contents) {nodes : List NodeRef}
    (distinct : nodes.Nodup) (included : nodes ⊆ sites.map fun site => site.member.node.ref) :
    (sites.map fun site => Node.filledOf? site.member.checkedBody?).sum +
        (nodes.map base.openFilled).sum ≤
      (sites.map fun site => site.member.bodyFilled).sum := by
  have opened : (nodes.map base.openFilled).sum ≤
      (sites.map fun site => Node.filledOf? (site.member.openBody?.map Node.expression)).sum := by
    refine (sum_map_le_of_subset distinct included base.openFilled).trans_eq ?_
    rw [List.map_map]
    exact congrArg List.sum
      (List.map_congr_left fun site isSite => laid.openFilled_eq (inFile site isSite))
  have bodies : (sites.map fun site => site.member.bodyFilled).sum =
      (sites.map fun site => Node.filledOf? site.member.checkedBody?).sum +
        (sites.map fun site => Node.filledOf? (site.member.openBody?.map Node.expression)).sum := by
    rw [← List.sum_map_add]
    exact congrArg List.sum (List.map_congr_left fun site _ => add_comm _ _)
  rw [bodies]
  exact fun slot => add_le_add_right (opened slot) _

/-- The heads, the checks and some of the bodies that were put off fill no slot twice. -/
theorem Laid.nodup_of_filled (laid : base.Laid contents)
    (once : ∀ slot, ((contents.map fun declared => declared.node.filled).sum slot).Nodup)
    {total : List Remark} {nodes : List NodeRef} (distinct : nodes.Nodup)
    (included : nodes ⊆ (TopLevel.sitesOf contents).map fun site => site.member.node.ref)
    (filled : Remark.filled total =
      Remark.filled (TopLevel.remarks contents) +
        ((TopLevel.sitesOf contents).map fun site =>
          Node.filledOf? site.member.checkedBody?).sum + (nodes.map base.openFilled).sum)
    (slot : Slot) : (Remark.nodes slot total).Nodup := by
  have whole : Remark.filled total ≤ (contents.map fun declared => declared.node.filled).sum := by
    have bodies := laid.filled_bodies_le (fun _ => id) distinct included
    rw [filled, TopLevel.sum_filled, ← TopLevel.map_member_sitesOf, List.map_map, add_assoc]
    exact fun slot => add_le_add_right (bodies slot) _
  exact Multiset.coe_nodup.mp (Multiset.nodup_of_le (whole slot) (once slot))

/-- What the body that decides a type writes down. -/
def bodyRemarks (base : ResolutionState) (known : InferredTypes) (node : NodeRef) : List Remark :=
  ((base.body? node).map fun script => script.remarks known).getD []

theorem bodyRemarks_congr {known more : InferredTypes}
    (same : ∀ node, known.get? node = more.get? node) (node : NodeRef) :
    base.bodyRemarks known node = base.bodyRemarks more node := by
  rw [bodyRemarks, bodyRemarks, funext fun script => Script.remarks_congr same script]

namespace Finished

theorem nodup_settled (finished : Finished contents base after settlements) :
    (settlements.map Settlement.node).Nodup :=
  finished.sound.once List.nodup_nil

/-- A settlement says what its body writes down in the end. -/
theorem exists_body (finished : Finished contents base after settlements)
    {settlement : Settlement} (isSettlement : settlement ∈ settlements) :
    ∃ script, base.body? settlement.node = some script ∧
      script.outcome after.inferred = some (settlement.type, settlement.remarks) := by
  rw [finished.inferred]
  exact finished.sound.outcome_of_mem List.nodup_nil isSettlement

/-- Only members are settled. -/
theorem settled_subset (finished : Finished contents base after settlements)
    (laid : base.Laid contents) :
    settlements.map Settlement.node ⊆
      (TopLevel.sitesOf contents).map fun site => site.member.node.ref := by
  intro node isSettled
  obtain ⟨settlement, isSettlement, rfl⟩ := List.mem_map.mp isSettled
  obtain ⟨script, isBody, -⟩ := finished.exists_body isSettlement
  obtain ⟨deferred, found, -⟩ := Option.map_eq_some_iff.mp isBody
  obtain ⟨site, isSite, same, -⟩ := laid.exists_site found
  exact List.mem_map.mpr ⟨site, isSite, same⟩

theorem mem_settled_iff (finished : Finished contents base after settlements) {node : NodeRef} :
    node ∈ settlements.map Settlement.node ↔ after.inferred.get? node ≠ none := by
  have keys : (settlements.map Settlement.entry).map Prod.fst =
      settlements.map Settlement.node := by
    rw [List.map_map]
    rfl
  rw [finished.inferred, Table.get?, Ne, Table.lookupIn_eq_none_iff, keys, not_not]

/-- What the settlements say is what their bodies say in the end. -/
theorem flatMap_remarks (finished : Finished contents base after settlements) :
    settlements.flatMap Settlement.remarks =
      (settlements.map Settlement.node).flatMap (base.bodyRemarks after.inferred) := by
  rw [List.flatMap_map]
  refine List.flatMap_congr fun settlement isSettlement => ?_
  obtain ⟨script, isBody, outcome⟩ := finished.exists_body isSettlement
  rw [bodyRemarks, isBody, Option.map_some, Option.getD_some, Script.remarks_of_outcome outcome]

end Finished

/-! ### The same in the end -/

namespace Reordered

variable (reordered : Reordered first second base other)
  (finished : Finished first base after settlements)
  (finishedOther : Finished second other afterOther others)
  (same : ∀ node, after.inferred.get? node = afterOther.inferred.get? node)

/-- The same members are settled. -/
theorem settled_perm (finished : Finished first base after settlements)
    (finishedOther : Finished second other afterOther others)
    (same : ∀ node, after.inferred.get? node = afterOther.inferred.get? node) :
    (settlements.map Settlement.node).Perm (others.map Settlement.node) := by
  rw [List.perm_ext_iff_of_nodup finished.nodup_settled finishedOther.nodup_settled]
  intro node
  rw [finished.mem_settled_iff, finishedOther.mem_settled_iff, same]

include reordered

/-- Settling a type fills the slots of the body that decides it. -/
theorem alike_bodyRemarks (finished : Finished first base after settlements) {node : NodeRef}
    (isSettled : node ∈ settlements.map Settlement.node) :
    List.Forall₂ Remark.Alike (base.bodyRemarks after.inferred node)
        (other.bodyRemarks after.inferred node) ∧
      Remark.filled (base.bodyRemarks after.inferred node) = base.openFilled node := by
  obtain ⟨settlement, isSettlement, rfl⟩ := List.mem_map.mp isSettled
  obtain ⟨script, isBody, outcome⟩ := finished.exists_body isSettlement
  obtain ⟨counterpart, isCounterpart, alike⟩ := reordered.alike_body? isBody
  obtain ⟨_, remarks, found, -, alikeRemarks, filled⟩ := alike.exists_outcome outcome
  rw [bodyRemarks, isBody, bodyRemarks, isCounterpart]
  simp only [Option.map_some, Option.getD_some, Script.remarks_of_outcome outcome,
    Script.remarks_of_outcome found]
  exact ⟨alikeRemarks, filled⟩

/-- No slot is filled twice. -/
theorem nodup_written (finished : Finished first base after settlements) {total : List Remark}
    (perm : total.Perm (TopLevel.remarks first ++
      ((TopLevel.sitesOf first).flatMap fun site =>
          (base.siteScript site).remarks after.inferred) ++
        settlements.flatMap Settlement.remarks))
    (once : ∀ slot, ((first.map fun declared => declared.node.filled).sum slot).Nodup)
    (slot : Slot) : (Remark.nodes slot total).Nodup := by
  have checked : Remark.filled ((TopLevel.sitesOf first).flatMap fun site =>
      (base.siteScript site).remarks after.inferred) =
        ((TopLevel.sitesOf first).map fun site =>
          Node.filledOf? site.member.checkedBody?).sum := by
    rw [Remark.filled_flatMap]
    refine congrArg List.sum (List.map_congr_left fun site isSite => ?_)
    exact (reordered.exists_outcome isSite (finished.checks site isSite)).2.2
  have settled : Remark.filled (settlements.flatMap Settlement.remarks) =
      ((settlements.map Settlement.node).map base.openFilled).sum := by
    rw [finished.flatMap_remarks, Remark.filled_flatMap,
      List.map_congr_left fun node isSettled =>
        (reordered.alike_bodyRemarks finished isSettled).2]
  refine reordered.laid.nodup_of_filled once finished.nodup_settled
    (finished.settled_subset reordered.laid) ?_ slot
  rw [Remark.filled_perm perm, Remark.filled_append, Remark.filled_append, checked, settled]

include finished finishedOther same

/-- In the end the same is written down in both orders. -/
theorem allAlike_written :
    Remark.AllAlike
      (TopLevel.remarks first ++
        ((TopLevel.sitesOf first).flatMap fun site =>
            (base.siteScript site).remarks after.inferred) ++
          settlements.flatMap Settlement.remarks)
      (TopLevel.remarks second ++
        ((TopLevel.sitesOf second).flatMap fun site =>
            (other.siteScript site).remarks afterOther.inferred) ++
          others.flatMap Settlement.remarks) := by
  have declared := Remark.AllAlike.of_perm
    (TopLevel.remarks_perm reordered.perm reordered.pairwise)
  have checked : Remark.AllAlike
      ((TopLevel.sitesOf first).flatMap fun site => (base.siteScript site).remarks after.inferred)
      ((TopLevel.sitesOf second).flatMap fun site =>
        (other.siteScript site).remarks afterOther.inferred) := by
    refine .flatMap (TopLevel.sitesOf_perm reordered.perm reordered.pairwise) fun site isSite => ?_
    rw [← Script.remarks_congr same (other.siteScript site)]
    exact (reordered.exists_outcome isSite (finished.checks site isSite)).2.1
  have settled : Remark.AllAlike (settlements.flatMap Settlement.remarks)
      (others.flatMap Settlement.remarks) := by
    rw [finished.flatMap_remarks, finishedOther.flatMap_remarks]
    refine .flatMap (settled_perm finished finishedOther same) fun node isSettled => ?_
    rw [← bodyRemarks_congr same]
    exact (reordered.alike_bodyRemarks finished isSettled).1
  exact (declared.append checked).append settled

/-- The order of declarations does not matter: what is known in the end is the same. -/
theorem alike_journal
    (once : ∀ slot, ((first.map fun declared => declared.node.filled).sum slot).Nodup) :
    after.journal.Alike afterOther.journal := by
  obtain ⟨total, journal, perm⟩ := finished.written
  obtain ⟨totalOther, journalOther, permOther⟩ := finishedOther.written
  rw [journal, journalOther]
  refine Journal.alike_remarkAll ?_ (reordered.nodup_written finished perm once)
  exact ((reordered.allAlike_written finished finishedOther same).perm_left perm).perm_right
    permOther.symm

end Reordered

end ResolutionState

end Gloss

/-! ### Files in another order -/

namespace Gloss

open Gloss.Tree ResolutionState Resolver

namespace Tree

namespace TopLevel

variable {first second : List TopLevel}

/-- No slot of a node is filled twice in some declarations. -/
def FillsOnce (contents : List TopLevel) : Prop :=
  ∀ slot, ((contents.map fun declared => declared.node.filled).sum slot).Nodup

theorem FillsOnce.distinct (once : FillsOnce first) : Distinct first := once .declaration

theorem FillsOnce.of_perm (once : FillsOnce first) (perm : first.Perm second) :
    FillsOnce second := by
  unfold FillsOnce
  rw [← (perm.map fun declared => declared.node.filled).sum_eq]
  exact once

/-- What belongs to all members is summed up site by site. -/
theorem sum_map_sitesOf {M : Type} [AddCommMonoid M] (amount : Member → M)
    (contents : List TopLevel) :
    ((sitesOf contents).map fun site => amount site.member).sum =
      (contents.map fun declared => (declared.members.map amount).sum).sum := by
  rw [← sum_map_members, ← map_member_sitesOf, List.map_map]
  rfl

end TopLevel

namespace File

variable {file : File}

theorem nodup_declaredNodes (once : TopLevel.FillsOnce file.declarations) :
    file.declaredNodes.Nodup := by
  have declared := once .declaration
  rw [Pi.list_sum_apply, List.map_map] at declared
  exact declared

theorem WellPlaced.fillsOnce {text : List Char} (placed : file.WellPlaced text) :
    TopLevel.FillsOnce file.declarations := by
  intro slot
  have once := placed.nodup_filled slot
  rw [tally, Tally.fst_sum] at once
  simpa only [TopLevel.fst_tally] using once

end File

end Tree

namespace ResolutionState

/-- Resolving a file declares it and then plays the scripts of all its checks, for which it
goes on with what is declared. -/
theorem exists_played (file : File) (once : TopLevel.FillsOnce file.declarations) :
    ∃ base : ResolutionState, base.Laid file.declarations ∧
      base.Played (base.checkScript (TopLevel.sitesOf file.declarations)) base ()
          ((resolveFile file).run .initial).2 ∧
        base.Continues ((resolveFile file).run .initial).2 := by
  have declares : Takes .initial (declareFile file) _ _ _ fun _ base =>
      base.Laid file.declarations := fun grounded distinct =>
    ⟨(takes_declareFile file grounded distinct).1,
      fresh_initial.declareFile file once.distinct⟩
  have resolves : Takes .initial (resolveFile file) file.declaredNodes
      ((file.members.map fun member => {member.node.ref}).sum + 0) file.references fun _ after =>
      ∃ base : ResolutionState, base.Laid file.declarations ∧
        base.Played (base.checkScript (TopLevel.sitesOf file.declarations)) base () after ∧
          base.Continues after := by
    rw [file.declaredNodes_eq, file.references_eq, ← TopLevel.sum_map_sitesOf,
      ← TopLevel.sum_map_sitesOf]
    apply declares.bind
    intro _ base _ laid
    rw [checkContents_eq, ← TopLevel.map_member_sitesOf]
    refine Takes.weaken (takes_checkSites laid laid.continues (fun _ isSite => isSite) ?_)
      fun _ _ played => ⟨base, laid, played⟩
    exact fun site isSite => laid.get?_declarations once.distinct isSite
  refine (resolves grounded_initial ?_).2
  exact (zero_add file.declaredNodes).symm ▸ file.nodup_declaredNodes once

variable {contents : List TopLevel} {base after : ResolutionState}

/-- Where no name is reported to be declared twice, the symbols of a file may stand side by
side. -/
theorem Laid.pairwise_level (laid : base.Laid contents)
    (played : base.Played (base.checkScript (TopLevel.sitesOf contents)) base () after)
    (agrees : ∀ found ∈ after.diagnostics, ∀ name, found.problem ≠ .redeclaration name) :
    (TopLevel.level contents).Pairwise Symbol.Compatible := by
  refine TopLevel.pairwise_level fun remark isWritten found name isProblem => ?_
  subst isProblem
  have diagnostics := congrArg Journal.diagnostics laid.journal
  rw [Journal.diagnostics_remarkAll] at diagnostics
  change base.diagnostics = _ at diagnostics
  refine agrees found (played.reports ?_) name
  rw [diagnostics]
  exact List.mem_append_right _ (List.mem_filterMap.mpr ⟨_, isWritten, rfl⟩)

/-- The declarations of a file can be put into another order: unless a name is declared
twice or a declaration depends on itself, the same is known and written down in the end. -/
theorem alike_resolveFile {file : File} (other : File)
    (perm : file.declarations.Perm other.declarations)
    (once : TopLevel.FillsOnce file.declarations)
    (agrees : ∀ found ∈ ((resolveFile file).run .initial).2.diagnostics, ∀ name,
      found.problem ≠ .redeclaration name)
    (notRecursive : ¬ ((resolveFile file).run .initial).2.IsRecursive) :
    ((resolveFile file).run .initial).2.journal.Alike
        ((resolveFile other).run .initial).2.journal ∧
      ∀ node, ((resolveFile file).run .initial).2.inferred.get? node =
        ((resolveFile other).run .initial).2.inferred.get? node := by
  obtain ⟨base, laid, played, -⟩ := exists_played file once
  obtain ⟨baseOther, laidOther, playedOther, -⟩ := exists_played other (once.of_perm perm)
  generalize ((resolveFile file).run .initial).2 = after at agrees notRecursive played ⊢
  generalize ((resolveFile other).run .initial).2 = afterOther at playedOther ⊢
  have reordered : Reordered file.declarations other.declarations base baseOther :=
    ⟨perm, laid.pairwise_level played agrees, laid, laidOther⟩
  -- Each order answers all demands that the other one makes, so neither of them can come
  -- to know a type that the other does not know.
  obtain ⟨notRecursiveOther, included⟩ := reordered.follows played playedOther notRecursive
  obtain ⟨-, includedOther⟩ := reordered.symm.follows playedOther played notRecursiveOther
  have same : ∀ node, after.inferred.get? node = afterOther.inferred.get? node := fun node =>
    Option.ext fun type => ⟨includedOther node type, included node type⟩
  obtain ⟨settlements, finished⟩ := laid.exists_finished played notRecursive
  obtain ⟨others, finishedOther⟩ := laidOther.exists_finished playedOther notRecursiveOther
  exact ⟨reordered.alike_journal finished finishedOther same once, same⟩

end ResolutionState

namespace Resolution

/-- Two resolutions answer all questions alike.  References have the same targets and the
same candidates, nodes have the same types, declarations declare and show the same, and the
same problems are reported at the same nodes.  Candidates and problems may be listed in any
order. -/
structure Alike (first second : Resolution) : Prop where
  targets : ∀ reference, first.target? reference = second.target? reference
  candidates : ∀ reference,
    Option.Rel List.Perm (first.candidates? reference) (second.candidates? reference)
  unresolved : ∀ reference, first.isUnresolved reference = second.isUnresolved reference
  types : ∀ node, first.type? node = second.type? node
  descriptors : ∀ declaration, first.descriptor? declaration = second.descriptor? declaration
  descriptions : ∀ declaration,
    first.describeOption (first.descriptor? declaration) =
      second.describeOption (second.descriptor? declaration)
  diagnostics : first.diagnostics.Perm second.diagnostics

/-- Descriptors show the same where the same types were inferred. -/
theorem describeOption_congr {first second : Resolution}
    (same : ∀ node, first.state.inferred.get? node = second.state.inferred.get? node)
    (descriptor : Option Descriptor) :
    first.describeOption descriptor = second.describeOption descriptor := by
  cases descriptor with
  | none => rfl
  | some descriptor => exact Descriptor.render_congr fun node _ => same node

/-- The order of declarations does not matter: if a text can be read, and neither is a name
declared twice nor does a declaration depend on itself, then with its declarations in any
other order everything means the same. -/
theorem alike_ofFile_of_read {name : String} {text : List Char} {resolution : Resolution}
    {declarations : List TopLevel} (readable : read name text = .ok resolution)
    (noRedeclaration : ∀ found ∈ resolution.diagnostics,
      found.problem.label ≠ "redeclaration")
    (noRecursion : ∀ found ∈ resolution.diagnostics, found.problem.label ≠ "recursive-type")
    (perm : resolution.file.declarations.Perm declarations) :
    resolution.Alike (ofFile name text { resolution.file with declarations }) := by
  obtain ⟨file, parsed, rfl⟩ := eq_ofFile_of_read readable
  have once := (Grammar.wellPlaced_of_read parsed).fillsOnce
  have agrees : ∀ found ∈ ((resolveFile file).run .initial).2.diagnostics, ∀ taken,
      found.problem ≠ .redeclaration taken := by
    intro found isReported taken same
    exact noRedeclaration found isReported (congrArg Problem.label same)
  have notRecursive : ¬ ((resolveFile file).run .initial).2.IsRecursive := by
    rintro ⟨found, isReported, itself, same⟩
    exact noRecursion found isReported (congrArg Problem.label same)
  obtain ⟨journals, inferred⟩ := alike_resolveFile { file with declarations } perm once agrees
    notRecursive
  exact
    { targets := journals.targets
      candidates := journals.ambiguous
      unresolved := journals.unresolved
      types := journals.types
      descriptors := journals.declarations
      descriptions := fun declaration =>
        (describeOption_congr inferred _).trans
          (congrArg _ (journals.declarations declaration))
      diagnostics := journals.diagnostics }

/-- The types of functions may be asked for in one order or another, through overloads and
through each other, and a mismatch is reported all the same. -/
theorem alike_ofFile_of_read_use_before_declaration :
    ∃ resolution, read "sample"
        "val d: String = a(c())\nfun a(x: Int) = c()\nfun a(x: String) = x\nfun c() = 1".toList =
          .ok resolution ∧
      resolution.file.declarations.length = 4 ∧
      (resolution.diagnostics.map fun found => found.problem.label) = ["type-mismatch"] ∧
      resolution.Alike (ofFile "sample"
        "val d: String = a(c())\nfun a(x: Int) = c()\nfun a(x: String) = x\nfun c() = 1".toList
          { resolution.file with declarations := resolution.file.declarations.reverse }) := by
  have computed :
      (match read "sample"
          "val d: String = a(c())\nfun a(x: Int) = c()\nfun a(x: String) = x\nfun c() = 1".toList with
        | .ok resolution => resolution.file.declarations.length = 4 ∧
            (resolution.diagnostics.map fun found => found.problem.label) = ["type-mismatch"]
        | .error _ => false) = true := by
    decide +kernel
  cases readable : read "sample"
      "val d: String = a(c())\nfun a(x: Int) = c()\nfun a(x: String) = x\nfun c() = 1".toList with
  | error fault =>
      rw [readable] at computed
      cases computed
  | ok resolution =>
      simp only [readable, decide_eq_true_eq] at computed
      obtain ⟨four, labels⟩ := computed
      have mismatch : ∀ found ∈ resolution.diagnostics,
          found.problem.label = "type-mismatch" := by
        intro found isReported
        have isLabel := List.mem_map_of_mem (f := fun found => found.problem.label) isReported
        rw [labels] at isLabel
        exact List.mem_singleton.mp isLabel
      have others : ∀ label, label ≠ "type-mismatch" →
          ∀ found ∈ resolution.diagnostics, found.problem.label ≠ label :=
        fun label different found isReported same =>
          different (same.symm.trans (mismatch found isReported))
      exact ⟨resolution, rfl, four, labels, alike_ofFile_of_read readable
        (others _ (by decide)) (others _ (by decide)) (List.reverse_perm _).symm⟩

end Resolution

end Gloss
