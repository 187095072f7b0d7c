import Gloss.Proofs.SelfAnnotation.Judgements
import Gloss.Proofs.Verification
import Mathlib.Logic.Function.Basic

/-!
# Texts that describe themselves

A text is marked with labels for its declarations and, for its references, with
what its own resolution says of them.  The check of the marked text takes the
markers out, resolves the same text again and finds every expectation met; a
marker that names another declaration is the one that fails.
-/

namespace Gloss

namespace Insertion

/-- What the reference markers among some insertions expect. -/
def expectations (insertions : List Insertion) : List Expectation :=
  (references insertions).map fun entry =>
    { aspect := .reference, position := entry.1, payload := entry.2 }

/-- Insertions in ascending order are judged in this order. -/
theorem inOrder_eq_expectations {insertions : List Insertion}
    (ascending : insertions.Pairwise fun first second => first.offset ≤ second.offset)
    (noTypes : typeAssertions insertions = []) (declarations : Table String Int) :
    Expectations.inOrder
      { declarations, references := ⟨references insertions⟩
        typeAssertions := ⟨typeAssertions insertions⟩ } = expectations insertions := by
  have sorted : (references insertions).Pairwise fun first second =>
      decide (first.1 ≤ second.1) = true := by
    apply List.pairwise_filterMap.mpr
    refine ascending.imp ?_
    intro earlier later order firstEntry isFirst secondEntry isSecond
    obtain ⟨first, assertion⟩ := earlier
    obtain ⟨second, other⟩ := later
    cases assertion with
    | reference payload =>
        cases other with
        | reference otherPayload =>
            cases isFirst
            cases isSecond
            simpa using order
        | declaration | type => cases isSecond
    | declaration | type => cases isFirst
  have types : Expectations.ofAspect .type ⟨[]⟩ = [] := by
    simp [Expectations.ofAspect, Expectations.ascending]
  have inOrder : Expectations.ofAspect .reference ⟨references insertions⟩ =
      expectations insertions := by
    rw [Expectations.ofAspect, Expectations.ascending, List.mergeSort_of_pairwise sorted]
    rfl
  rw [Expectations.inOrder, noTypes, types, inOrder, List.append_nil]

end Insertion

/-- What a payload before a reference expects. -/
def Node.expectation (node : Node) (payload : String) : Expectation :=
  { aspect := .reference, position := node.span.start, payload }

namespace Resolution

variable {name : String} {text : List Char} {resolution : Resolution}
  {label : NodeRef → String} {payload? : NodeRef → Option String}

/-- The check of a text whose nodes are marked with labels and payloads. -/
def checkMarked (name : String) (text : List Char) (file : Tree.File)
    (label : NodeRef → String) (payload? : NodeRef → Option String) :
    Except Fault (Verification NodeRef) :=
  check analyze {} name (annotate text (file.insertions label payload?))

theorem exists_binds (placed : resolution.file.WellPlaced text)
    (labels : resolution.file.Labels label) (payload? : NodeRef → Option String)
    (place : Int → Place) :
    ∃ table, resolution.file.Binds label table ∧
      Verification.bind resolution.analysis place .empty
          (Insertion.declarations (resolution.file.insertions label payload?)) = .ok table := by
  have located : ∀ entry ∈ Insertion.declarations (resolution.file.insertions label payload?),
      ∃ node, resolution.analysis.model.declarationAt entry.2 = some node ∧
        (node ∈ resolution.file.declaredNodes ∧ entry.1 = label node) := by
    intro entry member
    obtain ⟨node, inFile, declared, declares, rfl⟩ :=
      Tree.File.mem_declarations_insertions.mp member
    have isDeclaration := (Node.isDeclaration_of_declaredName? declares).1
    exact ⟨node.ref, placed.declarationAt inFile declares,
      Tree.File.mem_declaredNodes_of_mem_nodes inFile isDeclaration, rfl⟩
  obtain ⟨table, bound, complete, sound⟩ := Verification.bind_eq_ok place
    (fun name node => node ∈ resolution.file.declaredNodes ∧ name = label node) located .empty
  have only : ∀ name node, table.get? name = some node →
      node ∈ resolution.file.declaredNodes ∧ name = label node :=
    fun name node found => (sound name node found).resolve_left nofun
  refine ⟨table, ⟨?_, only⟩, bound⟩
  intro declaration isDeclared
  obtain ⟨node, inDeclarations, isDeclaration, rfl⟩ :=
    Tree.File.mem_declaredNodes_iff.mp isDeclared
  obtain ⟨declared, nameSpan, declares⟩ := Node.declaredName?_of_isDeclaration isDeclaration
  have inFile := Tree.File.mem_nodes_of_mem_declarationNodes inDeclarations
  have isEntry : (label node.ref, (nameSpan.start : Int)) ∈
      Insertion.declarations (resolution.file.insertions label payload?) :=
    Tree.File.mem_declarations_insertions.mpr ⟨node, inFile, _, declares, rfl⟩
  obtain ⟨found, isFound⟩ := Option.isSome_iff_exists.mp
    (complete (label node.ref) (.inr (List.mem_map.mpr ⟨_, isEntry, rfl⟩)))
  obtain ⟨known, sameLabel⟩ := only _ found isFound
  rw [isFound, labels.distinct _ isDeclared _ known sameLabel]

/-- The markers are taken out of a marked text and bound to its declarations. -/
theorem exists_judges (readable : read name text = .ok resolution)
    (placed : resolution.file.WellPlaced text) (labels : resolution.file.Labels label)
    (annotates : Annotates text (resolution.file.insertions label payload?)) :
    ∃ bench : Bench NodeRef Descriptor TypeConstructor, resolution.Judges label bench ∧
      checkMarked name text resolution.file label payload? =
        (Verification.judgeAll bench false
          (Insertion.expectations (resolution.file.insertions label payload?))).map
            fun findings => { file := name, declarations := bench.declared, findings } := by
  obtain ⟨cuts, run, markers⟩ := annotates.cuts
  have extracted : Fixture.extract name
      (annotate text (resolution.file.insertions label payload?)) = .ok _ :=
    Fixture.extract_of_cuts run (markers ▸ annotates.compatible)
  rw [markers, Insertion.ofMarkers_map_marker] at extracted
  generalize isFixture : Fixture.mk text _ _ name = fixture at extracted
  have names : fixture.expectations.declarations.entries =
      Insertion.declarations (resolution.file.insertions label payload?) := by
    rw [← isFixture]
  have inOrder : fixture.expectations.inOrder =
      Insertion.expectations (resolution.file.insertions label payload?) := by
    rw [← isFixture]
    exact Insertion.inOrder_eq_expectations Tree.File.ascending_insertions
      Tree.File.typeAssertions_insertions _
  have clean : fixture.text = text ∧ fixture.file = name := by
    rw [← isFixture]
    exact ⟨rfl, rfl⟩
  obtain ⟨table, binds, bound⟩ := exists_binds placed labels payload? fixture.place
  refine ⟨⟨resolution.analysis, {}, table, fixture.place⟩, ⟨rfl, rfl, binds⟩, ?_⟩
  simp only [checkMarked, check, extracted, analyze, clean, readable, Verification.verify, names,
    bound, inOrder]
  rfl

theorem expectation_mem_expectations {node : Node} (inFile : node ∈ resolution.file.nodes)
    (isReference : node.kind.isReference = true) {payload : String}
    (isGiven : payload? node.ref = some payload) :
    node.expectation payload ∈
      Insertion.expectations (resolution.file.insertions label payload?) := by
  have isEntry : ((node.span.start : Int), payload) ∈
      Insertion.references (resolution.file.insertions label payload?) :=
    Tree.File.mem_references_insertions.mpr ⟨node, inFile, isReference, payload, isGiven, rfl⟩
  exact List.mem_map.mpr ⟨_, isEntry, rfl⟩

/-- Every expectation is judged at the reference that was marked. -/
theorem judge_of_mem_expectations (placed : resolution.file.WellPlaced text)
    {bench : Bench NodeRef Descriptor TypeConstructor} (judges : resolution.Judges label bench)
    {expectation : Expectation}
    (expected : expectation ∈
      Insertion.expectations (resolution.file.insertions label payload?)) :
    ∃ node ∈ resolution.file.nodes, node.kind.isReference = true ∧ ∃ payload,
      payload? node.ref = some payload ∧ expectation = node.expectation payload ∧
        bench.judge expectation =
          bench.judgeReference (bench.place (node.span.start : Int)) node.ref payload := by
  obtain ⟨entry, isEntry, rfl⟩ := List.mem_map.mp expected
  obtain ⟨node, inFile, isReference, payload, isGiven, rfl⟩ :=
    Tree.File.mem_references_insertions.mp isEntry
  refine ⟨node, inFile, isReference, payload, isGiven, rfl, ?_⟩
  have found : bench.analysis.model.referenceAt (node.span.start : Int) = some node.ref := by
    rw [judges.analysis]
    exact placed.referenceAt inFile isReference
  simp only [Bench.judge, found]

/-- All payloads can be judged, and the judgement says which of them are met. -/
def Decides (resolution : Resolution) (label : NodeRef → String)
    (payload? : NodeRef → Option String) (isMet : NodeRef → Prop) : Prop :=
  ∀ bench : Bench NodeRef Descriptor TypeConstructor, resolution.Judges label bench →
    ∀ place reference payload, payload? reference = some payload →
      ∃ failure, bench.judgeReference place reference payload = .ok failure ∧
        (failure.isNone = true ↔ isMet reference)

/-- A finding at a marked reference, which passes where its payload is met. -/
def Concerns (resolution : Resolution) (payload? : NodeRef → Option String)
    (isMet : NodeRef → Prop) (finding : Finding) : Prop :=
  ∃ node ∈ resolution.file.nodes, node.kind.isReference = true ∧ ∃ payload,
    payload? node.ref = some payload ∧ finding.expectation = node.expectation payload ∧
      (finding.passed = true ↔ isMet node.ref)

/-- Where every payload can be judged, the check gives one finding for each, and
it passes where the payload is met. -/
theorem exists_verification (readable : read name text = .ok resolution)
    (unmarked : Unmarked text) (labels : resolution.file.Labels label) (isMet : NodeRef → Prop)
    (wellFormed : ∀ reference payload, payload? reference = some payload →
      (Assertion.reference payload).WellFormed)
    (decides : resolution.Decides label payload? isMet) :
    ∃ verification,
      checkMarked name text resolution.file label payload? = .ok verification ∧
        verification.findings.map Finding.expectation =
          Insertion.expectations (resolution.file.insertions label payload?) ∧
        ∀ finding ∈ verification.findings, resolution.Concerns payload? isMet finding := by
  have placed := (completes_of_read readable).1
  have annotates := Tree.File.annotates_insertions placed unmarked labels
    fun node _ _ => wellFormed node.ref
  obtain ⟨bench, judges, checked⟩ := exists_judges readable placed labels annotates
  have judged : ∀ expectation ∈
      Insertion.expectations (resolution.file.insertions label payload?), ∃ failure,
      bench.judge expectation = .ok failure ∧
        resolution.Concerns payload? isMet { expectation, failure } := by
    intro expectation expected
    obtain ⟨node, inFile, isReference, payload, isGiven, same, judgement⟩ :=
      judge_of_mem_expectations placed judges expected
    obtain ⟨failure, isVerdict, passes⟩ :=
      decides bench judges (bench.place (node.span.start : Int)) _ _ isGiven
    exact ⟨failure, judgement.trans isVerdict, node, inFile, isReference, payload, isGiven, same,
      passes⟩
  obtain ⟨findings, all, same, passes⟩ := Verification.exists_judgeAll _ judged
  rw [all] at checked
  exact ⟨_, checked, same, passes⟩

theorem nodup_expectations (placed : resolution.file.WellPlaced text) :
    (Insertion.expectations (resolution.file.insertions label payload?)).Nodup := by
  apply List.Nodup.of_map Expectation.position
  rw [Insertion.expectations, List.map_map]
  exact Tree.File.nodup_starts placed

/-- When one expectation fails and no other, it is the only one among the
failed ones. -/
theorem map_expectation_failed {findings : List Finding} {expectation : Expectation}
    (distinct : (findings.map Finding.expectation).Nodup)
    (expected : expectation ∈ findings.map Finding.expectation)
    (fails : ∀ finding ∈ findings,
      (finding.passed = false ↔ finding.expectation = expectation)) :
    (findings.filter fun finding => !finding.passed).map Finding.expectation = [expectation] := by
  have sameFilter : (findings.filter fun finding => !finding.passed) =
      findings.filter ((fun other => other == expectation) ∘ Finding.expectation) := by
    apply List.filter_congr
    intro finding inFindings
    have failsIff := fails finding inFindings
    rw [Bool.eq_iff_iff]
    simpa using failsIff
  rw [sameFilter, ← List.filter_map, List.filter_beq, List.count_eq_one_of_mem distinct expected]
  rfl

theorem decides_payload? (completes : Resolver.Completes resolution.file resolution.state)
    (distinct : resolution.file.references.Nodup) (labels : resolution.file.Labels label) :
    resolution.Decides label (resolution.payload? label) fun _ => True := by
  intro bench judges place reference payload suggested
  exact ⟨none, judgeReference_of_payload? completes distinct judges labels suggested, by simp⟩

/-- Only the payload that names another declaration is not met. -/
theorem decides_update (completes : Resolver.Completes resolution.file resolution.state)
    (distinct : resolution.file.references.Nodup) (labels : resolution.file.Labels label)
    {reference declaration other : NodeRef}
    (isDeclared : resolution.targetDeclaration? reference = some declaration)
    (otherDeclared : other ∈ resolution.file.declaredNodes) (different : other ≠ declaration)
    {payload : String} (named : resolution.Names label payload other) :
    resolution.Decides label
      (Function.update (resolution.payload? label) reference (some payload))
      fun marked => marked ≠ reference := by
  obtain ⟨target, hasTarget, -⟩ := Option.bind_eq_some_iff.mp isDeclared
  intro bench judges place marked given isGiven
  by_cases same : marked = reference
  · rw [same, Function.update_self, Option.some.injEq] at isGiven
    obtain ⟨fault, mismatch⟩ := judgeReference_of_ne completes judges labels hasTarget isDeclared
      otherDeclared different named
    rw [same, ← isGiven]
    exact ⟨some fault, mismatch, by simp⟩
  · rw [Function.update_of_ne same] at isGiven
    exact ⟨none, judgeReference_of_payload? completes distinct judges labels isGiven,
      by simp [same]⟩

theorem wellFormed_update {reference : NodeRef} {payload : String}
    (wellFormed : ∀ reference payload, payload? reference = some payload →
      (Assertion.reference payload).WellFormed)
    (replacement : (Assertion.reference payload).WellFormed) :
    ∀ marked given, Function.update payload? reference (some payload) marked = some given →
      (Assertion.reference given).WellFormed := by
  intro marked given isGiven
  by_cases same : marked = reference
  · rw [same, Function.update_self, Option.some.injEq] at isGiven
    exact isGiven ▸ replacement
  · rw [Function.update_of_ne same] at isGiven
    exact wellFormed marked given isGiven

/-- The finding that fails is the one for the replaced payload. -/
theorem Concerns.failed_iff (placed : resolution.file.WellPlaced text) {node : Node}
    (inFile : node ∈ resolution.file.nodes) (isReference : node.kind.isReference = true)
    {payload : String} {finding : Finding}
    (concerns : resolution.Concerns (Function.update payload? node.ref (some payload))
      (fun reference => reference ≠ node.ref) finding) :
    finding.passed = false ↔ finding.expectation = node.expectation payload := by
  obtain ⟨found, foundInFile, foundIsReference, given, isGiven, expects, passed⟩ := concerns
  rw [← Bool.not_eq_true, passed, not_not, expects]
  constructor
  · intro same
    rw [same, Function.update_self, Option.some.injEq] at isGiven
    have sameSpan : found.span = node.span := congrArg NodeRef.span same
    rw [isGiven, Node.expectation, sameSpan]
    rfl
  · intro same
    by_contra apart
    apply placed.start_ne_start foundInFile inFile foundIsReference isReference apart
    exact Int.ofNat.inj (congrArg Expectation.position same)

/-- A text that is marked with what its own resolution says passes its check;
what is left unmarked are the references to the library.  A marker that names
another declaration of the file than its reference means is the only one that
fails. -/
theorem checkMarked_of_read (readable : read name text = .ok resolution)
    (unmarked : Unmarked text) (labels : resolution.file.Labels label) :
    (∃ verification,
      checkMarked name text resolution.file label (resolution.payload? label) =
          .ok verification ∧
        verification.findings.map Finding.expectation =
          Insertion.expectations
            (resolution.file.insertions label (resolution.payload? label)) ∧
        verification.passed = true) ∧
    (∀ node ∈ resolution.file.nodes, node.kind.isReference = true →
      resolution.payload? label node.ref = none →
        ∃ target ∈ resolution.target? node.ref, target.original ∈ Library.descriptors) ∧
    ∀ node ∈ resolution.file.nodes, node.kind.isReference = true →
      ∀ declaration ∈ resolution.targetDeclaration? node.ref,
        ∀ other ∈ resolution.file.declaredNodes, other ≠ declaration →
          ∀ payload, resolution.Names label payload other →
            ∃ verification,
              checkMarked name text resolution.file label
                  (Function.update (resolution.payload? label) node.ref (some payload)) =
                .ok verification ∧
              verification.findings.map Finding.expectation =
                Insertion.expectations (resolution.file.insertions label
                  (Function.update (resolution.payload? label) node.ref (some payload))) ∧
              (verification.findings.filter fun finding => !finding.passed).map
                  Finding.expectation =
                [node.expectation payload] := by
  obtain ⟨placed, completes⟩ := completes_of_read readable
  have distinct := placed.nodup_references
  have wellFormed : ∀ reference payload, resolution.payload? label reference = some payload →
      (Assertion.reference payload).WellFormed :=
    fun _ _ => wellFormed_of_payload? completes distinct labels
  refine ⟨?_, ?_, ?_⟩
  · obtain ⟨verification, checked, findings, concerns⟩ := exists_verification readable unmarked
      labels _ wellFormed (decides_payload? completes distinct labels)
    refine ⟨verification, checked, findings, List.all_eq_true.mpr ?_⟩
    intro finding inFindings
    obtain ⟨_, -, -, _, -, -, passed⟩ := concerns finding inFindings
    exact passed.mpr trivial
  · intro node inFile isReference left
    exact mem_library_of_payload?_eq_none completes distinct
      (placed.mem_references_iff_notMem_packageNames inFile isReference).mpr left
  · intro node inFile isReference declaration isDeclared other otherDeclared different payload named
    have replacement := wellFormed_of_names labels otherDeclared named
    obtain ⟨verification, checked, findings, concerns⟩ := exists_verification readable unmarked
      labels _ (wellFormed_update wellFormed replacement)
      (decides_update completes distinct labels isDeclared otherDeclared different named)
    refine ⟨verification, checked, findings, map_expectation_failed ?_ ?_ ?_⟩
    · rw [findings]
      exact nodup_expectations placed
    · rw [findings]
      exact expectation_mem_expectations inFile isReference (Function.update_self _ _ _)
    · intro finding inFindings
      exact (concerns finding inFindings).failed_iff placed inFile isReference

/-- Labels for two declarations, of which the first begins its file. -/
def firstOrSecond (declaration : NodeRef) : String :=
  if declaration.span.start = 0 then "first" else "second"

theorem plain_firstOrSecond (declaration : NodeRef) : PlainLabel (firstOrSecond declaration) := by
  have plain : ∀ label ∈ ["first", "second"], PlainLabel label := by
    intro label isOne
    simp only [List.mem_cons, List.not_mem_nil, or_false] at isOne
    rcases isOne with rfl | rfl
    all_goals
      refine ⟨by decide, ?_, ?_, by decide⟩
      · intro delimiter
        cases delimiter <;> decide
      · intro sentinel
        cases sentinel <;> decide
  apply plain
  unfold firstOrSecond
  split <;> simp

/-- A value that another one is initialized with; naming the other one instead
is found out. -/
theorem checkMarked_of_read_two_values :
    ∃ resolution, read "sample" "val a = 1\nval b = a".toList = .ok resolution ∧
      resolution.file.Labels firstOrSecond ∧
      annotate "val a = 1\nval b = a".toList
          (resolution.file.insertions firstOrSecond (resolution.payload? firstOrSecond)) =
        "val ~first~a = 1\nval ~second~b = `first`a".toList ∧
      (∃ verification,
        checkMarked "sample" "val a = 1\nval b = a".toList resolution.file firstOrSecond
            (resolution.payload? firstOrSecond) = .ok verification ∧
          verification.passed = true) ∧
      ∃ node ∈ resolution.file.nodes, ∃ verification,
        checkMarked "sample" "val a = 1\nval b = a".toList resolution.file firstOrSecond
            (Function.update (resolution.payload? firstOrSecond) node.ref (some "second")) =
          .ok verification ∧
        (verification.findings.filter fun finding => !finding.passed).map
            Finding.expectation =
          [node.expectation "second"] := by
  have computed :
      (match read "sample" "val a = 1\nval b = a".toList with
        | .ok resolution =>
            decide (∀ first ∈ resolution.file.declaredNodes,
              ∀ second ∈ resolution.file.declaredNodes,
                firstOrSecond first = firstOrSecond second → first = second) &&
            (decide (let nodes := resolution.file.occurrences.map Occurrence.node
              nodes.filterMap (Node.labelInsertion? firstOrSecond) ++ nodes.filterMap
                  (Node.payloadInsertion? (resolution.payload? firstOrSecond)) =
                [⟨4, .declaration "first"⟩, ⟨14, .declaration "second"⟩,
                  ⟨18, .reference "first"⟩]) &&
            (decide (⟨.property, ⟨10, 19⟩⟩ ∈ resolution.file.declaredNodes) &&
            resolution.file.nodes.any fun node => node.kind.isReference &&
              decide (resolution.targetDeclaration? node.ref = some ⟨.property, ⟨0, 9⟩⟩)))
        | .error _ => false) = true := by
    decide +kernel
  have unmarked : Unmarked "val a = 1\nval b = a".toList := by
    intro delimiter
    cases delimiter <;> decide
  cases readable : read "sample" "val a = 1\nval b = a".toList with
  | error fault =>
      rw [readable] at computed
      cases computed
  | ok resolution =>
      simp only [readable, List.any_eq_true, Bool.and_eq_true, decide_eq_true_eq] at computed
      obtain ⟨distinct, inserted, otherDeclared, node, inFile, isReference, isDeclared⟩ := computed
      have marked : annotate "val a = 1\nval b = a".toList
          (resolution.file.insertions firstOrSecond (resolution.payload? firstOrSecond)) =
            "val ~first~a = 1\nval ~second~b = `first`a".toList := by
        rw [Tree.File.insertions, inserted, List.mergeSort_of_pairwise (by decide)]
        rfl
      have labels : resolution.file.Labels firstOrSecond :=
        ⟨fun declaration _ => plain_firstOrSecond declaration, distinct⟩
      obtain ⟨⟨verification, checked, -, passed⟩, -, fails⟩ :=
        checkMarked_of_read readable unmarked labels
      obtain ⟨failed, checkedAgain, -, failures⟩ :=
        fails node inFile isReference _ isDeclared _ otherDeclared (by decide) _ (.inl rfl)
      exact ⟨resolution, rfl, labels, marked, ⟨verification, checked, passed⟩, node, inFile,
        failed, checkedAgain, failures⟩

end Resolution

end Gloss
