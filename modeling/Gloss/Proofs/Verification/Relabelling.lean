import Gloss.Proofs.Verification
import Gloss.Proofs.Verification.Labels

/-!
# Verification under new labels

The declarations are bound under their new labels, each payload names the node
that it named before, and so the two verifications go on side by side.
-/

namespace Gloss

/-- An entry with the labels changed that it mentions. -/
def Expectation.relabel (prefixes : Prefixes) (labels : List String) (rename : String → String)
    (expectation : Expectation) : Expectation :=
  { expectation with
    payload := match expectation.aspect with
      | .reference => Expectations.relabelReference prefixes labels rename expectation.payload
      | .type => Expectations.relabelType labels rename expectation.payload }

namespace Expectations

variable {expectations : Expectations} {prefixes : Prefixes} {rename : String → String}
  {payload : String}

/-- How a payload of a reference can be touched by new labels. -/
inductive Mentions (labels : List String) (prefixes : Prefixes) : String → Prop where
  | label {label : String} (isLabel : label ∈ labels) : Mentions labels prefixes label
  | parameter {label : String} (isLabel : label ∈ labels)
      (notLabel : prefixes.parameter ++ label ∉ labels) :
      Mentions labels prefixes (prefixes.parameter ++ label)
  | nothing {payload : String} (notLabel : payload ∉ labels)
      (notParameter : ∀ label ∈ labels, payload ≠ prefixes.parameter ++ label) :
      Mentions labels prefixes payload

theorem mentions (labels : List String) (prefixes : Prefixes) (payload : String) :
    Mentions labels prefixes payload := by
  by_cases isLabel : payload ∈ labels
  · exact .label isLabel
  · by_cases isParameter : ∃ label ∈ labels, payload = prefixes.parameter ++ label
    · obtain ⟨label, inLabels, rfl⟩ := isParameter
      exact .parameter inLabels isLabel
    · exact .nothing isLabel fun label inLabels same => isParameter ⟨label, inLabels, same⟩

theorem relabelReference_of_mem {labels : List String} (isLabel : payload ∈ labels) :
    relabelReference prefixes labels rename payload = rename payload := by
  simp [relabelReference, isLabel]

theorem relabelReference_parameter {labels : List String} {label : String}
    (isLabel : label ∈ labels) (notLabel : prefixes.parameter ++ label ∉ labels) :
    relabelReference prefixes labels rename (prefixes.parameter ++ label) =
      prefixes.parameter ++ rename label := by
  simp [relabelReference, notLabel, isLabel, Text.startsWith_append, Text.dropFirst_append]

theorem relabelReference_of_nothing {labels : List String} (notLabel : payload ∉ labels)
    (notParameter : ∀ label ∈ labels, payload ≠ prefixes.parameter ++ label) :
    relabelReference prefixes labels rename payload = payload := by
  have untouched : ¬(Text.startsWith prefixes.parameter payload = true ∧
      Text.dropFirst prefixes.parameter.length payload ∈ labels) := by
    rintro ⟨starts, inLabels⟩
    exact notParameter _ inLabels (Text.append_dropFirst starts).symm
  simp only [relabelReference, notLabel, untouched, if_false]

theorem ascending_mapValues (table : Table Int String) (change : String → String) :
    ascending (table.mapValues change) =
      (ascending table).map fun entry => (entry.1, change entry.2) :=
  (List.map_mergeSort (f := fun entry : Int × String => (entry.1, change entry.2))
    fun _ _ _ _ => rfl).symm

theorem ofAspect_mapValues (aspect : Aspect) (table : Table Int String)
    (change : String → String) :
    ofAspect aspect (table.mapValues change) =
      (ofAspect aspect table).map fun expectation =>
        { expectation with payload := change expectation.payload } := by
  simp only [ofAspect, ascending_mapValues, List.map_map, Function.comp_def]

theorem inOrder_relabel (expectations : Expectations) :
    (expectations.relabel prefixes rename).inOrder =
      expectations.inOrder.map (.relabel prefixes expectations.labels rename) := by
  have sameAspect (aspect : Aspect) (table : Table Int String) (change : String → String)
      (changes : ∀ payload, change payload = match aspect with
        | .reference => relabelReference prefixes expectations.labels rename payload
        | .type => relabelType expectations.labels rename payload) :
      ofAspect aspect (table.mapValues change) =
        (ofAspect aspect table).map (.relabel prefixes expectations.labels rename) := by
    rw [ofAspect_mapValues]
    apply List.map_congr_left
    intro expectation member
    obtain ⟨entry, -, rfl⟩ := List.mem_map.mp member
    cases aspect <;> simp only [Expectation.relabel, changes]
  rw [inOrder, inOrder, List.map_append]
  exact congrArg₂ _ (sameAspect .reference _ _ fun _ => rfl) (sameAspect .type _ _ fun _ => rfl)

theorem mem_values_of_mem_ofAspect {aspect : Aspect} {table : Table Int String}
    {expectation : Expectation} (member : expectation ∈ ofAspect aspect table) :
    expectation.aspect = aspect ∧ expectation.payload ∈ table.values := by
  obtain ⟨entry, inTable, rfl⟩ := List.mem_map.mp member
  exact ⟨rfl, List.mem_map_of_mem (List.mem_mergeSort.mp inTable)⟩

/-- The entries in order come from the table of their aspect. -/
theorem payload_mem_of_mem_inOrder {expectation : Expectation}
    (member : expectation ∈ expectations.inOrder) :
    match expectation.aspect with
    | .reference => expectation.payload ∈ expectations.references.values
    | .type => expectation.payload ∈ expectations.typeAssertions.values := by
  rcases List.mem_append.mp member with isReference | isType
  · obtain ⟨aspect, inTable⟩ := mem_values_of_mem_ofAspect isReference
    simpa only [aspect] using inTable
  · obtain ⟨aspect, inTable⟩ := mem_values_of_mem_ofAspect isType
    simpa only [aspect] using inTable

end Expectations

namespace Bench

open Expectations

variable {ν δ κ : Type} {bench : Bench ν δ κ}

theorem expected?_of_label {payload : String} {node : ν}
    (found : bench.declared.get? payload = some node) :
    bench.expected? payload = some (.declaration node) := by
  simp only [expected?, found]

theorem expected?_of_parameter {payload : String}
    (unlabelled : bench.declared.get? payload = none)
    (kind : bench.classify payload = .constructorParameter) {node : ν}
    (found : bench.declared.get? (bench.parameterName payload) = some node) :
    bench.expected? payload = some (.constructorParameter node) := by
  simp only [expected?, unlabelled, kind, if_true, found]

theorem expected?_of_unlabelled {payload : String}
    (unlabelled : bench.declared.get? payload = none)
    (unlabelledBehind : bench.classify payload = .constructorParameter →
      bench.declared.get? (bench.parameterName payload) = none) :
    bench.expected? payload =
      (bench.analysis.externalNodes.get? payload).map .declaration := by
  have parameter : (if bench.classify payload = .constructorParameter then
      bench.declared.get? (bench.parameterName payload) else none) = none := by
    split
    · next kind => exact unlabelledBehind kind
    · rfl
  simp only [expected?, unlabelled, parameter]

section Relabelled

variable {expectations : Expectations} {rename : String → String} {place : Place}
  (relabels : expectations.Relabels bench.prefixes rename)
  (known : ∀ label, label ∈ bench.declared.keys ↔ label ∈ expectations.labels)

include relabels known

theorem exists_get?_label {label : String} (isLabel : label ∈ expectations.labels) :
    ∃ node, bench.declared.get? label = some node ∧
      (bench.relabel rename).declared.get? (rename label) = some node := by
  have found : bench.declared.get? label ≠ none := fun missing =>
    Table.get?_eq_none_iff.mp missing ((known label).mpr isLabel)
  obtain ⟨node, isNode⟩ := Option.ne_none_iff_exists'.mp found
  have moved : (bench.relabel rename).declared.get? (rename label) = bench.declared.get? label :=
    Table.get?_mapKeys fun other isKey same =>
      relabels.injective other ((known other).mp isKey) label isLabel same
  exact ⟨node, isNode, moved.trans isNode⟩

omit relabels in
theorem get?_eq_none_of_fresh {sought : String} (notLabel : sought ∉ expectations.labels)
    (fresh : ∀ label ∈ expectations.labels, rename label = sought → False) :
    bench.declared.get? sought = none ∧ (bench.relabel rename).declared.get? sought = none := by
  constructor
  · exact Table.get?_eq_none_iff.mpr fun isKey => notLabel ((known sought).mp isKey)
  · exact Table.get?_mapKeys_eq_none fun label isKey => fresh label ((known label).mp isKey)

/-- A label names its declaration under its old name and under its new one. -/
theorem expected?_relabel_label {label : String} (isLabel : label ∈ expectations.labels) :
    (bench.relabel rename).expected? (rename label) = bench.expected? label := by
  obtain ⟨node, found, moved⟩ := exists_get?_label relabels known isLabel
  rw [expected?_of_label found, expected?_of_label moved]

theorem expected?_relabel_parameter {label : String} (isLabel : label ∈ expectations.labels)
    (notLabel : bench.prefixes.parameter ++ label ∉ expectations.labels) :
    (bench.relabel rename).expected? (bench.prefixes.parameter ++ rename label) =
      bench.expected? (bench.prefixes.parameter ++ label) := by
  obtain ⟨node, found, moved⟩ := exists_get?_label relabels known isLabel
  have unlabelled : bench.declared.get? (bench.prefixes.parameter ++ label) = none :=
    Table.get?_eq_none_iff.mpr fun isKey => notLabel ((known _).mp isKey)
  -- A new label does not begin with the prefix, so none is this payload.
  have stillUnlabelled : (bench.relabel rename).declared.get?
      (bench.prefixes.parameter ++ rename label) = none := by
    apply Table.get?_mapKeys_eq_none
    intro other isKey same
    have notParameter := (relabels.new other ((known other).mp isKey)).notParameter
    rw [same, Text.startsWith_append] at notParameter
    cases notParameter
  rw [expected?_of_parameter unlabelled (relabels.old label isLabel).classify_parameter
      (by rw [parameterName, Text.dropFirst_append, found]),
    expected?_of_parameter stillUnlabelled (relabels.new label isLabel).classify_parameter
      (by rw [parameterName, relabel, Text.dropFirst_append]; exact moved)]

theorem expected?_relabel_of_nothing {payload : String}
    (isReference : payload ∈ expectations.references.values)
    (notLabel : payload ∉ expectations.labels)
    (notParameter : ∀ label ∈ expectations.labels,
      payload ≠ bench.prefixes.parameter ++ label) :
    (bench.relabel rename).expected? payload = bench.expected? payload := by
  obtain ⟨unlabelled, stillUnlabelled⟩ :=
    get?_eq_none_of_fresh known notLabel fun label isLabel same =>
      notLabel (same ▸ relabels.fresh label isLabel
        (same ▸ List.mem_append_left _ isReference))
  have behind (kind : bench.classify payload = .constructorParameter) :
      bench.declared.get? (bench.parameterName payload) = none ∧
        (bench.relabel rename).declared.get? (bench.parameterName payload) = none := by
    have starts : Text.startsWith bench.prefixes.parameter payload = true := by
      unfold classify PayloadKind.classify at kind
      split at kind
      · cases kind
      · split at kind
        · cases kind
        · split at kind
          · assumption
          · cases kind
    have whole : bench.prefixes.parameter ++ bench.parameterName payload = payload :=
      Text.append_dropFirst starts
    have notBehind : bench.parameterName payload ∉ expectations.labels := fun isLabel =>
      notParameter _ isLabel whole.symm
    refine get?_eq_none_of_fresh known notBehind fun label isLabel same => notBehind ?_
    rw [← same] at whole ⊢
    exact relabels.freshParameter label isLabel (whole ▸ isReference)
  rw [expected?_of_unlabelled unlabelled fun kind => (behind kind).1,
    expected?_of_unlabelled stillUnlabelled fun kind => (behind kind).2]
  rfl

variable [DecidableEq ν] [DecidableEq δ] [DecidableEq κ]

theorem alike_judgeReference_relabel {reference : ν} {payload : String}
    (isReference : payload ∈ expectations.references.values) :
    (bench.judgeReference place reference payload).Alike
      ((bench.relabel rename).judgeReference place reference
        (relabelReference bench.prefixes expectations.labels rename payload)) := by
  cases mentions expectations.labels bench.prefixes payload with
  | label isLabel =>
      rw [relabelReference_of_mem isLabel]
      have old : bench.classify payload = .name := (relabels.old payload isLabel).classify_eq
      have new : bench.classify (rename payload) = .name :=
        (relabels.new payload isLabel).classify_eq
      exact alike_judgeReference (new.trans old.symm)
        (expected?_relabel_label relabels known isLabel) fun notName _ => absurd old notName
  | @parameter label isLabel notLabel =>
      rw [relabelReference_parameter isLabel notLabel]
      have old := (relabels.old label isLabel).classify_parameter
      have new := (relabels.new label isLabel).classify_parameter
      exact alike_judgeReference (new.trans old.symm)
        (expected?_relabel_parameter relabels known isLabel notLabel)
        fun _ notParameter => absurd old notParameter
  | nothing notLabel notParameter =>
      rw [relabelReference_of_nothing notLabel notParameter]
      exact alike_judgeReference rfl
        (expected?_relabel_of_nothing relabels known isReference notLabel notParameter)
        fun _ _ => rfl

omit [DecidableEq ν] [DecidableEq δ] [DecidableEq κ] in
/-- The type that a payload asks for stays the same. -/
theorem alike_expectedConstructor (place : Place) {payload : String}
    (isType : payload ∈ expectations.typeAssertions.values) :
    EndsAlike (· = ·) (bench.expectedConstructor place payload)
      ((bench.relabel rename).expectedConstructor place
        (relabelType expectations.labels rename payload)) := by
  by_cases isLabel : payload ∈ expectations.labels
  · obtain ⟨node, found, moved⟩ := exists_get?_label relabels known isLabel
    have old : bench.classify payload = .name := (relabels.old payload isLabel).classify_eq
    have new : (bench.relabel rename).classify (rename payload) = .name :=
      (relabels.new payload isLabel).classify_eq
    have analysis : (bench.relabel rename).analysis = bench.analysis := rfl
    simp only [relabelType, isLabel, if_true, expectedConstructor, old, new, found, moved,
      analysis, reduceCtorEq, if_false]
    split
    · exact .error (.of (.unsupportedTypeAssertion _ _ _) place)
    · exact .ok rfl
  · obtain ⟨unlabelled, stillUnlabelled⟩ :=
      get?_eq_none_of_fresh known isLabel fun label inLabels same =>
        isLabel (same ▸ relabels.fresh label inLabels
          (same ▸ List.mem_append_right _ isType))
    have same : (bench.relabel rename).expectedConstructor place payload =
        bench.expectedConstructor place payload := by
      simp only [expectedConstructor, unlabelled, stillUnlabelled]
      rfl
    rw [relabelType, if_neg isLabel, same]
    cases bench.expectedConstructor place payload with
    | error fault => exact .error ⟨.same _, rfl⟩
    | ok constructor => exact .ok rfl

/-- Every entry is judged as before. -/
theorem alike_judge {expectation : Expectation}
    (member : expectation ∈ expectations.inOrder) :
    (bench.judge expectation).Alike
      ((bench.relabel rename).judge
        (expectation.relabel bench.prefixes expectations.labels rename)) := by
  have inTable := payload_mem_of_mem_inOrder member
  have model : (bench.relabel rename).analysis.model = bench.analysis.model := rfl
  have places : (bench.relabel rename).place = bench.place := rfl
  obtain ⟨aspect, position, payload⟩ := expectation
  cases aspect with
  | reference =>
      simp only [judge, Expectation.relabel, model, places]
      split
      · exact Verdict.alike_fault (.missingReference _ _) _
      · exact alike_judgeReference_relabel relabels known inTable
  | type =>
      simp only [judge, Expectation.relabel, model, places]
      split
      · exact Verdict.alike_fault (.missingExpression _ _) _
      · have constructors := alike_expectedConstructor relabels known (bench.place position) inTable
        refine EndsAlike.andThen ?_ constructors
        rintro expected _ rfl
        exact alike_judgeType position _ expected

end Relabelled

end Bench

namespace Fixture

theorem judged_relabel (fixture : Fixture) (options : Options) (rename : String → String) :
    (fixture.relabel options.prefixes rename).judged options =
      (fixture.judged options).map
        (.relabel options.prefixes fixture.expectations.labels rename) := by
  unfold judged
  split
  · rfl
  · exact Expectations.inOrder_relabel fixture.expectations

theorem mem_inOrder_of_mem_judged {fixture : Fixture} {options : Options}
    {expectation : Expectation} (member : expectation ∈ fixture.judged options) :
    expectation ∈ fixture.expectations.inOrder := by
  unfold judged at member
  split at member
  · cases member
  · exact member

end Fixture

namespace Verification

open Expectations

variable {ν δ κ : Type} {analysis : Analysis ν δ κ} {rename : String → String}

/-- Markers are bound to the same declarations under their new labels. -/
theorem alike_bind (analysis : Analysis ν δ κ) (place : Int → Place) {labels : List String}
    (injective : ∀ label ∈ labels, ∀ other ∈ labels, rename label = rename other → label = other)
    {declared : Table String ν} (known : ∀ label ∈ declared.keys, label ∈ labels)
    {entries : List (String × Int)} (listed : ∀ label ∈ entries.map Prod.fst, label ∈ labels) :
    EndsAlike
      (fun table relabelled =>
        relabelled = table.mapKeys rename ∧ ∀ label, label ∈ table.keys ↔
          label ∈ declared.keys ∨ label ∈ entries.map Prod.fst)
      (bind analysis place declared entries)
      (bind analysis place (declared.mapKeys rename)
        (entries.map fun entry => (rename entry.1, entry.2))) := by
  induction entries generalizing declared with
  | nil => exact .ok ⟨rfl, by simp⟩
  | cons entry rest ih =>
      obtain ⟨name, position⟩ := entry
      rw [List.map_cons, List.forall_mem_cons] at listed
      obtain ⟨isLabel, listed⟩ := listed
      simp only [List.map_cons, bind]
      split
      · exact .error (.of (.misplacedDeclaration _ _) _)
      · next node _ =>
          rw [Table.insert_mapKeys node fun other isKey =>
            injective other (known other isKey) name isLabel]
          have knownLater : ∀ label ∈ (declared.insert name node).keys, label ∈ labels := by
            intro label isKey
            rcases Table.mem_keys_insert.mp isKey with rfl | before
            · exact isLabel
            · exact known label before
          refine (ih knownLater listed).mono ?_
          rintro table _ ⟨rfl, keys⟩
          refine ⟨rfl, fun label => ?_⟩
          rw [keys, Table.mem_keys_insert, List.mem_cons, or_assoc, or_left_comm]

variable [DecidableEq ν] [DecidableEq δ] [DecidableEq κ]

/-- Two benches that judge entries alike come to findings that are alike, or
end at the same entry. -/
theorem alike_judgeAll {bench other : Bench ν δ κ} (failFast : Bool)
    (change : Expectation → Expectation)
    (aspect : ∀ expectation, (change expectation).aspect = expectation.aspect)
    (position : ∀ expectation, (change expectation).position = expectation.position)
    {expectations : List Expectation}
    (judged : ∀ expectation ∈ expectations,
      (bench.judge expectation).Alike (other.judge (change expectation))) :
    EndsAlike (List.Forall₂ Finding.Alike) (judgeAll bench failFast expectations)
      (judgeAll other failFast (expectations.map change)) := by
  induction expectations with
  | nil => exact .ok .nil
  | cons expectation rest ih =>
      obtain ⟨first, later⟩ := List.forall_mem_cons.mp judged
      have laterAlike := ih later
      have goesOn {failure otherFailure : Option Fault}
          (failures : Option.Rel Fault.Alike failure otherFailure) :
          EndsAlike (List.Forall₂ Finding.Alike)
            ((judgeAll bench failFast rest).map fun later =>
              { expectation, failure } :: later)
            ((judgeAll other failFast (rest.map change)).map fun later =>
              { expectation := change expectation, failure := otherFailure } :: later) :=
        laterAlike.map fun _ _ alike =>
          .cons ⟨(aspect expectation).symm, (position expectation).symm, failures⟩ alike
      rw [List.map_cons, judgeAll, judgeAll]
      generalize bench.judge expectation = verdict at first ⊢
      generalize other.judge (change expectation) = otherVerdict at first ⊢
      cases first with
      | error alike => exact .error alike
      | ok failures =>
          cases failures with
          | none => cases failFast <;> exact goesOn .none
          | some alike =>
              cases failFast with
              | false => exact goesOn (.some alike)
              | true => exact .error alike

theorem passed_eq_of_forall₂ {findings others : List Finding}
    (alike : List.Forall₂ Finding.Alike findings others) :
    others.map Finding.passed = findings.map Finding.passed := by
  induction alike with
  | nil => rfl
  | cons first later ih => rw [List.map_cons, List.map_cons, ih, first.passed]

/-- Labels are only labels: under new ones, put in wherever the old ones are
named, the same declarations are bound and the same entries pass and fail in
the same way, or the verification ends with a fault of the same kind at the
same place. -/
theorem verify_relabel (options : Options) (analysis : Analysis ν δ κ) (fixture : Fixture)
    {rename : String → String}
    (relabels : fixture.expectations.Relabels options.prefixes rename) :
    EndsAlike
      (fun report relabelled =>
        relabelled.declarations = report.declarations.mapKeys rename ∧
          relabelled.findings.map Finding.passed = report.findings.map Finding.passed ∧
            List.Forall₂ Finding.Alike report.findings relabelled.findings)
      (verify options analysis fixture)
      (verify options analysis (fixture.relabel options.prefixes rename)) := by
  have unbound : ∀ label ∈ (Table.empty : Table String ν).keys,
      label ∈ fixture.expectations.labels :=
    nofun
  have bound := alike_bind analysis fixture.place relabels.injective unbound fun _ isKey => isKey
  generalize old : bind analysis _ _ _ = run, new : bind analysis _ _ (List.map _ _) = relabelled
    at bound
  cases bound with
  | error alike =>
      rw [verify_eq_error old, verify_eq_error new]
      exact .error alike
  | @ok declared _ agree =>
      obtain ⟨rfl, keys⟩ := agree
      let bench : Bench ν δ κ := ⟨analysis, options.prefixes, declared, fixture.place⟩
      have known (label : String) :
          label ∈ bench.declared.keys ↔ label ∈ fixture.expectations.labels := by
        rw [keys]
        simp [Table.keys, Table.empty, labels]
      let change (expectation : Expectation) : Expectation :=
        expectation.relabel options.prefixes fixture.expectations.labels rename
      have each : ∀ expectation ∈ fixture.judged options,
          (bench.judge expectation).Alike ((bench.relabel rename).judge (change expectation)) :=
        fun _ member =>
          Bench.alike_judge relabels known (Fixture.mem_inOrder_of_mem_judged member)
      have judged := alike_judgeAll options.failFast change (fun _ => rfl) (fun _ => rfl) each
      rw [verify_eq_map old, verify_eq_map new, fixture.judged_relabel]
      refine judged.map fun findings others alike => ⟨rfl, ?_, alike⟩
      exact passed_eq_of_forall₂ alike

/-- A resolver by digits: what stands at an offset is known by the last digit
of the offset, and the parameter of a node comes right after the node. -/
def digits : Analysis Nat Nat Nat where
  model :=
    { declarationAt := fun position => some position.toNat
      referenceAt := fun position => some position.toNat
      expressionAt := fun position => some position.toNat
      target := fun node => some (node % 10)
      targetDeclaration := fun node => some (node % 10)
      isUnresolved := fun _ => false
      isAmbiguous := fun _ => false
      isError := fun _ => false
      type := fun node => some ⟨node % 10, "digit"⟩
      descriptor := some
      constructorParameter := fun node => some (node + 1)
      isParameter := fun _ => false
      unwrapVariable := id
      generic := id
      typeConstructor := some
      context := fun _ => { text := "digit", location := "1:1" } }
  wording := { node := toString, descriptor := fun _ => "digit", constructor := toString }
  classifier := fun _ => none

def exchangeable : Fixture where
  text := []
  expectations :=
    { declarations := ⟨[("a", 1), ("b", 2)]⟩
      references := ⟨[(11, "a"), (13, "$b"), (21, "b")]⟩
      typeAssertions := ⟨[(22, "b")]⟩ }
  markers := []
  file := "sample"

def exchange (label : String) : String :=
  if label = "a" then "b" else if label = "b" then "a" else label

/-- With two labels exchanged, the reference that failed under its old label
still fails, the parameter behind the prefix goes along with its label, and the
rest passes. -/
theorem verify_relabel_exchanged :
    exchangeable.expectations.Relabels {} exchange ∧
      ∃ report relabelled, verify {} digits exchangeable = .ok report ∧
        verify {} digits (exchangeable.relabel {} exchange) = .ok relabelled ∧
          report.findings.map Finding.passed = [true, true, false, true] ∧
            relabelled.findings.map Finding.passed = [true, true, false, true] := by
  have admits : ∀ label ∈ ["a", "b"], ({} : Prefixes).Admits label := by
    intro label isLabel
    simp only [List.mem_cons, List.not_mem_nil, or_false] at isLabel
    rcases isLabel with rfl | rfl <;>
      exact ⟨by decide, by decide, by decide, by decide, by decide⟩
  have relabels : exchangeable.expectations.Relabels {} exchange :=
    ⟨by decide, admits, fun label isLabel => admits _ (by revert label; decide), by decide,
      by decide⟩
  have computed : (verify {} digits exchangeable).toOption.map
      (fun report => report.findings.map Finding.passed) = some [true, true, false, true] := by
    have entries : exchangeable.expectations.inOrder =
        [⟨.reference, 11, "a"⟩, ⟨.reference, 13, "$b"⟩, ⟨.reference, 21, "b"⟩,
          ⟨.type, 22, "b"⟩] := by
      simp [exchangeable, inOrder, ofAspect, ascending, List.mergeSort_of_pairwise]
    rw [verify, entries]
    decide +kernel
  have alike := verify_relabel {} digits exchangeable relabels
  refine ⟨relabels, ?_⟩
  change EndsAlike _ _ (verify {} digits (exchangeable.relabel {} exchange)) at alike
  generalize verify {} digits exchangeable = run at alike computed ⊢
  generalize verify {} digits (exchangeable.relabel {} exchange) = other at alike ⊢
  cases alike with
  | error => cases computed
  | ok agree =>
      have passed := Option.some.inj computed
      exact ⟨_, _, rfl, rfl, passed, agree.2.1.trans passed⟩

end Verification

end Gloss
