import Gloss.Proofs.SelfAnnotation.Judgements
import Gloss.Proofs.Verification

/-!
# One relation behind every comparison

The verifier compares parameters by their descriptors and everything else by
the declaring nodes.  In a resolved file both decide whether the target comes
from what the named declaration declares, and a descriptor to compare with is
never missing.
-/

namespace Gloss

theorem Descriptor.generic_eq_of_introduces {descriptor : Descriptor} {node : NodeRef}
    (introduces : descriptor.Introduces node) : descriptor.generic = descriptor := by
  cases descriptor with
  | specialized => exact introduces.2.elim
  | _ => rfl

theorem Verdict.mismatch_ne_met (fault : Fault) : Verdict.mismatch fault ≠ .met := nofun

namespace Verification

variable {ν δ κ : Type} {analysis : Analysis ν δ κ}

/-- What markers are bound to stands around one of them. -/
theorem exists_declarationAt_of_bind {place : Int → Place} {before declared : Table String ν}
    {entries : List (String × Int)} (bound : bind analysis place before entries = .ok declared)
    {label : String} {node : ν} (found : declared.get? label = some node) :
    before.get? label = some node ∨
      ∃ position, analysis.model.declarationAt position = some node := by
  induction entries generalizing before with
  | nil =>
      cases bound
      exact .inl found
  | cons entry rest ih =>
      rw [bind] at bound
      split at bound
      · cases bound
      · next inserted isAt =>
          rcases ih bound with known | position
          · rw [Table.get?_insert] at known
            split at known
            · cases known
              exact .inr ⟨_, isAt⟩
            · exact .inl known
          · exact .inr position

theorem cause_of_bind {place : Int → Place} {before : Table String ν}
    {entries : List (String × Int)} {fault : Fault}
    (failed : bind analysis place before entries = .error fault) :
    ∃ name, fault.cause = .misplacedDeclaration name := by
  induction entries generalizing before with
  | nil => cases failed
  | cons entry rest ih =>
      rw [bind] at failed
      split at failed
      · cases failed
        exact ⟨_, rfl⟩
      · exact ih failed

variable [DecidableEq ν] [DecidableEq δ] [DecidableEq κ] {bench : Bench ν δ κ}

/-- What ends the judgements is raised by one of them, or a mismatch. -/
theorem cause_of_judgeAll {failFast : Bool} {expectations : List Expectation} {fault : Fault}
    (failed : judgeAll bench failFast expectations = .error fault) :
    bench.Raises fault.cause ∨ ∃ kind details, fault.cause = .mismatch kind details := by
  induction expectations with
  | nil => cases failed
  | cons expectation rest ih =>
      have within := bench.within_judge expectation
      rw [judgeAll] at failed
      split at failed
      · next ended =>
          cases failed
          rw [ended] at within
          exact .inl within
      · next failure judged =>
          rw [judged] at within
          split at failed
          · cases failed
            exact .inr within
          · cases later : judgeAll bench failFast rest with
            | error found =>
                simp only [later, Except.map, Except.error.injEq] at failed
                exact ih (failed ▸ later)
            | ok findings => simp [later, Except.map] at failed

end Verification

namespace Resolution

variable {resolution : Resolution} {reference declaration : NodeRef} {place : Place}
  {payload : String} {descriptor target : Descriptor}
  {bench : Bench NodeRef Descriptor TypeConstructor}

theorem mem_declaredNodes_of_declarationAt? {position : Int}
    (isAt : resolution.declarationAt? position = some declaration) :
    declaration ∈ resolution.file.declaredNodes := by
  obtain ⟨occurrence, innermost, rfl⟩ := Option.map_eq_some_iff.mp isAt
  have accepted := List.mem_filter.mp (Occurrence.mem_of_innermost? innermost)
  have isDeclaration : occurrence.node.kind.isDeclaration = true :=
    (Bool.and_eq_true_iff.mp accepted.2).1
  apply Tree.File.mem_declaredNodes_of_mem_nodes _ isDeclaration
  apply Tree.File.mem_nodes_of_kind accepted.1
  intro isFile
  rw [isFile] at isDeclaration
  cases isDeclaration

/-- Markers in a resolved file are bound to declarations of the file. -/
theorem mem_declaredNodes_of_bind {place : Int → Place} {declared : Table String NodeRef}
    {entries : List (String × Int)} {label : String}
    (bound : Verification.bind resolution.analysis place .empty entries = .ok declared)
    (found : declared.get? label = some declaration) :
    declaration ∈ resolution.file.declaredNodes := by
  rcases Verification.exists_declarationAt_of_bind bound found with none | ⟨position, isAt⟩
  · cases none
  · exact mem_declaredNodes_of_declarationAt? isAt

/-- A descriptor is met when the target is it, the call through a variable being
a use of the variable. -/
theorem judgeDescriptor_eq_met_iff (benched : bench.analysis = resolution.analysis) :
    bench.judgeDescriptor place reference payload descriptor = .met ↔
      (resolution.target? reference).map Descriptor.unwrapVariable = some descriptor := by
  obtain ⟨_, prefixes, declared, places⟩ := bench
  cases benched
  simp only [Bench.judgeDescriptor]
  constructor
  · intro met
    split at met
    · next same => exact same
    · exact absurd met (Verdict.mismatch_ne_met _)
  · exact fun same => if_pos same

theorem judgeConstructorParameter_eq_met_iff (benched : bench.analysis = resolution.analysis)
    (found : resolution.constructorParameter? declaration = some descriptor) :
    bench.judgeConstructorParameter place reference payload declaration = .met ↔
      (resolution.target? reference).map Descriptor.unwrapVariable = some descriptor := by
  have known : bench.analysis.model.constructorParameter declaration = some descriptor := by
    rw [benched]
    exact found
  simp only [Bench.judgeConstructorParameter, known]
  exact judgeDescriptor_eq_met_iff benched

section Compared

variable (completes : Resolver.Completes resolution.file resolution.state)

include completes

/-- What a target comes from is what it is itself, where it is a parameter. -/
theorem original_eq_iff_unwrapVariable_eq (hasTarget : resolution.target? reference = some target)
    (found : resolution.descriptor? declaration = some descriptor)
    (isParameter : declaration.kind.isParameter = true ∨
      (resolution.targetDeclaration? reference).any (fun node => node.kind.isParameter) = true) :
    target.unwrapVariable = descriptor ↔ target.original = descriptor := by
  have introduces := completes.grounded.declared declaration descriptor found
  constructor
  · intro same
    rw [Descriptor.original, same]
    exact Descriptor.generic_eq_of_introduces introduces
  · intro same
    have declares : resolution.targetDeclaration? reference = some declaration := by
      rw [targetDeclaration?_eq hasTarget, same, introduces.1]
    rw [declares, Option.any_some, or_self] at isParameter
    rw [← same] at introduces
    rw [Descriptor.unwrapVariable_eq_original introduces isParameter, same]

/-- Where no parameter is involved, a target comes from a declaration when it is
declared there. -/
theorem original_eq_iff_declaration_eq (distinct : resolution.file.references.Nodup)
    (hasTarget : resolution.target? reference = some target)
    (found : resolution.descriptor? declaration = some descriptor)
    (notParameter : declaration.kind.isParameter = false) :
    resolution.targetDeclaration? reference = some declaration ↔ target.original = descriptor := by
  constructor
  · intro isDeclared
    rcases declares_of_target completes distinct hasTarget isDeclared with declared | parameter
    · exact Option.some.inj (declared.symm.trans found)
    · have isConstructed := completes.grounded.constructorOnly declaration
        (Option.isSome_iff_exists.mpr ⟨_, parameter⟩)
      rw [isConstructed] at notParameter
      cases notParameter
  · intro same
    have introduces := completes.grounded.declared declaration descriptor found
    rw [targetDeclaration?_eq hasTarget, same, introduces.1]

/-- Both comparisons with a declaration decide whether the target comes from
what is declared there. -/
theorem judgeDeclaration_eq_met_iff (benched : bench.analysis = resolution.analysis)
    (distinct : resolution.file.references.Nodup)
    (found : resolution.descriptor? declaration = some descriptor) :
    bench.judgeDeclaration place reference payload declaration = .met ↔
      (resolution.target? reference).map Descriptor.original = some descriptor := by
  have described : bench.analysis.model.descriptor declaration = some descriptor := by
    rw [benched]
    exact found
  have declares : bench.analysis.model.targetDeclaration reference =
      resolution.targetDeclaration? reference := by rw [benched]; rfl
  have parameters : bench.analysis.model.isParameter = fun node => node.kind.isParameter := by
    rw [benched]
    rfl
  simp only [Bench.judgeDeclaration, described, declares, parameters]
  split
  · next compared =>
      rw [judgeDescriptor_eq_met_iff benched]
      cases hasTarget : resolution.target? reference with
      | none => exact Iff.rfl
      | some target =>
          simp only [Option.map_some, Option.some.injEq]
          apply original_eq_iff_unwrapVariable_eq completes hasTarget found
          exact (Bool.or_eq_true_iff.mp compared)
  · next notCompared =>
      have notParameter : declaration.kind.isParameter = false := by
        simp only [Bool.or_eq_true, not_or, Bool.not_eq_true] at notCompared
        exact notCompared.1
      have sameNode : (if resolution.targetDeclaration? reference = some declaration then .met
          else .mismatch (bench.wrongTarget place reference payload (bench.nameOf declaration)
            (bench.nameOfOption (resolution.targetDeclaration? reference))) : Verdict) = .met ↔
          resolution.targetDeclaration? reference = some declaration := by
        split
        · next same => exact iff_of_true rfl same
        · next different => exact iff_of_false (Verdict.mismatch_ne_met _) different
      rw [sameNode]
      cases hasTarget : resolution.target? reference with
      | none => simp [targetDeclaration?, hasTarget]
      | some target =>
          simp only [Option.map_some, Option.some.injEq]
          exact original_eq_iff_declaration_eq completes distinct hasTarget found notParameter

/-- A label is met by the references whose targets come from what its node
declares. -/
theorem judgeReference_eq_met_iff (benched : bench.analysis = resolution.analysis)
    (distinct : resolution.file.references.Nodup) {label : String}
    (notSentinel : Sentinel.ofPayload? label = none)
    (labels : bench.declared.get? label = some declaration)
    (found : resolution.descriptor? declaration = some descriptor) :
    bench.judgeReference place reference label = .met ↔
      (resolution.target? reference).map Descriptor.original = some descriptor := by
  have expected : bench.expected? label = some (.declaration declaration) := by
    simp only [Bench.expected?, labels]
  rw [← judgeDeclaration_eq_met_iff completes benched distinct found]
  unfold Bench.judgeReference
  split
  · next sentinel isSentinel =>
      simp only [Bench.classify, PayloadKind.classify, notSentinel] at isSentinel
      split at isSentinel
      · cases isSentinel
      · split at isSentinel <;> cases isSentinel
  · rw [expected]

end Compared

/-- With the prefix of constructor parameters a label is met by the references
to the parameter that its node declares. -/
theorem judgeReference_prefixed_eq_met_iff (benched : bench.analysis = resolution.analysis)
    (prefixes : bench.prefixes = {}) {label : String}
    (labels : bench.declared.get? label = some declaration)
    (unlabelled : bench.declared.get? ("$" ++ label) = none)
    (found : resolution.constructorParameter? declaration = some descriptor) :
    bench.judgeReference place reference ("$" ++ label) = .met ↔
      (resolution.target? reference).map Descriptor.unwrapVariable = some descriptor := by
  have kind : bench.classify ("$" ++ label) = .constructorParameter := by
    rw [Bench.classify, prefixes]
    exact PlainLabel.classify_parameter_eq label
  have name : bench.parameterName ("$" ++ label) = label := by
    rw [Bench.parameterName, prefixes]
    exact PlainLabel.dropFirst_parameter label
  have expected : bench.expected? ("$" ++ label) = some (.constructorParameter declaration) := by
    simp [Bench.expected?, kind, name, unlabelled, labels]
  simp only [Bench.judgeReference, kind, expected]
  exact judgeConstructorParameter_eq_met_iff benched found

/-- No judgement in a resolved file lacks a descriptor to compare with. -/
theorem cause_ne_missingDescriptor_of_raises
    (completes : Resolver.Completes resolution.file resolution.state)
    (benched : bench.analysis = resolution.analysis)
    (known : ∀ label node, bench.declared.get? label = some node →
      node ∈ resolution.file.declaredNodes)
    {cause : Cause} (raised : bench.Raises cause) (name : String) :
    cause ≠ .missingDescriptor name := by
  intro same
  subst same
  cases raised with
  | missingDescriptor _ payload node expected missing =>
      have external : bench.analysis.externalNodes.get? payload = none := by
        rw [benched]
        rfl
      have inFile : node ∈ resolution.file.declaredNodes := by
        simp only [Bench.expected?, external] at expected
        split at expected
        · next labels =>
            cases expected
            exact known _ _ labels
        · cases expected
        · cases expected
      obtain ⟨descriptor, found⟩ := (mem_declaredNodes_iff completes).mp inFile
      rw [benched] at missing
      have absent : resolution.descriptor? node = none := missing
      rw [found] at absent
      cases absent

/-- The verification of a resolved fixture never ends for want of a descriptor. -/
theorem cause_ne_missingDescriptor_of_verify
    (completes : Resolver.Completes resolution.file resolution.state) {options : Options}
    {fixture : Fixture} {fault : Fault}
    (failed : Verification.verify options resolution.analysis fixture = .error fault)
    (name : String) : fault.cause ≠ .missingDescriptor name := by
  unfold Verification.verify at failed
  split at failed
  · next found notBound =>
      cases failed
      obtain ⟨label, misplaced⟩ := Verification.cause_of_bind notBound
      rw [misplaced]
      exact Cause.noConfusion
  · next declared bound =>
      cases judged : Verification.judgeAll ⟨resolution.analysis, options.prefixes, declared,
          fixture.place⟩ options.failFast
          (if options.declarationsOnly then [] else fixture.expectations.inOrder) with
      | ok findings => simp [judged, Except.map] at failed
      | error found =>
          simp only [judged, Except.map, Except.error.injEq] at failed
          subst failed
          rcases Verification.cause_of_judgeAll judged with raised | ⟨kind, details, mismatch⟩
          · exact cause_ne_missingDescriptor_of_raises completes rfl
              (fun _ _ labels => mem_declaredNodes_of_bind bound labels) raised name
          · rw [mismatch]
            exact Cause.noConfusion

/-- In a fixture whose text can be read no verification lacks a descriptor.  A
reference meets the label of a declaration exactly when its target, without
the call through a variable and without specialization, is what the
declaration declares; and it meets the prefixed label of a constructor
parameter exactly when its target, without the call through a variable, is
that parameter. -/
theorem judgeReference_iff_of_read {fixture : Fixture}
    (readable : read fixture.file fixture.text = .ok resolution) :
    (∀ options fault, Verification.verify options resolution.analysis fixture = .error fault →
      ∀ name, fault.cause ≠ .missingDescriptor name) ∧
    ∀ declared, Verification.bind resolution.analysis fixture.place .empty
        fixture.expectations.declarations.entries = .ok declared →
      ∀ label declaration, declared.get? label = some declaration →
        (∀ prefixes, Sentinel.ofPayload? label = none →
          ∃ descriptor, resolution.descriptor? declaration = some descriptor ∧
            ∀ place reference,
              (Bench.judgeReference ⟨resolution.analysis, prefixes, declared, fixture.place⟩
                place reference label = .met ↔
              (resolution.target? reference).map (fun target => target.unwrapVariable.generic) =
                some descriptor)) ∧
        (declaration.kind = .constructorParameter → declared.get? ("$" ++ label) = none →
          ∃ parameter, resolution.constructorParameter? declaration = some parameter ∧
            ∀ place reference,
              (Bench.judgeReference ⟨resolution.analysis, {}, declared, fixture.place⟩
                place reference ("$" ++ label) = .met ↔
              (resolution.target? reference).map Descriptor.unwrapVariable =
                some parameter)) := by
  obtain ⟨placed, completes⟩ := completes_of_read readable
  refine ⟨fun options fault failed => cause_ne_missingDescriptor_of_verify completes failed, ?_⟩
  intro declared bound label declaration labels
  have inFile := mem_declaredNodes_of_bind bound labels
  constructor
  · intro prefixes notSentinel
    obtain ⟨descriptor, found⟩ := (mem_declaredNodes_iff completes).mp inFile
    refine ⟨descriptor, found, fun place reference => ?_⟩
    exact judgeReference_eq_met_iff completes rfl placed.nodup_references notSentinel labels found
  · intro isConstructed unlabelled
    rw [← completes.declarations, Multiset.mem_coe] at inFile
    obtain ⟨parameter, found⟩ := Option.isSome_iff_exists.mp
      (completes.grounded.constructed declaration inFile isConstructed)
    refine ⟨parameter, found, fun place reference => ?_⟩
    exact judgeReference_prefixed_eq_met_iff rfl rfl labels unlabelled found

/-- A class with a constructor parameter that is a property too, the marker `p`
at it. -/
def propertyParameter : Fixture where
  text := "class C(val x: Int) { val y = x }\nval w = C(1).x".toList
  expectations := { Expectations.empty with declarations := ⟨[("p", 12)]⟩ }
  markers := []
  file := "sample"

/-- The selector `x` means the property `p`; the name `x` in an initializer means
the parameter `$p` and not the property. -/
theorem judgeReference_iff_of_read_propertyParameter :
    ∃ resolution, read propertyParameter.file propertyParameter.text = .ok resolution ∧
      ∃ declared, Verification.bind resolution.analysis propertyParameter.place .empty
          propertyParameter.expectations.declarations.entries = .ok declared ∧
        let bench : Bench NodeRef Descriptor TypeConstructor :=
          ⟨resolution.analysis, {}, declared, propertyParameter.place⟩
        ∀ place, bench.judgeReference place ⟨.name, ⟨47, 48⟩⟩ "p" = .met ∧
          bench.judgeReference place ⟨.name, ⟨30, 31⟩⟩ ("$" ++ "p") = .met ∧
            bench.judgeReference place ⟨.name, ⟨30, 31⟩⟩ "p" ≠ .met := by
  have computed :
      (match read propertyParameter.file propertyParameter.text with
        | .ok resolution =>
            match Verification.bind resolution.analysis propertyParameter.place .empty
                propertyParameter.expectations.declarations.entries with
            | .error _ => false
            | .ok declared =>
                let declaration : NodeRef := ⟨.constructorParameter, ⟨8, 18⟩⟩
                let selected := resolution.target? ⟨.name, ⟨47, 48⟩⟩
                let used := resolution.target? ⟨.name, ⟨30, 31⟩⟩
                declared.get? "p" = some declaration && declared.get? ("$" ++ "p") = none &&
                  selected.map (fun target => target.unwrapVariable.generic) =
                    resolution.descriptor? declaration &&
                  used.map Descriptor.unwrapVariable =
                    resolution.constructorParameter? declaration &&
                  used.map (fun target => target.unwrapVariable.generic) ≠
                    resolution.descriptor? declaration
        | .error _ => false) = true := by
    decide +kernel
  cases readable : read propertyParameter.file propertyParameter.text with
  | error fault =>
      rw [readable] at computed
      cases computed
  | ok resolution =>
      cases bound : Verification.bind resolution.analysis propertyParameter.place .empty
          propertyParameter.expectations.declarations.entries with
      | error fault =>
          simp only [readable, bound] at computed
          cases computed
      | ok declared =>
          simp only [readable, bound, Bool.and_eq_true, decide_eq_true_eq] at computed
          obtain ⟨⟨⟨⟨labels, unlabelled⟩, selected⟩, used⟩, different⟩ := computed
          obtain ⟨named, prefixed⟩ :=
            (judgeReference_iff_of_read readable).2 declared bound "p" _ labels
          obtain ⟨descriptor, found, iff⟩ := named {} (by decide)
          obtain ⟨parameter, foundParameter, iffPrefixed⟩ := prefixed rfl unlabelled
          refine ⟨resolution, rfl, declared, bound, fun place => ⟨?_, ?_, ?_⟩⟩
          · exact (iff place _).mpr (selected.trans found)
          · exact (iffPrefixed place _).mpr (used.trans foundParameter)
          · exact fun met => different (((iff place _).mp met).trans found.symm)

end Resolution

end Gloss
