import Gloss.Proofs.Resolution.Outcomes
import Gloss.Proofs.SelfAnnotation.Insertions

/-!
# Judging what a resolution says of itself

The payload that a resolution itself suggests for a reference is met, whichever
way the verifier compares: by an outcome, by the declaring node, or for
parameters by the descriptor.  The label of another declaration is not met.
-/

namespace Gloss

namespace PlainLabel

variable {label : String}

theorem classify_eq (plain : PlainLabel label) : PayloadKind.classify {} label = .name := by
  have notSentinel : Sentinel.ofPayload? label = none := by
    apply List.find?_eq_none.mpr
    intro sentinel _
    simpa using (plain.notSentinel sentinel).symm
  have notLibrary := plain.notPrefixed "std::" (by simp)
  have notParameter := plain.notPrefixed "$" (by simp)
  simp [PayloadKind.classify, notSentinel, notLibrary, notParameter]

/-- With the prefix of constructor parameters a label names one. -/
theorem classify_parameter_eq (label : String) :
    PayloadKind.classify {} ("$" ++ label) = .constructorParameter := by
  have notSentinel : Sentinel.ofPayload? ("$" ++ label) = none := by
    apply List.find?_eq_none.mpr
    intro sentinel _ same
    have sameChars := congrArg String.toList (of_decide_eq_true same)
    rw [String.toList_append] at sameChars
    cases sentinel <;> cases sameChars
  simp [PayloadKind.classify, notSentinel, Text.startsWith, String.toList_append]

theorem wellFormed (plain : PlainLabel label) : (Assertion.reference label).WellFormed := by
  refine ⟨plain.nonempty, plain.unmarked .backtick, ?_⟩
  intro colon
  have noColon := plain.notPrefixed ":" (by simp)
  obtain ⟨rest, same⟩ := List.head?_eq_some_iff.mp colon
  simp [Text.startsWith, same] at noColon

theorem wellFormed_parameter (plain : PlainLabel label) :
    (Assertion.reference ("$" ++ label)).WellFormed := by
  have unmarked := plain.unmarked .backtick
  simp only [Assertion.WellFormed, String.toList_append]
  refine ⟨?_, ?_, by simp⟩
  · intro empty
    simpa using congrArg String.toList empty
  · simpa [Delimiter.character] using unmarked

theorem dropFirst_parameter (label : String) :
    Text.dropFirst "$".length ("$" ++ label) = label := by
  have single : "$".length = 1 := rfl
  simp [Text.dropFirst, String.toList_append, single]

end PlainLabel

theorem Sentinel.wellFormed (sentinel : Sentinel) :
    (Assertion.reference sentinel.payload).WellFormed := by
  unfold Assertion.WellFormed
  cases sentinel <;> decide

namespace Descriptor

@[simp] theorem isError_original (descriptor : Descriptor) :
    descriptor.original.isError = descriptor.isError := by
  cases descriptor <;> rfl

@[simp] theorem declaration_generic (descriptor : Descriptor) :
    descriptor.generic.declaration = descriptor.declaration := by
  cases descriptor <;> rfl

/-- What parameters are declared as is not specialized. -/
theorem unwrapVariable_eq_original {target : Descriptor} {node : NodeRef}
    (introduces : target.original.Introduces node) (isParameter : node.kind.isParameter = true) :
    target.unwrapVariable = target.original := by
  cases unwrapped : target.unwrapVariable with
  | specialized called =>
      have isFunction : node.kind = .function := by
        rw [original, unwrapped] at introduces
        exact introduces.2
      rw [isFunction] at isParameter
      cases isParameter
  | _ =>
      rw [original, unwrapped]
      rfl

end Descriptor

/-- The labels of a file and nothing else are bound to its declarations. -/
structure Tree.File.Binds (file : Tree.File) (label : NodeRef → String)
    (table : Table String NodeRef) : Prop where
  found : ∀ declaration ∈ file.declaredNodes, table.get? (label declaration) = some declaration
  only : ∀ name node, table.get? name = some node →
    node ∈ file.declaredNodes ∧ name = label node

namespace Resolution

/-- The target is the parameter that a constructor parameter declares beside its
property. -/
def MeansParameter (resolution : Resolution) (target : Descriptor) (declaration : NodeRef) :
    Prop :=
  resolution.constructorParameter? declaration = some target.unwrapVariable ∧
    resolution.descriptor? declaration ≠ some target.unwrapVariable

instance (resolution : Resolution) (target : Descriptor) (declaration : NodeRef) :
    Decidable (resolution.MeansParameter target declaration) :=
  inferInstanceAs (Decidable (_ ∧ _))

/-- The payload that a resolution suggests for a reference: a sentinel for every
outcome but a target, else the label of the declaration of the target, with a
prefix for a parameter beside a property.  Targets in the library have no
label. -/
def payload? (resolution : Resolution) (label : NodeRef → String) (reference : NodeRef) :
    Option String :=
  if resolution.isUnresolved reference then some "!"
  else if resolution.isAmbiguous reference then some "!!"
  else
    match resolution.target? reference with
    | none => if reference ∈ resolution.file.packageNames then some "!null" else none
    | some target =>
        if target.isError then some "!error"
        else
          (resolution.targetDeclaration? reference).map fun declaration =>
            if resolution.MeansParameter target declaration then "$" ++ label declaration
            else label declaration

/-- A payload that names a declaration, or the parameter that it declares
beside its property. -/
def Names (resolution : Resolution) (label : NodeRef → String) (payload : String)
    (declaration : NodeRef) : Prop :=
  payload = label declaration ∨
    payload = "$" ++ label declaration ∧
      (resolution.constructorParameter? declaration).isSome = true

variable {resolution : Resolution} {label : NodeRef → String} {reference declaration : NodeRef}
  {target : Descriptor} {bench : Bench NodeRef Descriptor TypeConstructor} {place : Place}

/-- A bench for the labels of a resolved file. -/
structure Judges (resolution : Resolution) (label : NodeRef → String)
    (bench : Bench NodeRef Descriptor TypeConstructor) : Prop where
  analysis : bench.analysis = resolution.analysis
  prefixes : bench.prefixes = {}
  binds : resolution.file.Binds label bench.declared

theorem Judges.targetDeclaration_eq (judges : resolution.Judges label bench) (node : NodeRef) :
    bench.analysis.model.targetDeclaration node = resolution.targetDeclaration? node := by
  rw [judges.analysis]
  rfl

theorem Judges.descriptor_eq (judges : resolution.Judges label bench) (node : NodeRef) :
    bench.analysis.model.descriptor node = resolution.descriptor? node := by
  rw [judges.analysis]
  rfl

theorem Judges.constructorParameter_eq (judges : resolution.Judges label bench)
    (node : NodeRef) :
    bench.analysis.model.constructorParameter node = resolution.constructorParameter? node := by
  rw [judges.analysis]
  rfl

section Judged

variable (judges : resolution.Judges label bench) (labels : resolution.file.Labels label)
  (isDeclared : declaration ∈ resolution.file.declaredNodes)

include judges labels isDeclared

theorem judgeReference_label :
    bench.judgeReference place reference (label declaration) =
      bench.judgeDeclaration place reference (label declaration) declaration := by
  have kind : bench.classify (label declaration) = .name := by
    rw [Bench.classify, judges.prefixes]
    exact (labels.plain declaration isDeclared).classify_eq
  have expected : bench.expected? (label declaration) = some (.declaration declaration) := by
    simp [Bench.expected?, kind, judges.binds.found declaration isDeclared]
  simp only [Bench.judgeReference, kind, expected]

theorem judgeReference_parameter :
    bench.judgeReference place reference ("$" ++ label declaration) =
      bench.judgeConstructorParameter place reference ("$" ++ label declaration) declaration := by
  have kind : bench.classify ("$" ++ label declaration) = .constructorParameter := by
    rw [Bench.classify, judges.prefixes]
    exact PlainLabel.classify_parameter_eq _
  have name : bench.parameterName ("$" ++ label declaration) = label declaration := by
    rw [Bench.parameterName, judges.prefixes]
    exact PlainLabel.dropFirst_parameter _
  have noName : bench.declared.get? ("$" ++ label declaration) = none := by
    apply Option.eq_none_iff_forall_ne_some.mpr
    intro node found
    obtain ⟨known, same⟩ := judges.binds.only _ node found
    have notPrefixed := (labels.plain node known).notPrefixed "$" (by simp)
    rw [← same] at notPrefixed
    simp [Text.startsWith, String.toList_append] at notPrefixed
  have expected : bench.expected? ("$" ++ label declaration) =
      some (.constructorParameter declaration) := by
    simp [Bench.expected?, kind, name, noName, judges.binds.found declaration isDeclared]
  simp only [Bench.judgeReference, kind, expected]

end Judged

section Targets

variable (judges : resolution.Judges label bench)
  (hasTarget : resolution.target? reference = some target)

include judges hasTarget

theorem map_unwrapVariable_target :
    (bench.analysis.model.target reference).map bench.analysis.model.unwrapVariable =
      some target.unwrapVariable := by
  rw [judges.analysis]
  change (resolution.target? reference).map Descriptor.unwrapVariable = _
  rw [hasTarget]
  rfl

theorem judgeDescriptor_of_eq (payload : String) :
    bench.judgeDescriptor place reference payload target.unwrapVariable = .met := by
  simp only [Bench.judgeDescriptor, map_unwrapVariable_target judges hasTarget, if_true]

theorem judgeDescriptor_of_ne (payload : String) {expected : Descriptor}
    (different : target.unwrapVariable ≠ expected) :
    ∃ fault, bench.judgeDescriptor place reference payload expected = .mismatch fault := by
  simp only [Bench.judgeDescriptor, map_unwrapVariable_target judges hasTarget,
    Option.some.injEq, different, if_false]
  exact ⟨_, rfl⟩

end Targets

section Declared

variable (completes : Resolver.Completes resolution.file resolution.state)
  (judges : resolution.Judges label bench)
  (hasTarget : resolution.target? reference = some target)
  (isDeclared : resolution.targetDeclaration? reference = some declaration)

include completes hasTarget isDeclared

/-- What is declared elsewhere is not what the target is. -/
theorem unwrapVariable_ne {other : NodeRef} {descriptor : Descriptor}
    (declares : resolution.state.Declares other descriptor) (different : other ≠ declaration) :
    target.unwrapVariable ≠ descriptor := by
  intro same
  have introduces := completes.grounded.introduces declares
  rw [targetDeclaration?_eq hasTarget, Descriptor.original, Descriptor.declaration_generic, same,
    introduces.1, Option.some.injEq] at isDeclared
  exact different isDeclared

include judges

/-- The declaration of the target is met, unless the target is the parameter of
a constructor parameter that declares something else. -/
theorem judgeDeclaration_of_target (distinct : resolution.file.references.Nodup)
    (payload : String)
    (noParameter : ¬ resolution.MeansParameter target declaration) :
    bench.judgeDeclaration place reference payload declaration = .met := by
  have declares := declares_of_target completes distinct hasTarget isDeclared
  have introduces := completes.grounded.introduces declares
  simp only [Bench.judgeDeclaration, judges.targetDeclaration_eq, isDeclared]
  split
  · next isParameter =>
      have parameterKind : declaration.kind.isParameter = true := by
        simpa [judges.analysis, analysis, model] using isParameter
      have same := Descriptor.unwrapVariable_eq_original introduces parameterKind
      have found : resolution.descriptor? declaration = some target.unwrapVariable := by
        rcases declares with found | found
        · rw [same]
          exact found
        · by_contra different
          exact noParameter ⟨by rw [same]; exact found, different⟩
      simp only [judges.descriptor_eq, found]
      exact judgeDescriptor_of_eq judges hasTarget payload
  · simp only [if_true]

/-- Another declaration than that of the target is not met. -/
theorem judgeDeclaration_of_ne {other : NodeRef} (payload : String)
    (otherDeclared : other ∈ resolution.file.declaredNodes) (different : other ≠ declaration) :
    ∃ fault, bench.judgeDeclaration place reference payload other = .mismatch fault := by
  simp only [Bench.judgeDeclaration, judges.targetDeclaration_eq, isDeclared]
  split
  · obtain ⟨descriptor, found⟩ := (mem_declaredNodes_iff completes).mp otherDeclared
    simp only [judges.descriptor_eq, found]
    apply judgeDescriptor_of_ne judges hasTarget
    exact unwrapVariable_ne completes hasTarget isDeclared (.inl found) different
  · simp only [Option.some.injEq, Ne.symm different, if_false]
    exact ⟨_, rfl⟩

/-- The parameter of another constructor parameter is not met. -/
theorem judgeConstructorParameter_of_ne {other : NodeRef} {parameter : Descriptor}
    (payload : String) (found : resolution.constructorParameter? other = some parameter)
    (different : other ≠ declaration) :
    ∃ fault, bench.judgeConstructorParameter place reference payload other = .mismatch fault := by
  simp only [Bench.judgeConstructorParameter, judges.constructorParameter_eq, found]
  apply judgeDescriptor_of_ne judges hasTarget
  exact unwrapVariable_ne completes hasTarget isDeclared (.inr found) different

end Declared

/-- A suggestion is a sentinel for what came of the reference, or names the
declaration of its target. -/
theorem payload?_eq_some {payload : String}
    (suggested : resolution.payload? label reference = some payload) :
    (∃ sentinel : Sentinel, payload = sentinel.payload ∧
      ∀ bench : Bench NodeRef Descriptor TypeConstructor,
        bench.analysis = resolution.analysis → bench.hasOutcome reference sentinel = true) ∨
    ∃ target declaration, resolution.target? reference = some target ∧
      resolution.targetDeclaration? reference = some declaration ∧
        payload = if resolution.MeansParameter target declaration then "$" ++ label declaration
          else label declaration := by
  unfold payload? at suggested
  split at suggested
  · next isUnresolved =>
      cases suggested
      exact .inl ⟨.unresolved, rfl, fun _ benched =>
        (hasOutcome_eq benched reference .unresolved).trans isUnresolved⟩
  split at suggested
  · next isAmbiguous =>
      cases suggested
      exact .inl ⟨.ambiguous, rfl, fun _ benched =>
        (hasOutcome_eq benched reference .ambiguous).trans isAmbiguous⟩
  next notAmbiguous =>
  cases hasTarget : resolution.target? reference with
  | none =>
      simp only [hasTarget] at suggested
      split at suggested
      · cases suggested
        refine .inl ⟨.null, rfl, fun _ benched => ?_⟩
        simp [hasOutcome_eq benched, hasTarget, notAmbiguous]
      · cases suggested
  | some target =>
      simp only [hasTarget] at suggested
      split at suggested
      · next isError =>
          cases suggested
          refine .inl ⟨.error, rfl, fun _ benched => ?_⟩
          simp [hasOutcome_eq benched, hasTarget, isError]
      · obtain ⟨declaration, isDeclared, rfl⟩ := Option.map_eq_some_iff.mp suggested
        exact .inr ⟨target, declaration, rfl, isDeclared, rfl⟩

/-- What a resolution suggests for a reference is met. -/
theorem judgeReference_of_payload?
    (completes : Resolver.Completes resolution.file resolution.state)
    (distinct : resolution.file.references.Nodup) (judges : resolution.Judges label bench)
    (labels : resolution.file.Labels label) {payload : String}
    (suggested : resolution.payload? label reference = some payload) :
    bench.judgeReference place reference payload = .met := by
  rcases payload?_eq_some suggested with
    ⟨sentinel, rfl, outcome⟩ | ⟨target, declaration, hasTarget, isDeclared, rfl⟩
  · exact (bench.judgeReference_sentinel_eq_met_iff place reference sentinel).mpr
      (outcome bench judges.analysis)
  · have declares := declares_of_target completes distinct hasTarget isDeclared
    have inFile := mem_declaredNodes_of_declares completes declares
    split
    · next parameter =>
        rw [judgeReference_parameter judges labels inFile]
        simp only [Bench.judgeConstructorParameter, judges.constructorParameter_eq, parameter.1]
        exact judgeDescriptor_of_eq judges hasTarget _
    · next noParameter =>
        rw [judgeReference_label judges labels inFile]
        exact judgeDeclaration_of_target completes judges hasTarget isDeclared distinct _
          noParameter

/-- The label of another declaration is not met, and neither is the parameter
of another constructor parameter. -/
theorem judgeReference_of_ne (completes : Resolver.Completes resolution.file resolution.state)
    (judges : resolution.Judges label bench) (labels : resolution.file.Labels label)
    (hasTarget : resolution.target? reference = some target)
    (isDeclared : resolution.targetDeclaration? reference = some declaration) {other : NodeRef}
    (otherDeclared : other ∈ resolution.file.declaredNodes) (different : other ≠ declaration)
    {payload : String} (named : resolution.Names label payload other) :
    ∃ fault, bench.judgeReference place reference payload = .mismatch fault := by
  rcases named with rfl | ⟨rfl, hasParameter⟩
  · rw [judgeReference_label judges labels otherDeclared]
    exact judgeDeclaration_of_ne completes judges hasTarget isDeclared _ otherDeclared different
  · obtain ⟨parameter, found⟩ := Option.isSome_iff_exists.mp hasParameter
    rw [judgeReference_parameter judges labels otherDeclared]
    exact judgeConstructorParameter_of_ne completes judges hasTarget isDeclared _ found different

theorem wellFormed_of_names (labels : resolution.file.Labels label)
    (isDeclared : declaration ∈ resolution.file.declaredNodes) {payload : String}
    (named : resolution.Names label payload declaration) :
    (Assertion.reference payload).WellFormed := by
  have plain := labels.plain declaration isDeclared
  rcases named with rfl | ⟨rfl, -⟩
  · exact plain.wellFormed
  · exact plain.wellFormed_parameter

/-- What a resolution suggests can be put into a marker. -/
theorem wellFormed_of_payload? (completes : Resolver.Completes resolution.file resolution.state)
    (distinct : resolution.file.references.Nodup) (labels : resolution.file.Labels label)
    {payload : String} (suggested : resolution.payload? label reference = some payload) :
    (Assertion.reference payload).WellFormed := by
  rcases payload?_eq_some suggested with
    ⟨sentinel, rfl, -⟩ | ⟨target, declaration, hasTarget, isDeclared, rfl⟩
  · exact sentinel.wellFormed
  · have declares := declares_of_target completes distinct hasTarget isDeclared
    have plain := labels.plain _ (mem_declaredNodes_of_declares completes declares)
    split
    · exact plain.wellFormed_parameter
    · exact plain.wellFormed

/-- Only references to the library are left without a payload. -/
theorem mem_library_of_payload?_eq_none
    (completes : Resolver.Completes resolution.file resolution.state)
    (distinct : resolution.file.references.Nodup)
    (known : reference ∉ resolution.file.packageNames → reference ∈ resolution.file.references)
    (unmarked : resolution.payload? label reference = none) :
    ∃ target ∈ resolution.target? reference, target.original ∈ Library.descriptors := by
  obtain ⟨meaning, holds, isEntered, backed⟩ := completes.exists_holds distinct reference
  unfold payload? at unmarked
  split at unmarked
  · cases unmarked
  next notUnresolved =>
  split at unmarked
  · cases unmarked
  next notAmbiguous =>
  cases hasTarget : resolution.target? reference with
  | none =>
      simp only [hasTarget] at unmarked
      split at unmarked
      · cases unmarked
      next notName =>
      have entered := isEntered.mpr (known notName)
      rw [isUnresolved, holds.isUnresolved_eq] at notUnresolved
      rw [isAmbiguous, holds.isAmbiguous_eq] at notAmbiguous
      rw [target?, holds.target?_eq] at hasTarget
      obtain ⟨meant, rfl⟩ := Option.isSome_iff_exists.mp entered
      cases meant with
      | target => cases hasTarget
      | ambiguous => exact absurd rfl notAmbiguous
      | unresolved => exact absurd rfl notUnresolved
  | some target =>
      simp only [hasTarget] at unmarked
      split at unmarked
      · cases unmarked
      next notError =>
      have undeclared := Option.map_eq_none_iff.mp unmarked
      rw [targetDeclaration?_eq hasTarget] at undeclared
      have provided := ResolutionState.Backs.provided
        (backed _ ((holds.targets target).mp hasTarget)) undeclared
      rw [Descriptor.isError_original] at provided
      exact ⟨target, rfl, provided.resolve_left notError⟩

end Resolution

end Gloss
