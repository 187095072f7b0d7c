import Gloss.Proofs.Absorption.Transcripts

/-!
# Calls that go on as before

A call is resolved where the same is seen as before, but for local variables whose types absorb
what they were.  If it goes to what it went to and decides its type parameters alike, it accepts
what it accepted and comes to a type that absorbs the one from before.  Otherwise it has no
target any more and comes to an error.
-/

namespace Gloss

open Gloss.Tree ResolutionState Script

/-! ### What is seen -/

/-- What a symbol means now beside what it meant before. -/
inductive Descriptor.Fades : (now before : Descriptor) → Prop
  | same {descriptor : Descriptor} (plain : descriptor.IsPlain) : Fades descriptor descriptor
  | local {declared original : LocalDescriptor} (absorbs : declared.type.Absorbs original.type) :
      Fades (.variable (.local declared)) (.variable (.local original))

/-- A symbol as it is seen now and as it was seen before. -/
inductive Symbol.Fades : (now before : Symbol Descriptor) → Prop
  | same {symbol : Symbol Descriptor} (plain : symbol.descriptor.IsPlain) : Fades symbol symbol
  | local (name : String) {declared original : LocalDescriptor}
      (absorbs : declared.type.Absorbs original.type) :
      Fades { name, kind := .variable, descriptor := .variable (.local declared) }
        { name, kind := .variable, descriptor := .variable (.local original) }

theorem Descriptor.isPlain_variable (holder : VariableDescriptor) :
    (Descriptor.variable holder).IsPlain :=
  ⟨rfl, List.forall_mem_nil _⟩

namespace Descriptor.Fades

variable {now before : Descriptor}

theorem plain (fades : now.Fades before) : now.IsPlain := by
  cases fades with
  | same plain => exact plain
  | «local» => exact isPlain_variable _

theorem plainBefore (fades : now.Fades before) : before.IsPlain := by
  cases fades with
  | same plain => exact plain
  | «local» => exact isPlain_variable _

end Descriptor.Fades

namespace Symbol.Fades

variable {now before : Symbol Descriptor}

theorem name_eq (fades : now.Fades before) : now.name = before.name := by
  cases fades <;> rfl

theorem kind_eq (fades : now.Fades before) : now.kind = before.kind := by
  cases fades <;> rfl

theorem descriptor (fades : now.Fades before) : now.descriptor.Fades before.descriptor := by
  cases fades with
  | same plain => exact .same plain
  | «local» name absorbs => exact .local absorbs

end Symbol.Fades

/-- What is seen now and what was seen before. -/
structure Comparison.Sees (comparison : Comparison) (now before : Surroundings) : Prop where
  levels : List.Forall₂ (List.Forall₂ Symbol.Fades) now.levels before.levels
  class? : now.class? = comparison.base.class?
  classBefore? : before.class? = comparison.base.class?
  isOpen : now.isOpen = before.isOpen

/-- What related things have each for itself. -/
theorem forall_mem_of_forall₂ {α β : Type} {related : α → β → Prop} {first : α → Prop}
    {second : β → Prop} {values : List α} {others : List β}
    (areRelated : List.Forall₂ related values others)
    (each : ∀ value other, related value other → first value ∧ second other) :
    (∀ value ∈ values, first value) ∧ ∀ other ∈ others, second other := by
  induction areRelated with
  | nil => exact ⟨List.forall_mem_nil _, List.forall_mem_nil _⟩
  | cons isRelated _ ih =>
      obtain ⟨isFirst, isSecond⟩ := each _ _ isRelated
      exact ⟨List.forall_mem_cons.mpr ⟨isFirst, ih.1⟩, List.forall_mem_cons.mpr ⟨isSecond, ih.2⟩⟩

/-- All that is seen are declarations. -/
theorem Comparison.Sees.plain {comparison : Comparison} {now before : Surroundings}
    (sees : comparison.Sees now before) :
    (∀ level ∈ now.levels, ∀ symbol ∈ level, symbol.descriptor.IsPlain) ∧
      ∀ level ∈ before.levels, ∀ symbol ∈ level, symbol.descriptor.IsPlain :=
  forall_mem_of_forall₂ sees.levels fun _ _ fades =>
    forall_mem_of_forall₂ fades fun _ _ same => ⟨same.descriptor.plain, same.descriptor.plainBefore⟩

/-- What a call that goes by a signature is said to mean: a function with type parameters is
specialized for what the arguments make of them. -/
inductive Signature.Targets (signature : Signature) (arguments : List NominalType) :
    Descriptor → Prop
  | itself (notGeneric : ∀ declared, signature.candidate = .function declared →
      declared.typeParameters = []) : Targets signature arguments signature.candidate
  | specialized {declared : FunctionDescriptor} (inferred : InferredTypes)
      (isFunction : signature.candidate = .function declared) :
      Targets signature arguments
        (.specialized (declared.specialize inferred (signature.inferred arguments)))

theorem Signature.targets_of_accept? {signature : Signature} {arguments : List NominalType}
    {best : Applicable} (accepted : signature.accept? arguments = some best)
    (inferred : InferredTypes) :
    signature.Targets arguments (Resolver.callTarget inferred best) := by
  obtain ⟨sameCandidate, sameSubstitution, -⟩ := Choice.of_accept? accepted
  rw [Resolver.callTarget, sameCandidate, sameSubstitution]
  split
  · next declared isFunction =>
    split
    · next noParameters =>
      rw [← isFunction]
      refine .itself fun other isOther => ?_
      cases isFunction.symm.trans isOther
      exact List.isEmpty_iff.mp noParameters
    · exact .specialized inferred isFunction
  · next notFunction => exact .itself fun declared isFunction => absurd isFunction (notFunction declared)

namespace Surroundings

variable {comparison : Comparison} {now before around : Surroundings} {transcript : Transcript}
  {offers : Descriptor → Prop} {remarks : List Remark}

/-! ### Open types -/

section Types

variable (sees : comparison.Sees now before)

include sees

theorem echoes_settle (known : Option NominalType) (declaration : Option NodeRef) :
    (now.settle known declaration).Echoes comparison NominalType.Absorbs
      (before.settle known declaration) := by
  cases known with
  | some type => exact .of_pure (.refl type)
  | none =>
      cases declaration with
      | none => exact .of_pure (.refl _)
      | some node =>
          have same := congrFun sees.isOpen node
          unfold settle
          dsimp only
          by_cases asked : now.isOpen node = true
          · rw [dif_pos asked, dif_pos (same ▸ asked)]
            exact .of_ask asked _
          · rw [dif_neg asked, dif_neg (same ▸ asked)]
            exact .of_pure (.refl _)

theorem echoes_variableType {holder original : VariableDescriptor}
    (fades : (Descriptor.variable holder).Fades (.variable original)) :
    (now.variableType holder).Echoes comparison NominalType.Absorbs
      (before.variableType original) := by
  cases fades with
  | «local» absorbs => exact .of_pure absorbs
  | same =>
      cases holder with
      | property property => exact echoes_settle sees _ _
      | parameter _ parameter => exact .of_pure (.refl _)
      | «local» declared => exact .of_pure (.refl _)

theorem echoes_valueType {descriptor original : Descriptor} (fades : descriptor.Fades original) :
    (now.valueType descriptor).Echoes comparison NominalType.Absorbs
      (before.valueType original) := by
  cases fades with
  | «local» absorbs => exact .of_pure absorbs
  | same plain =>
      cases descriptor with
      | «variable» holder =>
          exact echoes_variableType sees (.same plain)
      | invoke called type => exact echoes_variableType sees (.same (Descriptor.isPlain_variable called))
      | function function =>
          refine (echoes_settle sees _ _).bind fun result other absorbs => ?_
          refine ((Yields.of_tell (Remark.quiet_arity _)).echoes _).bind fun _ _ _ => .of_pure ?_
          exact .functionType (List.forall₂_same.mpr fun type _ => .refl type) absorbs false
      | _ => exact .of_pure (.refl _)

end Types

/-! ### Candidates -/

/-- What can be called: something that is offered, or a value. -/
inductive CanBeCalled (offers : Descriptor → Prop) : Descriptor → Prop
  | function {declared : FunctionDescriptor} (isOffered : offers (.function declared)) :
      CanBeCalled offers (.function declared)
  | class {owner : ClassDescriptor} (isOffered : offers (.class owner)) :
      CanBeCalled offers (.class owner)
  | invoke (called : VariableDescriptor) (type : NominalType) :
      CanBeCalled offers (.invoke called type)

theorem CanBeCalled.proper (plain : ∀ descriptor, offers descriptor → descriptor.IsPlain)
    {candidate : Descriptor} (callable : CanBeCalled offers candidate) :
    ∀ unknown ∈ candidate.callParameters, unknown.kind = .typeParameter := by
  cases callable with
  | function isOffered => exact (plain _ isOffered).proper
  | «class» isOffered => exact (plain _ isOffered).proper
  | invoke => exact List.forall_mem_nil _

section Candidates

variable (plain : ∀ descriptor, offers descriptor → descriptor.IsPlain)

include plain

theorem callable_of_asCallable {descriptor : Descriptor} (isOffered : offers descriptor)
    {found : Option Descriptor} (runs : (around.asCallable descriptor).Runs remarks found) :
    ∀ candidate ∈ found, CanBeCalled offers candidate := by
  cases descriptor with
  | «variable» holder =>
      obtain ⟨type, _, _, -, runsPure, -⟩ := runs_bind_iff.mp runs
      rw [(runs_pure_iff.mp runsPure).2]
      intro candidate isFound
      obtain ⟨arity, -, rfl⟩ := Option.map_eq_some_iff.mp isFound
      exact .invoke holder type
  | specialized function => cases (plain _ isOffered).declared
  | function declared =>
      rw [(runs_pure_iff.mp runs).2]
      rintro _ ⟨⟩
      exact .function isOffered
  | «class» owner =>
      rw [(runs_pure_iff.mp runs).2]
      rintro _ ⟨⟩
      exact .class isOffered
  | _ =>
      rw [(runs_pure_iff.mp runs).2]
      exact fun _ isFound => by cases isFound

theorem callable_of_callables {descriptors found : List Descriptor}
    (areOffered : ∀ descriptor ∈ descriptors, offers descriptor)
    (runs : (around.callables descriptors).Runs remarks found) :
    ∀ candidate ∈ found, CanBeCalled offers candidate := by
  induction descriptors generalizing remarks found with
  | nil =>
      rw [(runs_pure_iff.mp runs).2]
      exact List.forall_mem_nil _
  | cons descriptor rest ih =>
      obtain ⟨isOffered, restOffered⟩ := List.forall_mem_cons.mp areOffered
      obtain ⟨callable, _, _, runsFirst, runsRest, -⟩ := runs_bind_iff.mp runs
      obtain ⟨later, _, _, runsLater, runsPure, -⟩ := runs_bind_iff.mp runsRest
      rw [(runs_pure_iff.mp runsPure).2]
      refine List.forall_mem_append.mpr ⟨fun candidate isFirst => ?_, ih restOffered runsLater⟩
      exact callable_of_asCallable plain isOffered runsFirst candidate (Option.mem_toList.mp isFirst)

theorem callable_of_callablesAt {name : String} {levels : List (List (Symbol Descriptor))}
    (areOffered : ∀ level ∈ levels, ∀ symbol ∈ level, offers symbol.descriptor)
    {found : List Descriptor} (runs : (around.callablesAt name levels).Runs remarks found) :
    ∀ candidate ∈ found, CanBeCalled offers candidate := by
  induction levels generalizing remarks with
  | nil =>
      rw [(runs_pure_iff.mp runs).2]
      exact List.forall_mem_nil _
  | cons level outer ih =>
      obtain ⟨levelOffered, outerOffered⟩ := List.forall_mem_cons.mp areOffered
      obtain ⟨here, _, later, runsHere, runsLater, -⟩ := runs_bind_iff.mp runs
      have callable : ∀ candidate ∈ here, CanBeCalled offers candidate := by
        refine callable_of_callables plain (List.forall_mem_map.mpr fun symbol isSymbol => ?_)
          runsHere
        exact levelOffered symbol (List.mem_of_mem_filter (List.mem_of_mem_filter isSymbol))
      cases here with
      | nil => exact ih outerOffered runsLater
      | cons first rest =>
          rw [(runs_pure_iff.mp runsLater).2]
          exact callable

end Candidates

/-! ### Signatures -/

theorem of_runs_signature {receiver : Substitution} {candidate : Descriptor} {judged : Signature}
    (runs : (around.signature receiver candidate).Runs remarks judged) :
    judged.candidate = candidate ∧ judged.unknowns = candidate.callParameters := by
  cases candidate with
  | function declared =>
      obtain ⟨result, _, _, -, runsPure, -⟩ := runs_bind_iff.mp runs
      rw [(runs_pure_iff.mp runsPure).2]
      exact ⟨rfl, rfl⟩
  | _ =>
      rw [(runs_pure_iff.mp runs).2]
      exact ⟨rfl, rfl⟩

/-- A signature that a candidate was judged by. -/
def Judges (around : Surroundings) (transcript : Transcript) (receiver : Substitution)
    (candidates : List Descriptor) (judged : Signature) : Prop :=
  judged.candidate ∈ candidates ∧
    ∃ remarks, (around.signature receiver judged.candidate).RunsIn transcript remarks judged

theorem judges_of_signatures {receiver : Substitution} {candidates : List Descriptor}
    {judged : List Signature}
    (runs : (around.signatures receiver candidates).RunsIn transcript remarks judged) :
    ∀ signature ∈ judged, around.Judges transcript receiver candidates signature := by
  induction candidates generalizing remarks judged with
  | nil =>
      rw [(runsIn_pure_iff.mp runs).2]
      exact List.forall_mem_nil _
  | cons candidate rest ih =>
      obtain ⟨first, own, _, runsFirst, runsRest, -⟩ := runsIn_bind_iff.mp runs
      obtain ⟨later, _, _, runsLater, runsPure, -⟩ := runsIn_bind_iff.mp runsRest
      rw [(runsIn_pure_iff.mp runsPure).2]
      have isOwn : first.candidate = candidate := (of_runs_signature runsFirst.runs).1
      refine List.forall_mem_cons.mpr ⟨⟨isOwn ▸ List.mem_cons_self, own, ?_⟩, ?_⟩
      · rw [isOwn]
        exact runsFirst
      · intro signature isLater
        obtain ⟨isCandidate, judges⟩ := ih runsLater signature isLater
        exact ⟨List.mem_cons_of_mem _ isCandidate, judges⟩

/-- A candidate that is kept has a signature that absorbs the one from before. -/
theorem echoes_signature (sees : comparison.Sees now before) {candidate original : Descriptor}
    (callable : CanBeCalled offers candidate) (callableBefore : CanBeCalled offers original)
    (keeps : candidate.Keeps original) {receiver receiverBefore : Substitution}
    (instances : receiver.Absorbs receiverBefore) :
    (now.signature receiver candidate).Echoes comparison Signature.Absorbs
      (before.signature receiverBefore original) := by
  cases callable with
  | @function declared =>
      obtain rfl : Descriptor.function declared = original := by
        cases callableBefore <;> exact keeps
      refine (echoes_settle sees _ _).bind fun result other absorbs => .of_pure ⟨?_, ?_, rfl⟩
      · rw [List.forall₂_map_left_iff, List.forall₂_map_right_iff]
        exact List.forall₂_same.mpr fun parameter _ => instances.substitute _ _ (.refl _)
      · exact instances.substitute _ _ absorbs
  | @«class» owner =>
      obtain rfl : Descriptor.class owner = original := by
        cases callableBefore <;> exact keeps
      refine .of_pure ⟨?_, .refl _, rfl⟩
      rw [sees.class?, sees.classBefore?]
      exact List.forall₂_same.mpr fun type _ => .refl type
  | invoke called type =>
      cases callableBefore with
      | invoke calledBefore typeBefore =>
          obtain ⟨sound, absorbs⟩ := keeps
          have parts := absorbs.functionParts? sound
          refine .of_pure ?_
          revert parts
          generalize Library.functionParts? type = found
          generalize Library.functionParts? typeBefore = other
          intro parts
          cases parts with
          | none => exact ⟨.nil, .refl _, rfl⟩
          | some parts => exact ⟨parts.1, parts.2, rfl⟩
      | _ => cases keeps

/-! ### Calls -/

/-- What a call writes down and comes to where it keeps to a transcript. -/
inductive Calls (transcript : Transcript) (reference : NodeRef) (judged : List Signature)
    (arguments : List NominalType) : List Remark → NominalType → Prop
  | chosen {best : Applicable} (inferred : InferredTypes)
      (choice : Choice.among judged arguments = .chosen best)
      (written : transcript.written
        (.meaning reference (.target (Resolver.callTarget inferred best)))) :
      Calls transcript reference judged arguments
        [.meaning reference (.target (Resolver.callTarget inferred best))] best.result
  | mismatch {only : Signature} (remarks : List Remark) {found : Diagnostic}
      (choice : Choice.among judged arguments = .mismatch only)
      (written : transcript.written (.meaning reference (.target only.candidate)))
      (reported : transcript.written (.problem found)) :
      Calls transcript reference judged arguments remarks only.result
  /-- There is no candidate to go to. -/
  | failed {remarks : List Remark} {found : Diagnostic} (quiet : ∀ remark ∈ remarks, remark.Quiet)
      (reported : transcript.written (.problem found)) :
      Calls transcript reference judged arguments remarks .error

theorem calls_of_resolveCall {reference : NodeRef} {name : String} {candidates : List Descriptor}
    {arguments : List NominalType} {receiver : Substitution} {type : NominalType}
    (runs : (around.resolveCall reference name candidates arguments receiver).RunsIn transcript
      remarks type) :
    ∃ judged, (∀ signature ∈ judged, around.Judges transcript receiver candidates signature) ∧
      Calls transcript reference judged arguments remarks type := by
  obtain ⟨judged, silent, later, runsJudged, runsLater, rfl⟩ := runsIn_bind_iff.mp runs
  refine ⟨judged, judges_of_signatures runsJudged, ?_⟩
  rw [silent_signatures _ _ _ _ runsJudged.runs, List.nil_append]
  cases choice : Choice.among judged arguments with
  | none =>
      rw [choice] at runsLater
      obtain ⟨_, earlier, _, runsUnresolved, runsPure, rfl⟩ := runsIn_bind_iff.mp runsLater
      obtain ⟨_, marked, reported, runsMark, runsReport, rfl⟩ := runsIn_bind_iff.mp runsUnresolved
      obtain ⟨rfl, -⟩ := runsMark.of_tell
      obtain ⟨rfl, written⟩ := RunsIn.of_tell runsReport
      obtain ⟨rfl, rfl⟩ := runsIn_pure_iff.mp runsPure
      exact .failed (by simp [Remark.Quiet, Problem.isMismatch, Problem.label]) written
  | mismatch only =>
      rw [choice] at runsLater
      obtain ⟨_, _, _, runsRecord, runsShown, rfl⟩ := runsIn_bind_iff.mp runsLater
      obtain ⟨inferred, _, _, -, runsReport, rfl⟩ := runsIn_bind_iff.mp runsShown
      obtain ⟨_, _, _, runsWrite, runsPure, rfl⟩ := runsIn_bind_iff.mp runsReport
      obtain ⟨own, -, reported⟩ := runsWrite.of_write
      obtain ⟨-, rfl⟩ := runsIn_pure_iff.mp runsPure
      exact .mismatch _ choice (RunsIn.of_tell runsRecord).2 reported
  | inapplicable =>
      rw [choice] at runsLater
      obtain ⟨_, _, _, runsReport, runsMark, rfl⟩ := runsIn_bind_iff.mp runsLater
      obtain ⟨_, _, _, runsTell, runsPure, rfl⟩ := runsIn_bind_iff.mp runsMark
      obtain ⟨rfl, written⟩ := RunsIn.of_tell runsReport
      obtain ⟨rfl, -⟩ := runsTell.of_tell
      obtain ⟨rfl, rfl⟩ := runsIn_pure_iff.mp runsPure
      exact .failed (by simp [Remark.Quiet, Problem.isMismatch, Problem.label]) written
  | ambiguous winners =>
      rw [choice] at runsLater
      obtain ⟨_, _, _, runsMark, runsReport, rfl⟩ := runsIn_bind_iff.mp runsLater
      obtain ⟨_, _, _, runsTell, runsPure, rfl⟩ := runsIn_bind_iff.mp runsReport
      obtain ⟨rfl, -⟩ := runsMark.of_tell
      obtain ⟨rfl, written⟩ := RunsIn.of_tell runsTell
      obtain ⟨rfl, rfl⟩ := runsIn_pure_iff.mp runsPure
      exact .failed (by simp [Remark.Quiet, Problem.isMismatch, Problem.label]) written
  | chosen best =>
      rw [choice] at runsLater
      obtain ⟨inferred, _, _, runsShown, runsRecord, rfl⟩ := runsIn_bind_iff.mp runsLater
      obtain ⟨_, _, _, runsWrite, runsPure, rfl⟩ := runsIn_bind_iff.mp runsRecord
      obtain ⟨own, rfl, written⟩ := runsWrite.of_write
      obtain ⟨rfl, rfl⟩ := runsIn_pure_iff.mp runsPure
      rw [silent_shown _ _ _ runsShown.runs]
      exact .chosen (inferred own) choice written

theorem eq_constructorSignature {base : ResolutionState} (same : around.class? = base.class?)
    {receiver : Substitution} {judged : Signature} {owner : ClassDescriptor}
    (isClass : judged.candidate = .class owner)
    (runs : (around.signature receiver judged.candidate).Runs remarks judged) :
    judged = base.constructorSignature owner := by
  rw [isClass] at runs
  rw [(runs_pure_iff.mp runs).2, same]
  rfl

section Calls

variable (sees : comparison.Sees now before)
  (plain : ∀ descriptor, offers descriptor → descriptor.IsPlain)
  {candidates candidatesBefore : List Descriptor} {receiver receiverBefore : Substitution}
  {arguments originals : List NominalType} {reference : NodeRef}
  (callable : ∀ candidate ∈ candidates, CanBeCalled offers candidate)
  (callableBefore : ∀ candidate ∈ candidatesBefore, CanBeCalled offers candidate)
  (instances : receiver.Absorbs receiverBefore)
  (decides : ∀ owner, offers (.class owner) →
    comparison.now.written (.meaning reference (.target (.class owner))) →
      comparison.before.written (.meaning reference (.target (.class owner))) →
        (comparison.base.constructorSignature owner).inferred arguments =
          (comparison.base.constructorSignature owner).inferred originals)

/-- A single candidate that a call goes on with as before is not generic. -/
theorem targets_of_keeps {signature original : Signature} {meant : Descriptor}
    (targetsBefore : original.Targets originals meant) (keeps : signature.candidate.Keeps meant) :
    signature.Targets arguments signature.candidate := by
  refine .itself fun declared isFunction => ?_
  rw [isFunction] at keeps
  cases targetsBefore with
  | specialized _ _ => cases keeps
  | itself notGeneric =>
      have same : .function declared = original.candidate := by
        generalize original.candidate = candidate at keeps
        cases candidate <;> exact keeps
      exact notGeneric declared same.symm

include sees callable decides in
/-- Of the candidates that are no generic functions only a constructor has type parameters to
decide, and it decides them as it did. -/
theorem inferred_eq_of_keeps {signature original : Signature}
    (judges : now.Judges comparison.now receiver candidates signature)
    (judgesBefore : before.Judges comparison.before receiverBefore candidatesBefore original)
    (notGeneric : ∀ declared, signature.candidate = .function declared →
      declared.typeParameters = [])
    (keeps : signature.candidate.Keeps original.candidate)
    (sameUnknowns : signature.unknowns = original.unknowns)
    (written : comparison.now.written (.meaning reference (.target signature.candidate)))
    (writtenBefore : comparison.before.written (.meaning reference (.target original.candidate))) :
    signature.inferred arguments = original.inferred originals := by
  obtain ⟨isCandidate, own, runs⟩ := judges
  obtain ⟨isCandidateBefore, ownBefore, runsBefore⟩ := judgesBefore
  by_cases isClass : ∃ owner, signature.candidate = .class owner
  · obtain ⟨owner, isThis⟩ := isClass
    have wasThis : original.candidate = .class owner := by
      rw [isThis] at keeps
      generalize original.candidate = candidate at keeps
      cases candidate <;> exact keeps.symm
    have isOffered : offers (.class owner) := by
      have canBeCalled := callable _ isCandidate
      rw [isThis] at canBeCalled
      cases canBeCalled with
      | «class» isOffered => exact isOffered
    rw [eq_constructorSignature sees.class? isThis runs.runs,
      eq_constructorSignature sees.classBefore? wasThis runsBefore.runs]
    rw [isThis] at written
    rw [wasThis] at writtenBefore
    exact decides owner isOffered written writtenBefore
  · have nothing : signature.unknowns = [] := by
      rw [(of_runs_signature runs.runs).2]
      cases isThis : signature.candidate with
      | «class» owner => exact absurd ⟨owner, isThis⟩ isClass
      | function declared =>
          rw [Descriptor.callParameters, notGeneric declared isThis]
          rfl
      | _ => rfl
    rw [Signature.inferred_of_unknowns_eq_nil nothing,
      Signature.inferred_of_unknowns_eq_nil (sameUnknowns ▸ nothing)]

include sees callable callableBefore instances decides

/-- Where a call goes on as before, the signature it goes by absorbs the one from before, and the
type parameters are decided as they were. -/
theorem agrees_of_written {signature original : Signature}
    (judges : now.Judges comparison.now receiver candidates signature)
    (judgesBefore : before.Judges comparison.before receiverBefore candidatesBefore original)
    {target meant : Descriptor} (targets : signature.Targets arguments target)
    (targetsBefore : original.Targets originals meant)
    (written : comparison.now.written (.meaning reference (.target target)))
    (writtenBefore : comparison.before.written (.meaning reference (.target meant))) :
    signature.Absorbs original ∧ signature.inferred arguments = original.inferred originals := by
  obtain ⟨isCandidate, own, runs⟩ := id judges
  obtain ⟨isCandidateBefore, ownBefore, runsBefore⟩ := id judgesBefore
  have keeps := comparison.keeps reference target meant written writtenBefore
  have canBeCalled := callable _ isCandidate
  have couldBeCalled := callableBefore _ isCandidateBefore
  have absorbs (kept : signature.candidate.Keeps original.candidate) :
      signature.Absorbs original :=
    (echoes_signature sees canBeCalled couldBeCalled kept instances _ _ runsBefore _ _ runs).1
  cases targets with
  | specialized inferred isFunction =>
      cases targetsBefore with
      | specialized inferredBefore wasFunction =>
          obtain ⟨sameFunction, sameSubstitution⟩ := keeps
          refine ⟨absorbs ?_, sameSubstitution⟩
          rw [isFunction, wasFunction]
          exact congrArg Descriptor.function sameFunction
      | itself =>
          generalize original.candidate = candidate at keeps couldBeCalled
          cases couldBeCalled <;> cases keeps
  | itself notGeneric =>
      cases targetsBefore with
      | specialized inferredBefore wasFunction =>
          generalize signature.candidate = candidate at keeps canBeCalled
          cases canBeCalled <;> cases keeps
      | itself =>
          exact ⟨absorbs keeps, inferred_eq_of_keeps sees callable decides judges judgesBefore
            notGeneric keeps (absorbs keeps).unknowns written writtenBefore⟩

include plain

/-- A call comes to a type that absorbs what it came to, and reports no mismatch. -/
theorem echoes_resolveCall (given : List.Forall₂ NominalType.Absorbs arguments originals)
    (name : String) :
    (now.resolveCall reference name candidates arguments receiver).Echoes comparison
      NominalType.Absorbs
      (before.resolveCall reference name candidatesBefore originals receiverBefore) := by
  intro earlier other runsBefore remarks type runs
  obtain ⟨judgedBefore, areJudgedBefore, calledBefore⟩ := calls_of_resolveCall runsBefore
  obtain ⟨judged, areJudged, called⟩ := calls_of_resolveCall runs
  cases calledBefore with
  | mismatch _ _ _ reported | failed _ reported => exact (comparison.noProblem _ reported).elim
  | @chosen bestBefore inferredBefore choiceBefore writtenBefore =>
      obtain ⟨original, isOriginal, acceptedBefore⟩ :=
        Choice.exists_accept?_of_among_eq_chosen choiceBefore
      have targetsBefore := Signature.targets_of_accept? acceptedBefore inferredBefore
      have judgesBefore := areJudgedBefore original isOriginal
      have proper : ∀ unknown ∈ original.unknowns, unknown.kind = .typeParameter := by
        obtain ⟨isCandidate, _, ran⟩ := judgesBefore
        rw [(of_runs_signature ran.runs).2]
        exact (callableBefore _ isCandidate).proper plain
      cases called with
      | failed quiet _ => exact ⟨.of_isError rfl, quiet⟩
      | @mismatch only _ _ choice written reported =>
          have targets : only.Targets arguments only.candidate :=
            targets_of_keeps targetsBefore (comparison.keeps _ _ _ written writtenBefore)
          obtain ⟨absorbs, decided⟩ := agrees_of_written sees callable callableBefore instances
            decides (areJudged only (Choice.mem_of_among_eq_mismatch choice)) judgesBefore targets
            targetsBefore written writtenBefore
          have accepted := absorbs.accept?_isSome proper decided given
            (Option.isSome_of_eq_some acceptedBefore)
          rw [Choice.accept?_eq_none_of_among_eq_mismatch choice] at accepted
          cases accepted
      | @chosen best inferred choice written =>
          obtain ⟨signature, isSignature, accepted⟩ :=
            Choice.exists_accept?_of_among_eq_chosen choice
          obtain ⟨absorbs, decided⟩ := agrees_of_written sees callable callableBefore instances
            decides (areJudged signature isSignature) judgesBefore
            (Signature.targets_of_accept? accepted inferred) targetsBefore written writtenBefore
          refine ⟨?_, List.forall_mem_singleton.mpr (Remark.quiet_meaning _ _)⟩
          rw [(Choice.of_accept? accepted).2.2, (Choice.of_accept? acceptedBefore).2.2]
          exact absorbs.result_substitute proper decided

end Calls

end Surroundings

end Gloss
