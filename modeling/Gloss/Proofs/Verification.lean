import Gloss.Proofs.Table
import Gloss.Verification

/-!
# Verification of a fixture

What a single judgement can come to, what remains of a verification that ends
at the first mismatch, and what comes of a fixture as a whole.
-/

/-!
### What judgements can come to

A judgement fails with a mismatch and ends with a fault of the fixture, and
never the other way round.  A declaration lacks a descriptor only where the
resolver gives none to the node that a payload names.
-/

namespace Gloss

namespace Verdict

/-- The faults have certain causes, and what fails is a mismatch. -/
def Within (raises : Cause → Prop) : Verdict → Prop
  | .error fault => raises fault.cause
  | .ok (some mismatch) => ∃ kind details, mismatch.cause = .mismatch kind details
  | .ok none => True

variable {raises : Cause → Prop} {verdict : Verdict}

theorem within_met : Within raises .met := trivial

theorem within_mismatch {kind : MismatchKind} {details : Mismatch} {fault : Fault}
    (caused : fault.cause = .mismatch kind details) : Within raises (.mismatch fault) :=
  ⟨kind, details, caused⟩

theorem within_fault {cause : Cause} (place : Place) (raised : raises cause) :
    Within raises (.fault (.of cause place)) :=
  raised

end Verdict

namespace Bench

open Verdict

variable {ν δ κ : Type}

/-- The causes of the faults with which judgements on a bench can end. -/
inductive Raises (bench : Bench ν δ κ) : Cause → Prop
  | undeclaredName (name : String) : bench.Raises (.undeclaredName name)
  | unknownClassifier (name : String) : bench.Raises (.unknownClassifier name)
  | missingConstructorParameter (name : String) :
      bench.Raises (.missingConstructorParameter name)
  | missingDescriptor (name payload : String) (node : ν)
      (expected : bench.expected? payload = some (.declaration node))
      (missing : bench.analysis.model.descriptor node = none) :
      bench.Raises (.missingDescriptor name)
  | unsupportedTypeAssertion (name declaration : String) :
      bench.Raises (.unsupportedTypeAssertion name declaration)
  | missingReference (payload : String) : bench.Raises (.missingReference payload)
  | missingExpression (payload : String) : bench.Raises (.missingExpression payload)

variable {bench : Bench ν δ κ} {place : Place} {reference : ν} {payload : String}

/-- Whatever ends a judgement is the fixture's fault. -/
theorem Raises.isFatal {cause : Cause} (raised : bench.Raises cause) :
    (cause.isMalformed || cause.isMissingContext) = true := by
  cases raised <;> rfl

theorem within_judgeSentinel (sentinel : Sentinel) :
    Within bench.Raises (bench.judgeSentinel place reference sentinel) := by
  unfold judgeSentinel
  split
  · exact within_met
  · exact within_mismatch rfl

section Targets

variable [DecidableEq ν] [DecidableEq δ]

theorem within_judgeDescriptor (expected : δ) :
    Within bench.Raises (bench.judgeDescriptor place reference payload expected) := by
  simp only [judgeDescriptor]
  split
  · exact within_met
  · exact within_mismatch rfl

theorem within_judgeDeclaration {expected : ν}
    (named : bench.expected? payload = some (.declaration expected)) :
    Within bench.Raises (bench.judgeDeclaration place reference payload expected) := by
  simp only [judgeDeclaration]
  split
  · split
    · next missing => exact within_fault place (.missingDescriptor _ payload expected named missing)
    · exact within_judgeDescriptor _
  · split
    · exact within_met
    · exact within_mismatch rfl

theorem within_judgeConstructorParameter (expected : ν) :
    Within bench.Raises
      (bench.judgeConstructorParameter place reference payload expected) := by
  unfold judgeConstructorParameter
  split
  · exact within_fault place (.missingConstructorParameter _)
  · exact within_judgeDescriptor _

end Targets

theorem within_judgeExternal [DecidableEq δ] [DecidableEq κ] :
    Within bench.Raises (bench.judgeExternal place reference payload) := by
  unfold judgeExternal
  split
  · simp only [judgeLibraryTarget]
    split
    · exact within_met
    · exact within_mismatch rfl
  · split
    · exact within_fault place (.unknownClassifier payload)
    · unfold judgeLibraryType
      split
      · exact within_mismatch rfl
      · split
        · exact within_met
        · exact within_mismatch rfl

theorem within_judgeReference [DecidableEq ν] [DecidableEq δ] [DecidableEq κ] :
    Within bench.Raises (bench.judgeReference place reference payload) := by
  unfold judgeReference
  split
  · exact within_judgeSentinel _
  · split
    · next named => exact within_judgeDeclaration named
    · exact within_judgeConstructorParameter _
    · split
      · exact within_judgeExternal
      · exact within_fault place (.undeclaredName payload)

theorem raises_of_expectedConstructor {name : String} {fault : Fault}
    (failed : bench.expectedConstructor place name = .error fault) :
    bench.Raises fault.cause := by
  unfold expectedConstructor at failed
  split at failed
  · split at failed
    · cases failed
      exact .unknownClassifier name
    · cases failed
  · split at failed
    · cases failed
      exact .undeclaredName name
    · split at failed
      · cases failed
        exact .unsupportedTypeAssertion name _
      · cases failed

theorem within_judgeType [DecidableEq κ] (position : Int) (expected : κ) :
    Within bench.Raises (bench.judgeType position reference payload expected) := by
  unfold judgeType
  split
  · exact within_mismatch rfl
  · split
    · exact within_met
    · exact within_mismatch rfl

/-- Every judgement is met, fails with a mismatch, or ends with one of the
faults of a fixture. -/
theorem within_judge [DecidableEq ν] [DecidableEq δ] [DecidableEq κ]
    (bench : Bench ν δ κ) (expectation : Expectation) :
    Within bench.Raises (bench.judge expectation) := by
  simp only [judge]
  cases expectation.aspect with
  | reference =>
      simp only
      split
      · exact within_fault _ (.missingReference _)
      · exact within_judgeReference
  | type =>
      simp only
      split
      · exact within_fault _ (.missingExpression _)
      · split
        · next failed => exact raises_of_expectedConstructor failed
        · exact within_judgeType _ _

end Bench

end Gloss

/-!
### Ending at the first mismatch

A verification that ends at the first mismatch agrees with one that collects
them.  Both judge the same expectations in the same order, as long as none of
them fails; from the first mismatch on there is nothing left to compare, since
one of the two has ended with it.
-/

namespace Gloss

/-- The expectations of a fixture that are judged under some options. -/
def Fixture.judged (fixture : Fixture) (options : Options) : List Expectation :=
  if options.declarationsOnly then [] else fixture.expectations.inOrder

namespace Verification

variable {ν δ κ : Type} [DecidableEq ν] [DecidableEq δ] [DecidableEq κ]

/-- Judging expectations one after the other comes to the findings, and then
either to the end or to the fault of the next expectation. -/
inductive Judges (bench : Bench ν δ κ) : List Expectation → List Finding → Option Fault → Prop
  | nil : Judges bench [] [] none
  | fault {expectation : Expectation} {rest : List Expectation} {fault : Fault} :
      bench.judge expectation = .error fault →
      Judges bench (expectation :: rest) [] (some fault)
  | finding {expectation : Expectation} {rest : List Expectation} {failure : Option Fault}
      {later : List Finding} {ended : Option Fault} :
      bench.judge expectation = .ok failure →
      Judges bench rest later ended →
      Judges bench (expectation :: rest) ({ expectation, failure } :: later) ended

/-- The fault before which a verification of the fixture has come to the
findings: there are none yet when a declaration marker is misplaced. -/
inductive EndsAfter (options : Options) (analysis : Analysis ν δ κ) (fixture : Fixture)
    (fault : Fault) : List Finding → Prop
  | declarations :
      bind analysis fixture.place .empty fixture.expectations.declarations.entries =
        .error fault →
      EndsAfter options analysis fixture fault []
  | judgements {declared : Table String ν} {findings : List Finding} :
      bind analysis fixture.place .empty fixture.expectations.declarations.entries =
        .ok declared →
      Judges ⟨analysis, options.prefixes, declared, fixture.place⟩
        (fixture.judged options) findings (some fault) →
      EndsAfter options analysis fixture fault findings

variable {bench : Bench ν δ κ} {expectations : List Expectation} {findings : List Finding}
  {ended : Option Fault}

theorem exists_judges (bench : Bench ν δ κ) (expectations : List Expectation) :
    ∃ findings ended, Judges bench expectations findings ended := by
  induction expectations with
  | nil => exact ⟨[], none, .nil⟩
  | cons expectation rest ih =>
      obtain ⟨later, ended, judges⟩ := ih
      cases judged : bench.judge expectation with
      | error fault => exact ⟨[], some fault, .fault judged⟩
      | ok failure => exact ⟨_, ended, .finding judged judges⟩

namespace Judges

/-- Collecting goes on to the fault or the end, whatever the findings are. -/
theorem judgeAll_false (judges : Judges bench expectations findings ended) :
    judgeAll bench false expectations = ended.elim (.ok findings) .error := by
  induction judges with
  | nil => rfl
  | fault judged => simp only [judgeAll, judged, Option.elim]
  | @finding _ _ _ _ ended judged _ ih =>
      simp only [judgeAll, judged, ih]
      cases ended <;> rfl

/-- The first mismatch ends the judgements, and only a mismatch ends them
earlier than collecting does. -/
theorem judgeAll_true (judges : Judges bench expectations findings ended) :
    judgeAll bench true expectations =
      (findings.filterMap Finding.failure).head?.elim
        (judgeAll bench false expectations) .error := by
  induction judges with
  | nil => rfl
  | fault judged => simp only [judgeAll, judged, List.filterMap_nil, List.head?_nil, Option.elim]
  | @finding _ _ failure later _ judged _ ih =>
      cases failure with
      | some mismatch => simp [judgeAll, judged]
      | none =>
          simp only [judgeAll, judged, ih, List.filterMap_cons]
          cases (later.filterMap Finding.failure).head? <;> rfl

end Judges

theorem verify_eq_error {options : Options} {analysis : Analysis ν δ κ} {fixture : Fixture}
    {fault : Fault}
    (failed : bind analysis fixture.place .empty fixture.expectations.declarations.entries =
      .error fault) :
    verify options analysis fixture = .error fault := by
  rw [verify, failed]

theorem verify_eq_map {options : Options} {analysis : Analysis ν δ κ} {fixture : Fixture}
    {declared : Table String ν}
    (bound : bind analysis fixture.place .empty fixture.expectations.declarations.entries =
      .ok declared) :
    verify options analysis fixture =
      (judgeAll ⟨analysis, options.prefixes, declared, fixture.place⟩ options.failFast
        (fixture.judged options)).map fun findings =>
          { file := fixture.file, declarations := declared, findings } := by
  rw [verify, bound]
  rfl

/-- Ending at the first mismatch and collecting compared.  Where the report has
no failures both come to it, and where it has, the first of them ends the
other verification.  Where collecting ends with a fault, so does the other,
unless an expectation judged before it fails: then the first of these does. -/
theorem verify_failFast (options : Options) (analysis : Analysis ν δ κ) (fixture : Fixture) :
    match verify { options with failFast := false } analysis fixture with
    | .ok report =>
        (report.failures = [] →
          verify { options with failFast := true } analysis fixture = .ok report) ∧
        ∀ first later, report.failures = first :: later →
          verify { options with failFast := true } analysis fixture = .error first
    | .error fault =>
        ∃ findings, EndsAfter options analysis fixture fault findings ∧
          (findings.filterMap Finding.failure = [] →
            verify { options with failFast := true } analysis fixture = .error fault) ∧
          ∀ first later, findings.filterMap Finding.failure = first :: later →
            verify { options with failFast := true } analysis fixture = .error first := by
  cases bound : bind analysis fixture.place .empty
      fixture.expectations.declarations.entries with
  | error fault =>
      rw [verify_eq_error bound, verify_eq_error bound]
      exact ⟨[], .declarations bound, fun _ => rfl, fun _ _ some => absurd some (by simp)⟩
  | ok declared =>
      -- One derivation says what either mode does; they differ in where they stop.
      obtain ⟨findings, ended, judges⟩ := exists_judges
        (⟨analysis, options.prefixes, declared, fixture.place⟩ : Bench ν δ κ)
        (fixture.judged options)
      have collecting : verify { options with failFast := false } analysis fixture =
          (ended.elim (.ok findings) .error : Except Fault (List Finding)).map _ :=
        (verify_eq_map bound).trans (congrArg (Except.map _) judges.judgeAll_false)
      have failFast : verify { options with failFast := true } analysis fixture =
          ((findings.filterMap Finding.failure).head?.elim
            (ended.elim (.ok findings) .error) .error :
              Except Fault (List Finding)).map _ :=
        (verify_eq_map bound).trans
          (congrArg (Except.map _) (judges.judgeAll_false ▸ judges.judgeAll_true))
      rw [collecting, failFast]
      cases ended with
      | none =>
          refine ⟨fun none => ?_, fun first later some => ?_⟩
          · rw [show findings.filterMap Finding.failure = [] from none]
            rfl
          · rw [show findings.filterMap Finding.failure = first :: later from some]
            rfl
      | some fault =>
          refine ⟨findings, .judgements bound judges, fun none => ?_, fun first later some => ?_⟩
          · rw [none]
            rfl
          · rw [some]
            rfl

end Verification

end Gloss

/-!
### Verification of a whole fixture

Where every declaration marker stands at a declaration, all of them are bound;
where every expectation can be judged, the findings are the expectations with
their judgements, in the same order.
-/

namespace Gloss.Verification

variable {ν δ κ : Type} {analysis : Analysis ν δ κ}

/-- Markers at declarations are bound to them; no other name is bound. -/
theorem bind_eq_ok (place : Int → Place) {entries : List (String × Int)}
    (names : String → ν → Prop)
    (located : ∀ entry ∈ entries, ∃ node,
      analysis.model.declarationAt entry.2 = some node ∧ names entry.1 node)
    (declared : Table String ν) :
    ∃ table, bind analysis place declared entries = .ok table ∧
      (∀ name, (declared.get? name).isSome ∨ name ∈ entries.map Prod.fst →
        (table.get? name).isSome) ∧
      ∀ name node, table.get? name = some node →
        declared.get? name = some node ∨ names name node := by
  induction entries generalizing declared with
  | nil =>
      refine ⟨declared, rfl, ?_, fun _ _ found => .inl found⟩
      intro name given
      rcases given with known | none
      · exact known
      · cases none
  | cons entry rest ih =>
      obtain ⟨name, position⟩ := entry
      obtain ⟨node, isAt, named⟩ := located _ List.mem_cons_self
      have locatedRest := fun other inRest => located other (List.mem_cons_of_mem _ inRest)
      obtain ⟨table, bound, complete, sound⟩ := ih locatedRest (declared.insert name node)
      refine ⟨table, ?_, ?_, ?_⟩
      · simp only [bind, isAt]
        exact bound
      · intro other known
        apply complete
        rw [List.map_cons, List.mem_cons] at known
        rcases known with before | rfl | inRest
        · exact .inl (Table.isSome_get?_insert node before)
        · exact .inl (Table.isSome_get?_insert_self _ _ _)
        · exact .inr inRest
      · intro other found isFound
        rcases sound other found isFound with inserted | isNamed
        · rw [Table.get?_insert] at inserted
          split at inserted
          · next same =>
              rw [Option.some.injEq] at inserted
              exact .inr (same ▸ inserted ▸ named)
          · exact .inl inserted
        · exact .inr isNamed

variable [DecidableEq ν] [DecidableEq δ] [DecidableEq κ]

/-- Expectations that can be judged are findings with their judgements, in the
same order. -/
theorem exists_judgeAll {bench : Bench ν δ κ} (goal : Finding → Prop)
    {expectations : List Expectation}
    (judged : ∀ expectation ∈ expectations, ∃ failure,
      bench.judge expectation = .ok failure ∧ goal { expectation, failure }) :
    ∃ findings, judgeAll bench false expectations = .ok findings ∧
      findings.map Finding.expectation = expectations ∧
        ∀ finding ∈ findings, goal finding := by
  induction expectations with
  | nil => exact ⟨[], rfl, rfl, List.forall_mem_nil goal⟩
  | cons expectation rest ih =>
      obtain ⟨failure, isJudged, reached⟩ := judged expectation List.mem_cons_self
      obtain ⟨findings, all, same, goals⟩ :=
        ih fun other inRest => judged other (List.mem_cons_of_mem _ inRest)
      refine ⟨{ expectation, failure } :: findings, ?_, ?_, ?_⟩
      · simp only [judgeAll, isJudged, all]
        rfl
      · rw [List.map_cons, same]
      · exact List.forall_mem_cons.mpr ⟨reached, goals⟩

end Gloss.Verification
