import Gloss.Proofs.Verification

/-!
# Every expectation is judged on its own

A verification that collects mismatches either ends with a fault of the fixture
or lists one finding for each entry of the tables, references first and each
kind by ascending positions.  A finding does not depend on the other entries:
it is the one that a fixture with no other entry has.
-/

namespace Gloss

/-- A fault of the fixture, as opposed to an expectation that fails. -/
def Fault.isFatal (fault : Fault) : Bool :=
  fault.cause.isMalformed || fault.cause.isMissingContext

theorem Fault.ne_mismatch_of_isFatal {fault : Fault} (fatal : fault.isFatal = true)
    (kind : MismatchKind) (details : Mismatch) : fault.cause ≠ .mismatch kind details := by
  intro same
  rw [isFatal, same] at fatal
  cases fatal

/-- Whatever cannot be judged is the fixture's fault. -/
theorem Bench.isFatal_of_judge {ν δ κ : Type} [DecidableEq ν] [DecidableEq δ] [DecidableEq κ]
    {bench : Bench ν δ κ} {expectation : Expectation} {fault : Fault}
    (failed : bench.judge expectation = .error fault) : fault.isFatal = true := by
  have within := bench.within_judge expectation
  rw [failed] at within
  exact Raises.isFatal within

namespace Expectations

/-- The declarations, and of the other entries a single one. -/
def only (expectations : Expectations) (expectation : Expectation) : Expectations :=
  match expectation.aspect with
  | .reference =>
      { declarations := expectations.declarations
        references := ⟨[(expectation.position, expectation.payload)]⟩
        typeAssertions := .empty }
  | .type =>
      { declarations := expectations.declarations
        references := .empty
        typeAssertions := ⟨[(expectation.position, expectation.payload)]⟩ }

theorem declarations_only (expectations : Expectations) (expectation : Expectation) :
    (expectations.only expectation).declarations = expectations.declarations := by
  unfold only
  split <;> rfl

theorem inOrder_only (expectations : Expectations) (expectation : Expectation) :
    (expectations.only expectation).inOrder = [expectation] := by
  obtain ⟨aspect, position, payload⟩ := expectation
  cases aspect <;> simp [only, inOrder, ofAspect, ascending, Table.empty]

theorem ofAspect_perm (aspect : Aspect) (table : Table Int String) :
    (ofAspect aspect table).Perm
      (table.entries.map fun entry => { aspect, position := entry.1, payload := entry.2 }) :=
  (List.mergeSort_perm table.entries _).map _

theorem pairwise_ofAspect (aspect : Aspect) (table : Table Int String) :
    (ofAspect aspect table).Pairwise fun first second => first.position ≤ second.position := by
  rw [ofAspect, List.pairwise_map]
  have transitive : ∀ first second third : Int × String, decide (first.1 ≤ second.1) = true →
      decide (second.1 ≤ third.1) = true → decide (first.1 ≤ third.1) = true := by
    simp only [decide_eq_true_eq]
    omega
  have total : ∀ first second : Int × String,
      (decide (first.1 ≤ second.1) || decide (second.1 ≤ first.1)) = true := by
    simp only [Bool.or_eq_true, decide_eq_true_eq]
    omega
  exact (List.pairwise_mergeSort transitive total table.entries).imp of_decide_eq_true

end Expectations

/-- A fixture with the same text and declarations, but a single other entry. -/
def Fixture.only (fixture : Fixture) (expectation : Expectation) : Fixture :=
  { fixture with expectations := fixture.expectations.only expectation }

namespace Verification

variable {ν δ κ : Type} {analysis : Analysis ν δ κ}

/-- The findings are for the entries of a table, one for each, by ascending
positions. -/
structure Lists (aspect : Aspect) (table : Table Int String) (findings : List Finding) :
    Prop where
  entries : (findings.map Finding.expectation).Perm
    (table.entries.map fun entry => { aspect, position := entry.1, payload := entry.2 })
  ascending : findings.Pairwise fun first second =>
    first.expectation.position ≤ second.expectation.position

theorem lists_of_map_eq {aspect : Aspect} {table : Table Int String} {findings : List Finding}
    (same : findings.map Finding.expectation = Expectations.ofAspect aspect table) :
    Lists aspect table findings where
  entries := same ▸ Expectations.ofAspect_perm aspect table
  ascending := by
    have sorted := Expectations.pairwise_ofAspect aspect table
    rw [← same, List.pairwise_map] at sorted
    exact sorted

theorem isFatal_of_bind {place : Int → Place} {declared : Table String ν}
    {entries : List (String × Int)} {fault : Fault}
    (failed : bind analysis place declared entries = .error fault) : fault.isFatal = true := by
  induction entries generalizing declared with
  | nil => cases failed
  | cons entry rest ih =>
      rw [bind] at failed
      split at failed
      · cases failed
        rfl
      · exact ih failed

variable [DecidableEq ν] [DecidableEq δ] [DecidableEq κ] {bench : Bench ν δ κ}
  {expectations : List Expectation}

/-- What is collected is the judgement of each expectation. -/
theorem judge_of_judgeAll_eq_ok {findings : List Finding}
    (collected : judgeAll bench false expectations = .ok findings) :
    findings.map Finding.expectation = expectations ∧
      ∀ finding ∈ findings, bench.judge finding.expectation = .ok finding.failure := by
  induction expectations generalizing findings with
  | nil =>
      cases collected
      exact ⟨rfl, fun _ none => absurd none List.not_mem_nil⟩
  | cons expectation rest ih =>
      rw [judgeAll] at collected
      cases judged : bench.judge expectation with
      | error fault => simp [judged] at collected
      | ok failure =>
          simp only [judged] at collected
          cases later : judgeAll bench false rest with
          | error fault => simp [later, Except.map] at collected
          | ok others =>
              simp only [later, Except.map, Except.ok.injEq] at collected
              subst collected
              obtain ⟨same, each⟩ := ih later
              exact ⟨by rw [List.map_cons, same], List.forall_mem_cons.mpr ⟨judged, each⟩⟩

/-- A fault that ends the judgements is that of one expectation. -/
theorem exists_judge_of_judgeAll_eq_error {fault : Fault}
    (failed : judgeAll bench false expectations = .error fault) :
    ∃ expectation ∈ expectations, bench.judge expectation = .error fault := by
  induction expectations with
  | nil => cases failed
  | cons expectation rest ih =>
      rw [judgeAll] at failed
      cases judged : bench.judge expectation with
      | error found =>
          simp only [judged, Except.error.injEq] at failed
          exact ⟨expectation, List.mem_cons_self, failed ▸ judged⟩
      | ok failure =>
          simp only [judged] at failed
          cases later : judgeAll bench false rest with
          | ok findings => simp [later, Except.map] at failed
          | error found =>
              simp only [later, Except.map, Except.error.injEq] at failed
              obtain ⟨other, inRest, itsFault⟩ := ih (failed ▸ later)
              exact ⟨other, List.mem_cons_of_mem _ inRest, itsFault⟩

/-- A fixture with a single entry is judged like that entry. -/
theorem verify_only (prefixes : Prefixes) (fixture : Fixture) (expectation : Expectation) :
    verify { prefixes } analysis (fixture.only expectation) =
      match bind analysis fixture.place .empty fixture.expectations.declarations.entries with
      | .error fault => .error fault
      | .ok declared =>
          (Bench.judge ⟨analysis, prefixes, declared, fixture.place⟩ expectation).map
            fun failure =>
              { file := fixture.file, declarations := declared
                findings := [{ expectation, failure }] } := by
  have inOrder : (fixture.only expectation).expectations.inOrder = [expectation] :=
    Expectations.inOrder_only _ _
  have declarations : (fixture.only expectation).expectations.declarations =
      fixture.expectations.declarations :=
    Expectations.declarations_only _ _
  have place : (fixture.only expectation).place = fixture.place := rfl
  simp only [verify, inOrder, declarations, place, Bool.false_eq_true, if_false]
  cases bind analysis fixture.place .empty fixture.expectations.declarations.entries with
  | error fault => rfl
  | ok declared =>
      cases judged : Bench.judge ⟨analysis, prefixes, declared, fixture.place⟩ expectation with
      | error fault => simp only [judgeAll, judged, Except.map]
      | ok failure =>
          simp only [judgeAll, judged, Except.map]
          rfl

/-- Without options that end it early, a verification ends with a fault of the
fixture, that of the declarations or of one entry; or else its report lists a
finding for every entry, in the order of the positions, and each finding is
that of a fixture with no other entry. -/
theorem verify_lists_entries (prefixes : Prefixes) (analysis : Analysis ν δ κ)
    (fixture : Fixture) :
    match verify { prefixes } analysis fixture with
    | .error fault =>
        (fault.cause.isMalformed = true ∨ fault.cause.isMissingContext = true) ∧
          (∀ kind details, fault.cause ≠ .mismatch kind details) ∧
          ((∀ expectation,
              verify { prefixes } analysis (fixture.only expectation) = .error fault) ∨
            ∃ expectation ∈ fixture.expectations.inOrder,
              verify { prefixes } analysis (fixture.only expectation) = .error fault)
    | .ok report =>
        (∃ references types, report.findings = references ++ types ∧
          Lists .reference fixture.expectations.references references ∧
          Lists .type fixture.expectations.typeAssertions types) ∧
        ∀ finding ∈ report.findings,
          verify { prefixes } analysis (fixture.only finding.expectation) =
            .ok { report with findings := [finding] } := by
  have single (expectation : Expectation) :
      verify { prefixes } analysis (fixture.only expectation) = _ :=
    verify_only prefixes fixture expectation
  cases bound : bind analysis fixture.place .empty
      fixture.expectations.declarations.entries with
  | error fault =>
      have whole : verify { prefixes } analysis fixture = .error fault := by
        rw [verify, bound]
      rw [whole]
      have fatal := isFatal_of_bind bound
      refine ⟨by simpa [Fault.isFatal] using fatal, Fault.ne_mismatch_of_isFatal fatal, .inl ?_⟩
      intro expectation
      simpa only [bound] using single expectation
  | ok declared =>
      simp only [bound] at single
      have whole : verify { prefixes } analysis fixture =
          (judgeAll ⟨analysis, prefixes, declared, fixture.place⟩ false
            fixture.expectations.inOrder).map fun findings =>
              { file := fixture.file, declarations := declared, findings } := by
        rw [verify, bound]
        rfl
      rw [whole]
      cases judged : judgeAll ⟨analysis, prefixes, declared, fixture.place⟩ false
          fixture.expectations.inOrder with
      | error fault =>
          obtain ⟨expectation, inOrder, itsFault⟩ := exists_judge_of_judgeAll_eq_error judged
          have fatal := Bench.isFatal_of_judge itsFault
          refine ⟨by simpa [Fault.isFatal] using fatal, Fault.ne_mismatch_of_isFatal fatal,
            .inr ⟨expectation, inOrder, ?_⟩⟩
          rw [single, itsFault]
          rfl
      | ok findings =>
          obtain ⟨same, each⟩ := judge_of_judgeAll_eq_ok judged
          obtain ⟨references, types, rfl, areReferences, areTypes⟩ :=
            List.map_eq_append_iff.mp same
          refine ⟨⟨references, types, rfl, lists_of_map_eq areReferences,
            lists_of_map_eq areTypes⟩, ?_⟩
          intro finding inFindings
          rw [single, each finding inFindings]
          rfl

end Verification

end Gloss
