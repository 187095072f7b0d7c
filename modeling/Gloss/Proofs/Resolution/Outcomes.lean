import Gloss.Check
import Gloss.Proofs.Grammar.Placement.Files
import Gloss.Proofs.Resolution.Checking
import Gloss.Proofs.Tree.Innermost

/-!
# Every reference has one outcome

In a file that can be read every reference outside of the package line has a
target, is ambiguous or is unresolved, and never two of these at once; the names
in the package line have no outcome at all.  So the sentinels that a reference
satisfies are decided by the table that it stands in.
-/

namespace Gloss

namespace Bindings

variable {ν δ : Type} [DecidableEq ν] {bindings : Bindings ν δ} {reference : ν}
  {meaning : Option (Meaning δ)}

/-- In how many of the three tables a reference stands. -/
def outcomeCount (bindings : Bindings ν δ) (reference : ν) : Nat :=
  (bindings.targets.contains reference).toNat + (bindings.isAmbiguous reference).toNat +
    (bindings.isUnresolved reference).toNat

/-- A reference with a meaning stands in one table, any other in none. -/
theorem Holds.outcomeCount_eq (holds : bindings.Holds reference meaning) :
    bindings.outcomeCount reference = meaning.isSome.toNat := by
  rw [outcomeCount, Table.contains, holds.target?_eq, holds.isAmbiguous_eq,
    holds.isUnresolved_eq]
  cases meaning with
  | none => rfl
  | some entered => cases entered <;> rfl

end Bindings

namespace Sentinel

theorem ofPayload?_payload (sentinel : Sentinel) : ofPayload? sentinel.payload = some sentinel := by
  cases sentinel <;> decide

end Sentinel

namespace Bench

variable {ν δ κ : Type} [DecidableEq ν] [DecidableEq δ] [DecidableEq κ]

/-- A sentinel is met when the reference has the outcome that it asks for. -/
theorem judgeReference_sentinel_eq_met_iff (bench : Bench ν δ κ) (place : Place) (reference : ν)
    (sentinel : Sentinel) :
    bench.judgeReference place reference sentinel.payload = .met ↔
      bench.hasOutcome reference sentinel = true := by
  have kind : bench.classify sentinel.payload = .sentinel sentinel := by
    rw [classify, PayloadKind.classify, Sentinel.ofPayload?_payload]
  rw [judgeReference, kind]
  simp only [judgeSentinel]
  split
  · next has => simp [has]
  · next hasNot => simp [hasNot, Verdict.met, Verdict.mismatch]

end Bench

namespace Resolution

variable {name : String} {text : List Char} {resolution : Resolution}
  {reference declaration : NodeRef} {target : Descriptor}

/-- The sentinels that a reference satisfies: none for a target, the one for
errors for a member of something without meaning, else those of the table that
the reference stands in. -/
def acceptedSentinels (resolution : Resolution) (reference : NodeRef) : List Sentinel :=
  match resolution.target? reference, resolution.isAmbiguous reference,
    resolution.isUnresolved reference with
  | some target, _, _ => if target.isError then [.error] else []
  | none, true, _ => [.ambiguous]
  | none, false, true => [.unresolved, .null]
  | none, false, false => [.null]

theorem hasOutcome_eq {bench : Bench NodeRef Descriptor TypeConstructor}
    (benched : bench.analysis = resolution.analysis) (reference : NodeRef)
    (sentinel : Sentinel) :
    bench.hasOutcome reference sentinel =
      match sentinel with
      | .unresolved => resolution.isUnresolved reference
      | .ambiguous => resolution.isAmbiguous reference
      | .null => (resolution.target? reference).isNone && !resolution.isAmbiguous reference
      | .error => (resolution.target? reference).any Descriptor.isError := by
  cases sentinel <;> simp only [Bench.hasOutcome, benched] <;> rfl

theorem hasOutcome_iff {meaning : Option (Meaning Descriptor)}
    (holds : resolution.state.bindings.Holds reference meaning)
    {bench : Bench NodeRef Descriptor TypeConstructor}
    (benched : bench.analysis = resolution.analysis) (sentinel : Sentinel) :
    bench.hasOutcome reference sentinel = true ↔
      sentinel ∈ resolution.acceptedSentinels reference := by
  have targets : resolution.target? reference = meaning.bind Meaning.target? := holds.target?_eq
  have ambiguous : resolution.isAmbiguous reference = (meaning.bind Meaning.candidates?).isSome :=
    holds.isAmbiguous_eq
  have unresolved : resolution.isUnresolved reference = meaning.any Meaning.isUnresolved :=
    holds.isUnresolved_eq
  rw [hasOutcome_eq benched, acceptedSentinels, targets, ambiguous, unresolved]
  cases meaning with
  | none => cases sentinel <;> simp
  | some entered =>
      cases entered with
      | target target =>
          cases isError : target.isError <;> cases sentinel <;>
            simp [Meaning.target?, Meaning.candidates?, Meaning.isUnresolved, isError]
      | ambiguous | unresolved =>
          cases sentinel <;> simp [Meaning.target?, Meaning.candidates?, Meaning.isUnresolved]

theorem eq_ofFile_of_read (readable : read name text = .ok resolution) :
    ∃ file, Grammar.read name text = .ok file ∧ resolution = ofFile name text file := by
  unfold read at readable
  cases parsed : Grammar.read name text with
  | error fault => simp [parsed, Except.map] at readable
  | ok file =>
      simp only [parsed, Except.map, Except.ok.injEq] at readable
      exact ⟨file, rfl, readable.symm⟩

/-- What is checked of the resolution of a text holds of a text that can be read. -/
theorem exists_of_read {holds : Resolution → Prop} [DecidablePred holds]
    (checked : ((read name text).toOption.any fun resolution => decide (holds resolution)) = true) :
    ∃ resolution, read name text = .ok resolution ∧ holds resolution := by
  cases readable : read name text with
  | error fault =>
      rw [readable] at checked
      cases checked
  | ok resolution =>
      rw [readable] at checked
      exact ⟨resolution, rfl, of_decide_eq_true checked⟩

/-- A text that can be read is resolved completely. -/
theorem completes_of_read (readable : read name text = .ok resolution) :
    resolution.file.WellPlaced text ∧ Resolver.Completes resolution.file resolution.state := by
  obtain ⟨file, parsed, rfl⟩ := eq_ofFile_of_read readable
  have placed := Grammar.wellPlaced_of_read parsed
  exact ⟨placed, Resolver.completes_resolveFile file placed.nodup_declaredNodes⟩

theorem targetDeclaration?_eq (hasTarget : resolution.target? reference = some target) :
    resolution.targetDeclaration? reference = target.original.declaration := by
  rw [targetDeclaration?, hasTarget]
  rfl

/-- The targets in a resolved file are declared where they say. -/
theorem declares_of_target (completes : Resolver.Completes resolution.file resolution.state)
    (distinct : resolution.file.references.Nodup)
    (hasTarget : resolution.target? reference = some target)
    (isDeclared : resolution.targetDeclaration? reference = some declaration) :
    resolution.state.Declares declaration target.original := by
  obtain ⟨meaning, holds, -, backed⟩ := completes.exists_holds distinct reference
  have isTarget := (holds.targets target).mp hasTarget
  rw [targetDeclaration?_eq hasTarget] at isDeclared
  exact ResolutionState.Backs.declares (backed _ isTarget) isDeclared

theorem mem_declaredNodes_iff (completes : Resolver.Completes resolution.file resolution.state) :
    declaration ∈ resolution.file.declaredNodes ↔
      ∃ descriptor, resolution.descriptor? declaration = some descriptor := by
  rw [← completes.declarations, Multiset.mem_coe]
  constructor
  · intro known
    cases found : resolution.state.declarations.get? declaration with
    | none => exact absurd known (Table.get?_eq_none_iff.mp found)
    | some descriptor => exact ⟨descriptor, found⟩
  · intro given
    obtain ⟨descriptor, found⟩ := given
    exact Table.mem_keys_of_get? found

theorem mem_declaredNodes_of_declares
    (completes : Resolver.Completes resolution.file resolution.state) {descriptor : Descriptor}
    (declares : resolution.state.Declares declaration descriptor) :
    declaration ∈ resolution.file.declaredNodes := by
  rcases declares with found | found
  · exact (mem_declaredNodes_iff completes).mpr ⟨descriptor, found⟩
  · rw [← completes.declarations, Multiset.mem_coe]
    exact (completes.grounded.parameters _ _ found).2

/-- Every reference outside of the package line stands in exactly one table, a
name in the package line in none, and the table decides which sentinels are
met. -/
theorem outcomeCount_of_read (readable : read name text = .ok resolution)
    {occurrence : Occurrence} (occurs : occurrence ∈ resolution.file.occurrences)
    (isReference : occurrence.node.kind.isReference = true) :
    resolution.state.bindings.outcomeCount occurrence.ref =
        (if occurrence.ref ∈ resolution.file.packageNames then 0 else 1) ∧
      ∀ bench : Bench NodeRef Descriptor TypeConstructor,
        bench.analysis = resolution.analysis → ∀ place sentinel,
          (bench.judgeReference place occurrence.ref sentinel.payload = .met ↔
            sentinel ∈ resolution.acceptedSentinels occurrence.ref) := by
  obtain ⟨placed, completes⟩ := completes_of_read readable
  obtain ⟨meaning, holds, known, -⟩ :=
    completes.exists_holds placed.nodup_references occurrence.ref
  have notFile : occurrence.node.kind ≠ .file := by
    intro isFile
    rw [isFile] at isReference
    cases isReference
  have inFile := Tree.File.mem_nodes_of_kind occurs notFile
  have inReferences : occurrence.ref ∈ resolution.file.references ↔
      occurrence.ref ∉ resolution.file.packageNames :=
    placed.mem_references_iff_notMem_packageNames inFile isReference
  rw [inReferences] at known
  constructor
  · rw [holds.outcomeCount_eq]
    by_cases isName : occurrence.ref ∈ resolution.file.packageNames
    · rw [if_pos isName]
      simpa [isName] using known
    · rw [if_neg isName, known.mpr isName]
      rfl
  · intro bench benched place sentinel
    rw [bench.judgeReference_sentinel_eq_met_iff]
    exact hasOutcome_iff holds benched sentinel

/-- In a file with a package line and one unknown name, that name is unresolved
and nothing else. -/
theorem outcomeCount_of_read_unknown_name :
    ∃ resolution, read "sample" "package p\nval a = b".toList = .ok resolution ∧
      ∃ occurrence ∈ resolution.file.occurrences,
        occurrence.node.kind.isReference = true ∧
          resolution.state.bindings.outcomeCount occurrence.ref = 1 ∧
            ∀ bench : Bench NodeRef Descriptor TypeConstructor,
              bench.analysis = resolution.analysis → ∀ place (sentinel : Sentinel),
                (bench.judgeReference place occurrence.ref sentinel.payload = .met ↔
                  sentinel ∈ [Sentinel.unresolved, .null]) := by
  have computed :
      (match read "sample" "package p\nval a = b".toList with
        | .ok resolution => resolution.file.occurrences.any fun occurrence =>
            occurrence.node.kind.isReference &&
              (occurrence.ref ∉ resolution.file.packageNames &&
                resolution.acceptedSentinels occurrence.ref = [.unresolved, .null])
        | .error _ => false) = true := by
    decide +kernel
  cases readable : read "sample" "package p\nval a = b".toList with
  | error fault =>
      rw [readable] at computed
      cases computed
  | ok resolution =>
      simp only [readable, List.any_eq_true, Bool.and_eq_true, decide_eq_true_eq] at computed
      obtain ⟨occurrence, occurs, isReference, notName, accepted⟩ := computed
      obtain ⟨count, met⟩ := outcomeCount_of_read readable occurs isReference
      rw [if_neg notName] at count
      rw [accepted] at met
      exact ⟨resolution, rfl, occurrence, occurs, isReference, count, met⟩

end Resolution

end Gloss
