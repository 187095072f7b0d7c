import Gloss.Proofs.Table
import Gloss.Verification

/-!
# Labels are only labels

The names that declaration markers give are there for the other markers to
mention.  Other names do as well, as long as they are told apart and are taken
for names: every entry of the relabelled fixture passes or fails as before, and
what ends the verification is a fault of the same kind at the same place.
-/

namespace Gloss

namespace Table

variable {κ μ ν ω : Type}

def mapKeys (change : κ → μ) (table : Table κ ν) : Table μ ν :=
  ⟨table.entries.map fun entry => (change entry.1, entry.2)⟩

def mapValues (change : ν → ω) (table : Table κ ν) : Table κ ω :=
  ⟨table.entries.map fun entry => (entry.1, change entry.2)⟩

theorem keys_mapKeys (change : κ → μ) (table : Table κ ν) :
    (table.mapKeys change).keys = table.keys.map change := by
  simp [mapKeys, keys]

variable [DecidableEq κ] [DecidableEq μ] {change : κ → μ} {key : κ}

theorem lookupIn_mapKeys {entries : List (κ × ν)}
    (apart : ∀ other ∈ entries.map Prod.fst, change other = change key → other = key) :
    lookupIn (change key) (entries.map fun entry => (change entry.1, entry.2)) =
      lookupIn key entries := by
  induction entries with
  | nil => rfl
  | cons entry rest ih =>
      obtain ⟨found, value⟩ := entry
      rw [List.map_cons, List.forall_mem_cons] at apart
      have later := ih apart.2
      by_cases same : found = key
      · simp [lookupIn, same]
      · have stillApart : change found ≠ change key := fun equal => same (apart.1 equal)
        simp [lookupIn, same, stillApart, later]

theorem insertIn_mapKeys {entries : List (κ × ν)} (value : ν)
    (apart : ∀ other ∈ entries.map Prod.fst, change other = change key → other = key) :
    insertIn (change key) value (entries.map fun entry => (change entry.1, entry.2)) =
      (insertIn key value entries).map fun entry => (change entry.1, entry.2) := by
  induction entries with
  | nil => rfl
  | cons entry rest ih =>
      obtain ⟨found, old⟩ := entry
      rw [List.map_cons, List.forall_mem_cons] at apart
      have later := ih apart.2
      by_cases same : found = key
      · simp [insertIn, same]
      · have stillApart : change found ≠ change key := fun equal => same (apart.1 equal)
        simp [insertIn, same, stillApart, later]

/-- A key that is told apart from the others is looked up under its new name. -/
theorem get?_mapKeys {table : Table κ ν}
    (apart : ∀ other ∈ table.keys, change other = change key → other = key) :
    (table.mapKeys change).get? (change key) = table.get? key :=
  lookupIn_mapKeys apart

omit [DecidableEq κ] in
theorem get?_mapKeys_eq_none {table : Table κ ν} {sought : μ}
    (unused : ∀ other ∈ table.keys, change other ≠ sought) :
    (table.mapKeys change).get? sought = none := by
  rw [get?_eq_none_iff, keys_mapKeys, List.mem_map]
  rintro ⟨other, isKey, same⟩
  exact unused other isKey same

theorem insert_mapKeys {table : Table κ ν} (value : ν)
    (apart : ∀ other ∈ table.keys, change other = change key → other = key) :
    (table.mapKeys change).insert (change key) value =
      (table.insert key value).mapKeys change :=
  congrArg Table.mk (insertIn_mapKeys value apart)

end Table

namespace Text

theorem startsWith_append (start rest : String) : startsWith start (start ++ rest) = true := by
  simp [startsWith, String.toList_append]

theorem dropFirst_append (start rest : String) :
    dropFirst start.length (start ++ rest) = rest := by
  simp [dropFirst, String.toList_append, ← String.length_toList]

theorem append_dropFirst {start text : String} (starts : startsWith start text = true) :
    start ++ dropFirst start.length text = text := by
  obtain ⟨rest, same⟩ := List.isPrefixOf_iff_prefix.mp starts
  obtain rfl : text = start ++ String.ofList rest := by
    rw [← String.toList_inj, String.toList_append, String.toList_ofList, same]
  rw [dropFirst_append]

end Text

/-- A name that every marker takes for a name: alone it is no sentinel and has
neither prefix, and behind the prefix of parameters it is no sentinel and no
library name. -/
structure Prefixes.Admits (prefixes : Prefixes) (label : String) : Prop where
  notSentinel : Sentinel.ofPayload? label = none
  notLibrary : Text.startsWith prefixes.library label = false
  notParameter : Text.startsWith prefixes.parameter label = false
  parameterNotSentinel : Sentinel.ofPayload? (prefixes.parameter ++ label) = none
  parameterNotLibrary : Text.startsWith prefixes.library (prefixes.parameter ++ label) = false

namespace Prefixes.Admits

variable {prefixes : Prefixes} {label : String}

theorem classify_eq (admits : prefixes.Admits label) :
    PayloadKind.classify prefixes label = .name := by
  simp [PayloadKind.classify, admits.notSentinel, admits.notLibrary, admits.notParameter]

theorem classify_parameter (admits : prefixes.Admits label) :
    PayloadKind.classify prefixes (prefixes.parameter ++ label) = .constructorParameter := by
  simp [PayloadKind.classify, admits.parameterNotSentinel, admits.parameterNotLibrary,
    Text.startsWith_append]

end Prefixes.Admits

namespace Expectations

/-- The names that declaration markers give. -/
def labels (expectations : Expectations) : List String := expectations.declarations.keys

/-- A payload that names a label, or the parameter of one, names the new label. -/
def relabelReference (prefixes : Prefixes) (labels : List String) (rename : String → String)
    (payload : String) : String :=
  let behind := Text.dropFirst prefixes.parameter.length payload
  if payload ∈ labels then rename payload
  else if Text.startsWith prefixes.parameter payload ∧ behind ∈ labels then
    prefixes.parameter ++ rename behind
  else payload

def relabelType (labels : List String) (rename : String → String) (payload : String) : String :=
  if payload ∈ labels then rename payload else payload

/-- The tables with new labels, in the declarations and wherever they are named. -/
def relabel (prefixes : Prefixes) (rename : String → String) (expectations : Expectations) :
    Expectations where
  declarations := expectations.declarations.mapKeys rename
  references :=
    expectations.references.mapValues (relabelReference prefixes expectations.labels rename)
  typeAssertions := expectations.typeAssertions.mapValues (relabelType expectations.labels rename)

/-- The new labels are told apart, all labels are taken for names, and no new
one is by chance what a marker already names without declaring it. -/
structure Relabels (expectations : Expectations) (prefixes : Prefixes)
    (rename : String → String) : Prop where
  injective : ∀ label ∈ expectations.labels, ∀ other ∈ expectations.labels,
    rename label = rename other → label = other
  old : ∀ label ∈ expectations.labels, prefixes.Admits label
  new : ∀ label ∈ expectations.labels, prefixes.Admits (rename label)
  fresh : ∀ label ∈ expectations.labels,
    rename label ∈ expectations.references.values ++ expectations.typeAssertions.values →
      rename label ∈ expectations.labels
  freshParameter : ∀ label ∈ expectations.labels,
    prefixes.parameter ++ rename label ∈ expectations.references.values →
      rename label ∈ expectations.labels

end Expectations

def Fixture.relabel (prefixes : Prefixes) (rename : String → String) (fixture : Fixture) :
    Fixture :=
  { fixture with expectations := fixture.expectations.relabel prefixes rename }

/-- Causes of one kind, whatever names and texts they mention. -/
inductive Cause.Alike : Cause → Cause → Prop where
  | same (cause : Cause) : Alike cause cause
  | misplacedDeclaration (name other : String) :
      Alike (.misplacedDeclaration name) (.misplacedDeclaration other)
  | undeclaredName (name other : String) : Alike (.undeclaredName name) (.undeclaredName other)
  | missingConstructorParameter (name other : String) :
      Alike (.missingConstructorParameter name) (.missingConstructorParameter other)
  | missingDescriptor (name other : String) :
      Alike (.missingDescriptor name) (.missingDescriptor other)
  | unsupportedTypeAssertion (name other declaration : String) :
      Alike (.unsupportedTypeAssertion name declaration)
        (.unsupportedTypeAssertion other declaration)
  | missingReference (payload other : String) :
      Alike (.missingReference payload) (.missingReference other)
  | missingExpression (payload other : String) :
      Alike (.missingExpression payload) (.missingExpression other)
  | mismatch (kind : MismatchKind) (details other : Mismatch) :
      Alike (.mismatch kind details) (.mismatch kind other)

/-- Faults of one kind at one place. -/
structure Fault.Alike (fault other : Fault) : Prop where
  cause : fault.cause.Alike other.cause
  place : fault.place = other.place

theorem Fault.Alike.of {cause other : Cause} (alike : cause.Alike other) (place : Place) :
    (Fault.of cause place).Alike (.of other place) :=
  ⟨alike, rfl⟩

theorem Fault.Alike.addNote {fault other : Fault} (alike : fault.Alike other) (note added : Note) :
    (fault.addNote note).Alike (other.addNote added) :=
  ⟨alike.cause, alike.place⟩

/-- Two runs end alike: both with results that are the same in a certain sense,
or both with faults of one kind at one place. -/
inductive EndsAlike {α : Type} (same : α → α → Prop) :
    Except Fault α → Except Fault α → Prop where
  | ok {value other : α} : same value other → EndsAlike same (.ok value) (.ok other)
  | error {fault other : Fault} : fault.Alike other → EndsAlike same (.error fault) (.error other)

theorem EndsAlike.map {α β : Type} {same : α → α → Prop} {sameResult : β → β → Prop}
    {run other : Except Fault α} {change changeOther : α → β} (alike : EndsAlike same run other)
    (kept : ∀ value otherValue, same value otherValue →
      sameResult (change value) (changeOther otherValue)) :
    EndsAlike sameResult (run.map change) (other.map changeOther) := by
  cases alike with
  | ok agree => exact .ok (kept _ _ agree)
  | error alike => exact .error alike

theorem EndsAlike.mono {α : Type} {same weaker : α → α → Prop} {run other : Except Fault α}
    (alike : EndsAlike same run other)
    (implies : ∀ value otherValue, same value otherValue → weaker value otherValue) :
    EndsAlike weaker run other := by
  cases alike with
  | ok agree => exact .ok (implies _ _ agree)
  | error alike => exact .error alike

/-- Runs that go on alike after something that ends alike. -/
theorem EndsAlike.andThen {α β : Type} {same : α → α → Prop} {sameResult : β → β → Prop}
    {run other : Except Fault α} {goOn goOnOther : α → Except Fault β}
    (kept : ∀ value otherValue, same value otherValue →
      EndsAlike sameResult (goOn value) (goOnOther otherValue)) :
    EndsAlike same run other →
      EndsAlike sameResult
        (match run with
          | .error fault => .error fault
          | .ok value => goOn value)
        (match other with
          | .error fault => .error fault
          | .ok value => goOnOther value) := by
  intro alike
  cases alike with
  | ok agree => exact kept _ _ agree
  | error alike => exact .error alike

/-- Verdicts that agree in whether an expectation is met, and otherwise in the
kind and the place of what is wrong. -/
abbrev Verdict.Alike : Verdict → Verdict → Prop := EndsAlike (Option.Rel Fault.Alike)

namespace Verdict

theorem alike_met : Verdict.Alike .met .met := .ok .none

theorem alike_mismatch {fault other : Fault} (alike : fault.Alike other) :
    Verdict.Alike (.mismatch fault) (.mismatch other) :=
  .ok (.some alike)

theorem alike_fault {cause other : Cause} (alike : cause.Alike other) (place : Place) :
    Verdict.Alike (.fault (.of cause place)) (.fault (.of other place)) :=
  .error (.of alike place)

theorem alike_refl (verdict : Verdict) : verdict.Alike verdict :=
  match verdict with
  | .ok none => alike_met
  | .ok (some _) => alike_mismatch ⟨.same _, rfl⟩
  | .error _ => .error ⟨.same _, rfl⟩

end Verdict

/-- Findings for one position, of which both have passed, or both have failed
in the same way. -/
structure Finding.Alike (finding other : Finding) : Prop where
  aspect : finding.expectation.aspect = other.expectation.aspect
  position : finding.expectation.position = other.expectation.position
  failure : Option.Rel Fault.Alike finding.failure other.failure

theorem Finding.Alike.passed {finding other : Finding} (alike : finding.Alike other) :
    finding.passed = other.passed := by
  obtain ⟨expectation, failure⟩ := finding
  obtain ⟨otherExpectation, otherFailure⟩ := other
  cases alike.failure <;> rfl

namespace Bench

variable {ν δ κ : Type}

/-- The bench with its declarations under new labels. -/
def relabel (rename : String → String) (bench : Bench ν δ κ) : Bench ν δ κ :=
  { bench with declared := bench.declared.mapKeys rename }

variable {bench : Bench ν δ κ} {rename : String → String} {place : Place} {reference : ν}
  {payload other : String}

section Targets

variable [DecidableEq ν]

theorem alike_wrongTarget (expected actual otherExpected otherActual : String) :
    (bench.wrongTarget place reference payload expected actual).Alike
      ((bench.relabel rename).wrongTarget place reference other otherExpected otherActual) :=
  ((Fault.Alike.of (.mismatch _ _ _) place).addNote _ _).addNote _ _

variable [DecidableEq δ]

theorem alike_judgeDescriptor (expected : δ) :
    (bench.judgeDescriptor place reference payload expected).Alike
      ((bench.relabel rename).judgeDescriptor place reference other expected) := by
  have analysis : (bench.relabel rename).analysis = bench.analysis := rfl
  simp only [judgeDescriptor, analysis]
  split
  · exact Verdict.alike_met
  · exact Verdict.alike_mismatch (alike_wrongTarget _ _ _ _)

theorem alike_judgeDeclaration (expected : ν) :
    (bench.judgeDeclaration place reference payload expected).Alike
      ((bench.relabel rename).judgeDeclaration place reference other expected) := by
  have analysis : (bench.relabel rename).analysis = bench.analysis := rfl
  simp only [judgeDeclaration, analysis]
  split
  · split
    · exact Verdict.alike_fault (.missingDescriptor _ _) place
    · exact alike_judgeDescriptor _
  · split
    · exact Verdict.alike_met
    · exact Verdict.alike_mismatch (alike_wrongTarget _ _ _ _)

theorem alike_judgeConstructorParameter (expected : ν) :
    (bench.judgeConstructorParameter place reference payload expected).Alike
      ((bench.relabel rename).judgeConstructorParameter place reference other expected) := by
  have analysis : (bench.relabel rename).analysis = bench.analysis := rfl
  simp only [judgeConstructorParameter, analysis]
  split
  · exact Verdict.alike_fault (.missingConstructorParameter _ _) place
  · exact alike_judgeDescriptor _

end Targets

/-- Where two payloads are of one kind and name the same node, and one that is
looked up outside is not changed, references are judged alike. -/
theorem alike_judgeReference [DecidableEq ν] [DecidableEq δ] [DecidableEq κ]
    (kind : bench.classify other = bench.classify payload)
    (expected : (bench.relabel rename).expected? other = bench.expected? payload)
    (outside : bench.classify payload ≠ .name → bench.classify payload ≠ .constructorParameter →
      other = payload) :
    (bench.judgeReference place reference payload).Alike
      ((bench.relabel rename).judgeReference place reference other) := by
  have kind' : (bench.relabel rename).classify other = bench.classify payload := kind
  simp only [judgeReference, kind', expected]
  split
  · exact Verdict.alike_refl _
  · split
    · exact alike_judgeDeclaration _
    · exact alike_judgeConstructorParameter _
    · split
      · next isExternal =>
          rw [isExternal] at outside
          obtain rfl := outside nofun nofun
          exact Verdict.alike_refl _
      · exact Verdict.alike_fault (.undeclaredName _ _) place

theorem alike_judgeType [DecidableEq κ] (position : Int) (expression : ν) (expected : κ) :
    (bench.judgeType position expression payload expected).Alike
      ((bench.relabel rename).judgeType position expression other expected) := by
  have analysis : (bench.relabel rename).analysis = bench.analysis := rfl
  simp only [judgeType, analysis]
  split
  · exact Verdict.alike_mismatch ⟨.mismatch _ _ _, rfl⟩
  · split
    · exact Verdict.alike_met
    · exact Verdict.alike_mismatch ⟨.mismatch _ _ _, rfl⟩

end Bench

end Gloss
