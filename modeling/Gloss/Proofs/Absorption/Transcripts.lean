import Gloss.Proofs.Absorption.Replacement
import Gloss.Proofs.Confinement.Settings
import Gloss.Proofs.References.Walks
import Gloss.Proofs.Typing.Absorption
import Gloss.Proofs.Typing.FunctionMembers

/-!
# Two runs side by side

A transcript says how questions for open types are answered while a file is resolved, and what
is written down.  A comparison holds two of them together: that of a file in which nothing is
reported, and that of the file with a name in the place of an expression.  A script echoes
another one if it comes to what is accepted beside what the other comes to, and if it reports no
mismatch meanwhile.
-/

namespace Gloss

open Gloss.Tree ResolutionState

/-- The remark reports no mismatch. -/
def Remark.Quiet : Remark → Prop
  | .problem found => found.problem.isMismatch = false
  | _ => True

theorem Remark.quiet_meaning (reference : NodeRef) (meant : Meaning Descriptor) :
    (Remark.meaning reference meant).Quiet := trivial

theorem Remark.quiet_typed (node : NodeRef) (type : NominalType) :
    (Remark.typed node type).Quiet := trivial

theorem Remark.quiet_arity (count : Nat) : (Remark.arity count).Quiet := trivial

theorem Remark.quiet_declared (node : NodeRef) (descriptor : Descriptor) :
    (Remark.declared node descriptor).Quiet := trivial

/-! ### Transcripts -/

/-- How questions are answered while a file is resolved, and what is written down. -/
structure Transcript where
  answered : NodeRef → NominalType → Prop
  written : Remark → Prop

namespace Script

variable {isOpen : NodeRef → Bool} {α β : Type} {script : Script isOpen α}
  {next : α → Script isOpen β} {transcript : Transcript}

/-- A run of a script that keeps to a transcript. -/
def RunsIn (transcript : Transcript) (script : Script isOpen α) (remarks : List Remark)
    (value : α) : Prop :=
  ∃ replies, script.Trail replies remarks value ∧
    (∀ reply ∈ replies, transcript.answered reply.1 reply.2) ∧
      ∀ remark ∈ remarks, transcript.written remark

theorem RunsIn.runs {remarks : List Remark} {value : α}
    (runs : script.RunsIn transcript remarks value) : script.Runs remarks value := by
  obtain ⟨_, trail, -⟩ := runs
  exact trail.runs

theorem runsIn_pure_iff {value other : α} {remarks : List Remark} :
    (pure value : Script isOpen α).RunsIn transcript remarks other ↔
      remarks = [] ∧ other = value := by
  constructor
  · rintro ⟨_, trail, -⟩
    exact (trail_pure_iff.mp trail).2
  · rintro ⟨rfl, rfl⟩
    exact ⟨[], .done _, List.forall_mem_nil _, List.forall_mem_nil _⟩

theorem runsIn_bind_iff {remarks : List Remark} {value : β} :
    (script >>= next).RunsIn transcript remarks value ↔
      ∃ first earlier later, script.RunsIn transcript earlier first ∧
        (next first).RunsIn transcript later value ∧ remarks = earlier ++ later := by
  constructor
  · rintro ⟨replies, trail, answered, written⟩
    obtain ⟨first, repliesFirst, repliesLater, earlier, later, trailFirst, trailLater, rfl, rfl⟩ :=
      trail_bind_iff.mp trail
    obtain ⟨answeredFirst, answeredLater⟩ := List.forall_mem_append.mp answered
    obtain ⟨writtenFirst, writtenLater⟩ := List.forall_mem_append.mp written
    exact ⟨first, earlier, later, ⟨_, trailFirst, answeredFirst, writtenFirst⟩,
      ⟨_, trailLater, answeredLater, writtenLater⟩, rfl⟩
  · rintro ⟨first, earlier, later, ⟨_, trailFirst, answeredFirst, writtenFirst⟩,
      ⟨_, trailLater, answeredLater, writtenLater⟩, rfl⟩
    exact ⟨_, trailFirst.bind trailLater, List.forall_mem_append.mpr ⟨answeredFirst, answeredLater⟩,
      List.forall_mem_append.mpr ⟨writtenFirst, writtenLater⟩⟩

theorem RunsIn.of_ask {node : NodeRef} {asked : isOpen node = true} {remarks : List Remark}
    {type : NominalType} (runs : (ask node asked done).RunsIn transcript remarks type) :
    remarks = [] ∧ transcript.answered node type := by
  obtain ⟨_, trail, answered, -⟩ := runs
  obtain rfl := trail.of_ask
  exact ⟨Silent.of_ask asked _ _ trail.runs, answered _ (List.mem_singleton_self _)⟩

theorem RunsIn.of_write {remark : Option NominalType → Remark} {remarks : List Remark}
    {value : Unit}
    (runs : (write remark (done ()) : Script isOpen Unit).RunsIn transcript remarks value) :
    ∃ shown, remarks = [remark shown] ∧ transcript.written (remark shown) := by
  obtain ⟨_, trail, -, written⟩ := runs
  obtain ⟨-, shown, rfl⟩ := Trail.of_write trail
  exact ⟨shown, rfl, written _ (List.mem_singleton_self _)⟩

theorem RunsIn.of_tell {remark : Remark} {remarks : List Remark} {value : Unit}
    (runs : (tell remark : Script isOpen Unit).RunsIn transcript remarks value) :
    remarks = [remark] ∧ transcript.written remark := by
  obtain ⟨_, rfl, written⟩ := RunsIn.of_write runs
  exact ⟨rfl, written⟩

theorem RunsIn.of_typed {node : NodeRef} {type value : NominalType} {remarks : List Remark}
    (runs : (typed node type : Script isOpen NominalType).RunsIn transcript remarks value) :
    remarks = [.typed node type] ∧ value = type ∧ transcript.written (.typed node type) := by
  obtain ⟨_, earlier, later, runsTell, runsPure, rfl⟩ := runsIn_bind_iff.mp runs
  obtain ⟨rfl, written⟩ := runsTell.of_tell
  obtain ⟨rfl, rfl⟩ := runsIn_pure_iff.mp runsPure
  exact ⟨rfl, rfl, written⟩

/-- What the script comes to is written down as the type of a node. -/
def Types (transcript : Transcript) (node : NodeRef) (script : Script isOpen NominalType) : Prop :=
  ∀ remarks type, script.RunsIn transcript remarks type → transcript.written (.typed node type)

theorem Types.of_typed (node : NodeRef) (type : NominalType) :
    (typed node type : Script isOpen NominalType).Types transcript node := by
  intro remarks value runs
  obtain ⟨-, rfl, written⟩ := runs.of_typed
  exact written

theorem Types.after {node : NodeRef} {goesOn : α → Script isOpen NominalType}
    (types : ∀ value, (goesOn value).Types transcript node) :
    (script >>= goesOn).Types transcript node := by
  intro remarks type runs
  obtain ⟨value, _, _, -, runsLater, -⟩ := runsIn_bind_iff.mp runs
  exact types value _ _ runsLater

end Script

/-! ### Targets -/

/-- What a reference means now goes on as what it meant before.  The value that is called has a
type that absorbs its type before, and a generic function is called for the same types. -/
def Descriptor.Keeps (now before : Descriptor) : Prop :=
  match now, before with
  | .error _, _ | .variable _, .variable _ => True
  | .invoke _ type, .invoke _ original => type.isError = false ∧ type.Absorbs original
  | .specialized means, .specialized meant =>
      means.generic = meant.generic ∧ means.substitution = meant.substitution
  | _, _ => now = before

instance (now before : Descriptor) : Decidable (now.Keeps before) := by
  unfold Descriptor.Keeps
  split <;> infer_instance

/-! ### Declarations -/

/-- The type parameters that a call of what is meant decides. -/
def Descriptor.callParameters : Descriptor → List TypeConstructor
  | .class owner => owner.typeParameters.map TypeParameterDescriptor.constructor
  | .function declared => declared.typeParameters.map TypeParameterDescriptor.constructor
  | _ => []

/-- A declaration, and not what a call makes of one; its type parameters are told from classes. -/
structure Descriptor.IsPlain (descriptor : Descriptor) : Prop where
  declared : descriptor.original = descriptor
  proper : ∀ unknown ∈ descriptor.callParameters, unknown.kind = .typeParameter

/-- The members of a class are declarations other than classes, and its type parameters are told
from classes. -/
structure ClassEntry.IsPlain (entry : ClassEntry) : Prop where
  members : ∀ member ∈ entry.members, member.IsPlain
  noClass : ∀ owner, .class owner ∉ entry.members
  proper : ∀ parameter ∈ entry.descriptor.typeParameters,
    parameter.constructor.kind = .typeParameter

/-! ### Comparisons -/

/-- The transcripts of a file in which nothing is reported and of the file with a name in the
place of an expression.  The name means nothing, answers are types that absorb those from before,
and calls go to what they went to and decide its type parameters as they did. -/
structure Comparison where
  base : ResolutionState
  plain : ∀ constructor entry, base.class? constructor = some entry → entry.IsPlain
  before : Transcript
  now : Transcript
  place : NodeRef
  unknown : String
  /-- The nodes of the file. -/
  inside : Node → Prop
  child : ∀ node, inside node → ∀ below ∈ node.children, inside below
  noProblem : ∀ found, ¬ before.written (.problem found)
  answered : ∀ {node type}, now.answered node type ↔
    ∀ original, before.answered node original → type.Absorbs original
  undefined : ∀ target, ¬ now.written (.meaning ⟨.name, place.span⟩ (.target target))
  keeps : ∀ reference means meant, now.written (.meaning reference (.target means)) →
    before.written (.meaning reference (.target meant)) → means.Keeps meant
  decides : ∀ span name arguments types originals owner,
    inside (Expr.call span (.name name) arguments).node →
      now.written (.meaning name.node.ref (.target (.class owner))) →
        before.written (.meaning name.node.ref (.target (.class owner))) →
          List.Forall₂ (fun (argument : Expr) type => now.written (.typed argument.node.ref type))
              (Expr.replacingAll place unknown arguments) types →
            List.Forall₂
                (fun (argument : Expr) type => before.written (.typed argument.node.ref type))
                arguments originals →
              (base.constructorSignature owner).inferred types =
                (base.constructorSignature owner).inferred originals

/-- What was written down before reports nothing. -/
theorem Comparison.quiet_of_written (comparison : Comparison) {remark : Remark}
    (written : comparison.before.written remark) : remark.Quiet := by
  cases remark with
  | problem found => exact (comparison.noProblem found written).elim
  | _ => trivial

namespace Script

variable {isOpen isOpenBefore : NodeRef → Bool} {α β γ δ : Type} {comparison : Comparison}

/-- Now the script comes to something accepted and reports no mismatch. -/
def Yields (comparison : Comparison) (accept : α → Prop) (script : Script isOpen α) : Prop :=
  ∀ remarks value, script.RunsIn comparison.now remarks value →
    accept value ∧ ∀ remark ∈ remarks, remark.Quiet

/-- Now a script comes to what is accepted beside what the other one came to before, and it
reports no mismatch. -/
def Echoes (comparison : Comparison) (accept : α → γ → Prop) (script : Script isOpen α)
    (original : Script isOpenBefore γ) : Prop :=
  ∀ earlier other, original.RunsIn comparison.before earlier other →
    script.Yields comparison (accept · other)

/-- Before, the script did not come to its end: something would have been reported. -/
def Excluded (comparison : Comparison) (original : Script isOpenBefore γ) : Prop :=
  ∀ earlier other, ¬ original.RunsIn comparison.before earlier other

namespace Yields

variable {accept : α → Prop} {acceptLast : β → Prop} {script : Script isOpen α}
  {next : α → Script isOpen β}

theorem of_pure {value : α} (accepted : accept value) :
    (pure value : Script isOpen α).Yields comparison accept := by
  intro remarks other runs
  obtain ⟨rfl, rfl⟩ := runsIn_pure_iff.mp runs
  exact ⟨accepted, List.forall_mem_nil _⟩

theorem bind (yields : script.Yields comparison accept)
    (goesOn : ∀ value, accept value → (next value).Yields comparison acceptLast) :
    (script >>= next).Yields comparison acceptLast := by
  intro remarks value runs
  obtain ⟨first, earlier, later, runsFirst, runsLater, rfl⟩ := runsIn_bind_iff.mp runs
  obtain ⟨accepted, quiet⟩ := yields _ _ runsFirst
  obtain ⟨acceptedLast, quietLater⟩ := goesOn first accepted _ _ runsLater
  exact ⟨acceptedLast, List.forall_mem_append.mpr ⟨quiet, quietLater⟩⟩

theorem weaken (yields : script.Yields comparison accept) {goal : α → Prop}
    (weaker : ∀ value, accept value → goal value) : script.Yields comparison goal :=
  fun remarks value runs =>
    ⟨weaker value (yields remarks value runs).1, (yields remarks value runs).2⟩

theorem of_write {remark : Option NominalType → Remark} (quiet : ∀ shown, (remark shown).Quiet) :
    (write remark (done ()) : Script isOpen Unit).Yields comparison fun _ => True := by
  intro remarks value runs
  obtain ⟨shown, rfl, -⟩ := RunsIn.of_write runs
  exact ⟨trivial, List.forall_mem_singleton.mpr (quiet shown)⟩

theorem of_tell {remark : Remark} (quiet : remark.Quiet) :
    (tell remark : Script isOpen Unit).Yields comparison fun _ => True :=
  .of_write fun _ => quiet

theorem of_silent (silent : script.Silent) : script.Yields comparison fun _ => True := by
  intro remarks value runs
  rw [silent _ _ runs.runs]
  exact ⟨trivial, List.forall_mem_nil _⟩

theorem echoes (yields : script.Yields comparison accept) (original : Script isOpenBefore γ) :
    script.Echoes comparison (fun value _ => accept value) original :=
  fun _ _ _ => yields

end Yields

theorem yields_report {problem : Problem} (notMismatch : problem.isMismatch = false)
    (node : NodeRef) :
    (report problem node : Script isOpen Unit).Yields comparison fun _ => True :=
  .of_tell notMismatch

theorem yields_unresolved (reference : NodeRef) (name : String) :
    (unresolved reference name : Script isOpen Unit).Yields comparison fun _ => True :=
  (Yields.of_tell (Remark.quiet_meaning _ _)).bind fun _ _ => yields_report rfl reference

theorem yields_typed (node : NodeRef) (type : NominalType) :
    (typed node type : Script isOpen NominalType).Yields comparison (· = type) :=
  (Yields.of_tell (Remark.quiet_typed _ _)).bind fun _ _ => .of_pure rfl

theorem echoes_typed (node other : NodeRef) {type original : NominalType}
    (absorbs : type.Absorbs original) :
    (typed node type : Script isOpen NominalType).Echoes comparison NominalType.Absorbs
      (typed other original : Script isOpenBefore NominalType) := by
  intro earlier value runs
  obtain ⟨-, rfl, -⟩ := runs.of_typed
  exact (yields_typed node type).weaken fun _ same => same ▸ absorbs

/-- What is accepted is still accepted once it is written down as the type of a node. -/
theorem Yields.andTyped {script : Script isOpen NominalType} {accept : NominalType → Prop}
    (yields : script.Yields comparison accept) (node : NodeRef) :
    (script >>= fun type => typed node type).Yields comparison accept :=
  yields.bind fun _ accepted => (yields_typed node _).weaken fun _ same => same ▸ accepted

theorem yields_recordError (reference : NodeRef) (name : String) :
    (recordError reference name : Script isOpen NominalType).Yields comparison
      fun type => type.isError = true :=
  (Yields.of_tell (Remark.quiet_meaning _ _)).bind fun _ _ => .of_pure rfl

namespace Echoes

variable {accept : α → γ → Prop} {acceptLast : β → δ → Prop} {script : Script isOpen α}
  {original : Script isOpenBefore γ} {next : α → Script isOpen β}
  {nextBefore : γ → Script isOpenBefore δ}

theorem of_pure {value : α} {other : γ} (accepted : accept value other) :
    (pure value : Script isOpen α).Echoes comparison accept
      (pure other : Script isOpenBefore γ) := by
  intro earlier another runs
  obtain ⟨rfl, rfl⟩ := runsIn_pure_iff.mp runs
  exact .of_pure accepted

theorem bind (echoes : script.Echoes comparison accept original)
    (goesOn : ∀ value other, accept value other →
      (next value).Echoes comparison acceptLast (nextBefore other)) :
    (script >>= next).Echoes comparison acceptLast (original >>= nextBefore) := by
  intro earlier last runs
  obtain ⟨other, _, _, runsFirst, runsLater, -⟩ := runsIn_bind_iff.mp runs
  exact (echoes _ _ runsFirst).bind fun value accepted => goesOn value other accepted _ _ runsLater

theorem weaken (echoes : script.Echoes comparison accept original) {goal : α → γ → Prop}
    (weaker : ∀ value other, accept value other → goal value other) :
    script.Echoes comparison goal original :=
  fun _ other runs => (echoes _ other runs).weaken fun value => weaker value other

theorem of_ask {node : NodeRef} (asked : isOpen node = true)
    (askedBefore : isOpenBefore node = true) :
    (ask node asked done).Echoes comparison NominalType.Absorbs
      (ask node askedBefore done) := by
  intro earlier original runsBefore remarks type runs
  obtain ⟨rfl, answered⟩ := runs.of_ask
  exact ⟨comparison.answered.mp answered original runsBefore.of_ask.2, List.forall_mem_nil _⟩

/-- What is known of each script for itself. -/
theorem and_of_runsIn (echoes : script.Echoes comparison accept original) {goal : α → Prop}
    {goalBefore : γ → Prop}
    (runsNow : ∀ remarks value, script.RunsIn comparison.now remarks value → goal value)
    (ranBefore : ∀ remarks other, original.RunsIn comparison.before remarks other →
      goalBefore other) :
    script.Echoes comparison (fun value other => accept value other ∧ goal value ∧
      goalBefore other) original := by
  intro earlier other ran remarks value runs
  obtain ⟨accepted, quiet⟩ := echoes _ _ ran _ _ runs
  exact ⟨⟨accepted, runsNow _ _ runs, ranBefore _ _ ran⟩, quiet⟩

end Echoes

namespace Excluded

variable {original : Script isOpenBefore γ} {nextBefore : γ → Script isOpenBefore δ}

theorem bind (excluded : original.Excluded comparison) :
    (original >>= nextBefore).Excluded comparison := by
  intro earlier other runs
  obtain ⟨_, _, _, runsFirst, -⟩ := runsIn_bind_iff.mp runs
  exact excluded _ _ runsFirst

theorem after (excluded : ∀ value, (nextBefore value).Excluded comparison) :
    (original >>= nextBefore).Excluded comparison := by
  intro earlier other runs
  obtain ⟨_, _, _, _, runsLater, -⟩ := runsIn_bind_iff.mp runs
  exact excluded _ _ _ runsLater

theorem echoes (excluded : original.Excluded comparison) {accept : α → γ → Prop}
    {script : Script isOpen α} : script.Echoes comparison accept original :=
  fun _ _ runs => (excluded _ _ runs).elim

theorem of_report (problem : Problem) (node : NodeRef) :
    (report problem node : Script isOpenBefore Unit).Excluded comparison :=
  fun _ _ runs => comparison.noProblem _ (RunsIn.of_tell runs).2

theorem of_unresolved (reference : NodeRef) (name : String) :
    (unresolved reference name : Script isOpenBefore Unit).Excluded comparison :=
  .after fun _ => .of_report _ _

end Excluded

end Script

end Gloss
