import Gloss.Proofs.Audit.Inference
import Gloss.Proofs.Audit.Soundness
import Gloss.Proofs.Audit.Tallies
import Gloss.Proofs.Resolution.Steps

/-!
# Audits that mirror a step

An audit mirrors a step where nothing is declared: it does not lapse, comes to
the same value and the same state, and adds a certain tally to the ledger.
What is put off counts until it is settled, so that the expressions that are
inferred on the way need not be known beforehand.
-/

namespace Gloss

/-- The tables are what the remarks make of empty ones. -/
structure Ledger.Faithful (ledger : Ledger) : Prop where
  bindings : ledger.state.bindings = (Journal.empty.remarkAll ledger.remarks).bindings
  types : ledger.state.types = (Journal.empty.remarkAll ledger.remarks).types
  declarations : ledger.state.declarations = (Journal.empty.remarkAll ledger.remarks).declarations

/-- What was written and visited so far. -/
def Ledger.tally (ledger : Ledger) : Tally :=
  (Remark.filled ledger.remarks, (ledger.visits : Multiset NodeRef))

theorem Ledger.tally_write (ledger : Ledger) (state : ResolutionState) (remark : Remark) :
    Ledger.tally ⟨state, ledger.remarks ++ [remark], ledger.visits⟩ =
      (Remark.filled [remark], 0) + ledger.tally := by
  rw [tally, Remark.filled_append, add_comm]
  exact Prod.ext rfl (zero_add _).symm

theorem Ledger.tally_visit (ledger : Ledger) (state : ResolutionState) (node : NodeRef) :
    Ledger.tally ⟨state, ledger.remarks, ledger.visits ++ [node]⟩ =
      Tally.visit node + ledger.tally := by
  rw [tally, ← Multiset.coe_add, add_comm (ledger.visits : Multiset NodeRef)]
  exact Prod.ext (zero_add _).symm rfl

theorem Ledger.Faithful.write {ledger : Ledger} (faithful : ledger.Faithful) (remark : Remark) :
    Ledger.Faithful ⟨ledger.state.remark remark, ledger.remarks ++ [remark], ledger.visits⟩ := by
  have journal := ledger.state.journal_remark remark
  have written : Journal.empty.remarkAll (ledger.remarks ++ [remark]) =
      (Journal.empty.remarkAll ledger.remarks).remark remark :=
    Journal.remarkAll_append _ _ _
  constructor
  · refine (congrArg Journal.bindings journal).trans ?_
    rw [written]
    cases remark with
    | meaning reference meant =>
        exact congrArg (fun found => Bindings.enter found (reference, meant)) faithful.bindings
    | _ => exact faithful.bindings
  · refine (congrArg Journal.types journal).trans ?_
    rw [written]
    cases remark with
    | typed node type =>
        exact congrArg (fun found => Table.insert found node type) faithful.types
    | _ => exact faithful.types
  · refine (congrArg Journal.declarations journal).trans ?_
    rw [written]
    cases remark with
    | declared node descriptor =>
        exact congrArg (fun found => Table.insert found node descriptor) faithful.declarations
    | _ => exact faithful.declarations

namespace ResolutionState

/-- The tally of the expressions that were put off, whose types are not yet
inferred, and that are not being inferred just now. -/
def unsettled (state : ResolutionState) (active : List NodeRef) : Tally :=
  weightIn (fun deferred => deferred.body.tally)
    (fun node => (state.inferred.get? node).isNone && !active.contains node)
    state.deferred.entries

theorem unsettled_eq_openWeight (state : ResolutionState) (active : List NodeRef) :
    state.unsettled active = openWeight (fun deferred => deferred.body.tally) state active :=
  rfl

end ResolutionState

/-- A step that at most reports something or notes that a function type is in use. -/
def Resolver.Quiet {α : Type} (step : Resolver α) : Prop :=
  ∀ state, ∃ diagnostics functionArities,
    (step.run state).2 = { state with diagnostics, functionArities }

namespace Audit

open ResolutionState

variable {α β : Type}

/-- A ledger of a time when the same is declared and put off as in a state. -/
structure Tracks (start : ResolutionState) (ledger : Ledger) : Prop where
  agrees : start.Agrees ledger.state
  inferred : ledger.state.inferred.AreSound start.deferred.keys
  faithful : ledger.Faithful

/-- From one ledger to another a tally is added, be it by settling what was put off. -/
structure Adds (active : List NodeRef) (tally : Tally) (before after : Ledger) : Prop where
  inferred : ∀ node, (before.state.inferred.get? node).isSome →
    (after.state.inferred.get? node).isSome
  tally : after.tally + after.state.unsettled active =
    tally + (before.tally + before.state.unsettled active)

/-- From the ledger on, an audit does what the step does, and does not lapse. -/
def MirrorsFrom (start : ResolutionState) (active : List NodeRef) (ledger : Ledger)
    (audit : Audit α) (step : Resolver α) (tally : Tally) (accept : α → Prop) : Prop :=
  ∃ value after, audit.run ledger = .ok (value, after) ∧
    step.run ledger.state = (value, after.state) ∧
      Tracks start after ∧ Adds active tally ledger after ∧ accept value

/-- Wherever the same is declared as in the given state, an audit does what the
step does. -/
def Mirrors (start : ResolutionState) (active : List NodeRef) (audit : Audit α)
    (step : Resolver α) (tally : Tally) (accept : α → Prop) : Prop :=
  ∀ ledger, Tracks start ledger → MirrorsFrom start active ledger audit step tally accept

variable {start : ResolutionState} {active : List NodeRef} {ledger middle last : Ledger}
  {audit : Audit α} {step : Resolver α} {nextAudit : α → Audit β} {next : α → Resolver β}
  {tally later : Tally} {accept : α → Prop} {acceptLast : β → Prop}

theorem run_current_bind (audits : ResolutionState → Audit β) (ledger : Ledger) :
    (current >>= audits).run ledger = (audits ledger.state).run ledger :=
  rfl

theorem Adds.refl (active : List NodeRef) (ledger : Ledger) : Adds active 0 ledger ledger :=
  ⟨fun _ known => known, (zero_add _).symm⟩

theorem Adds.trans (adds : Adds active tally ledger middle) (rest : Adds active later middle last) :
    Adds active (tally + later) ledger last where
  inferred node known := rest.inferred node (adds.inferred node known)
  tally := by rw [rest.tally, adds.tally, ← add_assoc, add_comm later]

theorem MirrorsFrom.bind
    (mirrors : MirrorsFrom start active ledger audit step tally accept)
    (goesOn : ∀ value, accept value →
      Mirrors start active (nextAudit value) (next value) later acceptLast) :
    MirrorsFrom start active ledger (audit >>= nextAudit) (step >>= next) (tally + later)
      acceptLast := by
  obtain ⟨value, middle, ran, same, tracks, adds, accepted⟩ := mirrors
  obtain ⟨result, last, ranOn, sameOn, tracksOn, addsOn, acceptedLast⟩ :=
    goesOn value accepted middle tracks
  refine ⟨result, last, ?_, ?_, tracksOn, adds.trans addsOn, acceptedLast⟩
  · rw [StateT.run_bind, ran]
    exact ranOn
  · rw [StateT.run_bind, same]
    exact sameOn

namespace Mirrors

theorem cast (mirrors : Mirrors start active audit step tally accept) (same : tally = later) :
    Mirrors start active audit step later accept :=
  same ▸ mirrors

theorem bind (mirrors : Mirrors start active audit step tally accept)
    (goesOn : ∀ value, accept value →
      Mirrors start active (nextAudit value) (next value) later acceptLast) :
    Mirrors start active (audit >>= nextAudit) (step >>= next) (tally + later) acceptLast :=
  fun ledger tracks => (mirrors ledger tracks).bind goesOn

/-- A step and then another that adds nothing. -/
theorem andThen (mirrors : Mirrors start active audit step tally accept)
    (goesOn : ∀ value, accept value →
      Mirrors start active (nextAudit value) (next value) 0 acceptLast) :
    Mirrors start active (audit >>= nextAudit) (step >>= next) tally acceptLast :=
  (mirrors.bind goesOn).cast (add_zero tally)

/-- A step that adds nothing and then another. -/
theorem after (mirrors : Mirrors start active audit step 0 accept)
    (goesOn : ∀ value, accept value →
      Mirrors start active (nextAudit value) (next value) tally acceptLast) :
    Mirrors start active (audit >>= nextAudit) (step >>= next) tally acceptLast :=
  (mirrors.bind goesOn).cast (zero_add tally)

theorem of_pure {value : α} (accepted : accept value) :
    Mirrors start active (pure value) (pure value) 0 accept :=
  fun ledger tracks => ⟨value, ledger, rfl, rfl, tracks, .refl active ledger, accepted⟩

theorem of_current {audits : ResolutionState → Audit β} {steps : ResolutionState → Resolver β}
    (goesOn : ∀ state, start.Agrees state → state.inferred.AreSound start.deferred.keys →
      Mirrors start active (audits state) (steps state) tally acceptLast) :
    Mirrors start active (current >>= audits) (get >>= steps) tally acceptLast :=
  fun ledger tracks => goesOn ledger.state tracks.agrees tracks.inferred ledger tracks

/-- A visit is noted by the audit alone. -/
theorem of_visit {audits : Unit → Audit α} (node : NodeRef)
    (mirrors : Mirrors start active (audits ()) step tally accept) :
    Mirrors start active (visit node >>= audits) step (Tally.visit node + tally) accept := by
  intro ledger tracks
  have visited : Tracks start { ledger with visits := ledger.visits ++ [node] } :=
    ⟨tracks.agrees, tracks.inferred,
      ⟨tracks.faithful.bindings, tracks.faithful.types, tracks.faithful.declarations⟩⟩
  obtain ⟨value, after, ran, same, tracksOn, adds, accepted⟩ := mirrors _ visited
  refine ⟨value, after, ran, same, tracksOn, ⟨adds.inferred, ?_⟩, accepted⟩
  rw [adds.tally, ledger.tally_visit]
  abel

/-- What is needed is there. -/
theorem of_require {lapse : Lapse} {found : Option α} {value : α} (isFound : found = some value)
    {step : Resolver β} (mirrors : Mirrors start active (nextAudit value) step tally acceptLast) :
    Mirrors start active (require lapse found >>= nextAudit) step tally acceptLast := by
  subst isFound
  exact mirrors

/-- A step that only looks something up. -/
theorem of_reader {lookUp : ResolutionState → α}
    (reads : ∀ state, step.run state = (lookUp state, state))
    (accepted : ∀ state, start.Agrees state → accept (lookUp state)) :
    Mirrors start active (follow step) step 0 accept := by
  intro ledger tracks
  refine ⟨lookUp ledger.state, ledger, ?_, reads ledger.state, tracks, .refl active ledger,
    accepted ledger.state tracks.agrees⟩
  rw [StateT.run, follow, reads]

/-- A quiet step changes nothing that an audit looks at. -/
theorem of_quiet (quiet : step.Quiet) (accepted : ∀ state, accept (step.run state).1) :
    Mirrors start active (follow step) step 0 accept := by
  intro ledger tracks
  obtain ⟨diagnostics, functionArities, changed⟩ := quiet ledger.state
  refine ⟨_, _, rfl, rfl, ?_, ?_, accepted _⟩
  · simp only [changed]
    have agrees := tracks.agrees
    exact ⟨⟨agrees.1, agrees.2, agrees.3, agrees.4, agrees.5, agrees.6, agrees.7, agrees.8⟩,
      tracks.inferred,
      ⟨tracks.faithful.bindings, tracks.faithful.types, tracks.faithful.declarations⟩⟩
  · simp only [changed]
    exact ⟨fun _ known => known, (zero_add _).symm⟩

/-- An entry about a meaning or a type. -/
theorem of_write {remark : Remark} (slot : Slot) (node : NodeRef)
    (filled : Remark.filled [remark] = slot.only node)
    (agrees : ∀ state : ResolutionState, state.Agrees (state.remark remark))
    (inferred : ∀ state : ResolutionState, (state.remark remark).inferred = state.inferred) :
    Mirrors start active (write remark) (modify fun state => state.remark remark)
      (Tally.entry slot node) fun _ => True := by
  intro ledger tracks
  have same := agrees ledger.state
  refine ⟨(), _, rfl, rfl, ⟨?_, ?_, tracks.faithful.write remark⟩, ⟨?_, ?_⟩, trivial⟩
  · have before := tracks.agrees
    exact ⟨same.scopes.trans before.scopes, same.classes.trans before.classes,
      same.declarations.trans before.declarations,
      same.constructorParameters.trans before.constructorParameters,
      same.headerScopes.trans before.headerScopes,
      same.functionScopes.trans before.functionScopes,
      same.initializerScopes.trans before.initializerScopes,
      same.deferred.trans before.deferred⟩
  · simp only [inferred]
    exact tracks.inferred
  · simp only [inferred]
    exact fun _ known => known
  · have unsettled : (ledger.state.remark remark).unsettled active =
        ledger.state.unsettled active := by
      rw [ResolutionState.unsettled, ResolutionState.unsettled, inferred, same.deferred]
    rw [ledger.tally_write, unsettled, filled, add_assoc]
    rfl

end Mirrors

end Audit

end Gloss
