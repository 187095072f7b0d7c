import Gloss.Proofs.Audit.Arranging
import Gloss.Proofs.Audit.Files

/-!
# Audits of runs that declare

From a ledger on, an audit carries out a step that may declare something and put
off expressions.  It does not lapse, and once more everything that is put off
counts until it is settled.
-/

namespace Gloss.Audit

open ResolutionState

variable {α β : Type} {promised : List NodeRef} {before middle last : Ledger}
  {opened laterOpened : Multiset NodeRef} {tally laterTally : Tally}
  {audit : Audit α} {step : Resolver α} {nextAudit : α → Audit β} {next : α → Resolver β}
  {accept : α → ResolutionState → Prop} {acceptLast : β → ResolutionState → Prop}

/-- From one ledger to another some expressions are put off and a tally is added. -/
structure Carried (promised : List NodeRef) (opened : Multiset NodeRef) (tally : Tally)
    (before after : Ledger) : Prop where
  firm : after.state.Firm promised
  faithful : after.Faithful
  retains : before.state.Retains after.state
  deferred : (after.state.deferred.keys : Multiset NodeRef) = before.state.deferred.keys + opened
  tally : after.tally + after.state.unsettled [] =
    tally + (before.tally + before.state.unsettled [])

theorem Carried.trans (carried : Carried promised opened tally before middle)
    (later : Carried promised laterOpened laterTally middle last) :
    Carried promised (opened + laterOpened) (tally + laterTally) before last where
  firm := later.firm
  faithful := later.faithful
  retains := carried.retains.trans later.retains
  deferred := by rw [later.deferred, carried.deferred, add_assoc]
  tally := by rw [later.tally, carried.tally, ← add_assoc, add_comm laterTally]

/-- What was put off stays put off. -/
theorem Carried.includes (carried : Carried promised opened tally before last)
    (included : promised ⊆ before.state.deferred.keys) :
    promised ⊆ last.state.deferred.keys := by
  intro node isPromised
  rw [← Multiset.mem_coe, carried.deferred]
  exact Multiset.mem_add.mpr (.inl (included isPromised))

/-- From the ledger on, an audit does what the step does, and does not lapse. -/
def Carries (promised : List NodeRef) (before : Ledger) (audit : Audit α) (step : Resolver α)
    (opened : Multiset NodeRef) (tally : Tally) (accept : α → ResolutionState → Prop) : Prop :=
  before.state.Firm promised → before.Faithful →
    ((before.state.deferred.keys : Multiset NodeRef) + opened).Nodup →
      ∃ value after, audit.run before = .ok (value, after) ∧
        step.run before.state = (value, after.state) ∧
          Carried promised opened tally before after ∧ accept value after.state

namespace Carries

theorem cast (carries : Carries promised before audit step opened tally accept)
    (sameOpened : opened = laterOpened) (sameTally : tally = laterTally) :
    Carries promised before audit step laterOpened laterTally accept :=
  sameOpened ▸ sameTally ▸ carries

theorem weaken (carries : Carries promised before audit step opened tally accept)
    {goal : α → ResolutionState → Prop}
    (weaker : ∀ value state, state.Firm promised → accept value state → goal value state) :
    Carries promised before audit step opened tally goal := by
  intro firm faithful distinct
  obtain ⟨value, after, ran, same, carried, accepted⟩ := carries firm faithful distinct
  exact ⟨value, after, ran, same, carried, weaker value after.state carried.firm accepted⟩

theorem bind (carries : Carries promised before audit step opened tally accept)
    (goesOn : ∀ value middle, Carried promised opened tally before middle →
      accept value middle.state →
        Carries promised middle (nextAudit value) (next value) laterOpened laterTally
          acceptLast) :
    Carries promised before (audit >>= nextAudit) (step >>= next) (opened + laterOpened)
      (tally + laterTally) acceptLast := by
  intro firm faithful distinct
  rw [← add_assoc] at distinct
  have distinctFirst := Multiset.nodup_of_le (Multiset.le_add_right _ _) distinct
  obtain ⟨value, middle, ran, same, carried, accepted⟩ := carries firm faithful distinctFirst
  rw [← carried.deferred] at distinct
  obtain ⟨result, after, ranOn, sameOn, carriedOn, acceptedLast⟩ :=
    goesOn value middle carried accepted carried.firm carried.faithful distinct
  refine ⟨result, after, ?_, ?_, carried.trans carriedOn, acceptedLast⟩
  · rw [StateT.run_bind, ran]
    exact ranOn
  · rw [StateT.run_bind, same]
    exact sameOn

/-- What holds after a step holds after the next one too, if it is retained. -/
theorem bindRetaining {kept : ResolutionState → Prop}
    (mono : ∀ earlier later : ResolutionState, earlier.Retains later → later.Firm promised →
      kept earlier → kept later)
    (carries : Carries promised before audit step opened tally fun _ => kept)
    (goesOn : ∀ value middle, Carried promised opened tally before middle →
      Carries promised middle (nextAudit value) (next value) laterOpened laterTally
        acceptLast) :
    Carries promised before (audit >>= nextAudit) (step >>= next) (opened + laterOpened)
      (tally + laterTally) fun value after => kept after ∧ acceptLast value after := by
  apply carries.bind
  intro value middle carried holds firm faithful distinct
  obtain ⟨result, after, ran, same, later, accepted⟩ :=
    goesOn value middle carried firm faithful distinct
  exact ⟨result, after, ran, same, later, mono _ _ later.retains later.firm holds, accepted⟩

/-- A step that adds nothing and then another. -/
theorem after (carries : Carries promised before audit step 0 0 accept)
    (goesOn : ∀ value middle, Carried promised 0 0 before middle → accept value middle.state →
      Carries promised middle (nextAudit value) (next value) opened tally acceptLast) :
    Carries promised before (audit >>= nextAudit) (step >>= next) opened tally acceptLast :=
  cast (carries.bind goesOn) (zero_add _) (zero_add _)

/-- A step and then another that adds nothing. -/
theorem andThen (carries : Carries promised before audit step opened tally accept)
    (goesOn : ∀ value middle, Carried promised opened tally before middle →
      accept value middle.state →
        Carries promised middle (nextAudit value) (next value) 0 0 acceptLast) :
    Carries promised before (audit >>= nextAudit) (step >>= next) opened tally acceptLast :=
  cast (carries.bind goesOn) (add_zero _) (add_zero _)

theorem of_pure {value : α} (accepted : accept value before.state) :
    Carries promised before (pure value) (pure value) 0 0 accept :=
  fun firm faithful _ => ⟨value, before, rfl, rfl,
    ⟨firm, faithful, .refl _, (add_zero _).symm, (zero_add _).symm⟩, accepted⟩

/-- Firmness may be used, as it holds all along. -/
theorem of_firm
    (carries : before.state.Firm promised →
      Carries promised before audit step opened tally accept) :
    Carries promised before audit step opened tally accept :=
  fun firm => carries firm firm

theorem of_current {audits : ResolutionState → Audit β} {steps : ResolutionState → Resolver β}
    (carries : Carries promised before (audits before.state) (steps before.state) opened tally
      acceptLast) :
    Carries promised before (current >>= audits) (get >>= steps) opened tally acceptLast :=
  carries

/-- A step that looks at the state where the audit looks at parts of it. -/
theorem of_get {audit : Audit β} {steps : ResolutionState → Resolver β}
    (carries : Carries promised before audit (steps before.state) opened tally acceptLast) :
    Carries promised before audit (get >>= steps) opened tally acceptLast :=
  carries

/-- A visit is noted by the audit alone. -/
theorem of_visit {audits : Unit → Audit α} (node : NodeRef)
    (carries : ∀ visited : Ledger, visited.state = before.state →
      Carries promised visited (audits ()) step opened tally accept) :
    Carries promised before (visit node >>= audits) step opened (Tally.visit node + tally)
      accept := by
  intro firm faithful distinct
  obtain ⟨value, after, ran, same, carried, accepted⟩ :=
    carries { before with visits := before.visits ++ [node] } rfl firm
      ⟨faithful.bindings, faithful.types, faithful.declarations⟩ distinct
  refine ⟨value, after, ran, same, ⟨carried.firm, carried.faithful, carried.retains,
    carried.deferred, ?_⟩, accepted⟩
  rw [carried.tally, before.tally_visit]
  abel

theorem of_arranges (arranges : before.state.Arranges promised (step.run before.state).2) :
    Carries promised before (follow step) step 0 0
      fun value after => step.run before.state = (value, after) := by
  intro firm faithful _
  have unsettled : (step.run before.state).2.unsettled [] = before.state.unsettled [] := by
    rw [ResolutionState.unsettled, ResolutionState.unsettled, arranges.inferred, arranges.deferred]
  refine ⟨(step.run before.state).1, { before with state := (step.run before.state).2 }, rfl, rfl,
    ⟨arranges.firm firm, ⟨?_, ?_, ?_⟩, arranges.retains, ?_, ?_⟩, rfl⟩
  · exact arranges.bindings.trans faithful.bindings
  · exact arranges.types.trans faithful.types
  · exact arranges.declarations.trans faithful.declarations
  · rw [arranges.deferred, add_zero]
  · rw [unsettled, zero_add]
    rfl

/-- Where nothing is declared, an audit that mirrors a step carries it out. -/
theorem of_mirrors {accept : α → Prop}
    (mirrors : before.state.Firm promised → Mirrors before.state [] audit step tally accept) :
    Carries promised before audit step 0 tally fun value _ => accept value := by
  intro firm faithful _
  obtain ⟨value, after, ran, same, tracks, adds, accepted⟩ :=
    mirrors firm before ⟨.refl _, firm.inferred, faithful⟩
  refine ⟨value, after, ran, same, ⟨firm.of_agrees tracks.agrees tracks.inferred, tracks.faithful,
    tracks.agrees.retains, ?_, adds.tally⟩, accepted⟩
  rw [tracks.agrees.deferred, add_zero]

/-- A declaration adds to the slot of its node. -/
theorem of_declare {node : NodeRef} {descriptor : Descriptor}
    (introduces : descriptor.Introduces node) (sound : descriptor.Sound promised) :
    Carries promised before (declare node descriptor) (Resolver.declare node descriptor) 0
      (Tally.entry .declaration node)
      fun _ after => after.declarations.get? node = some descriptor := by
  intro firm faithful _
  have found (other : NodeRef) := Table.get?_insert before.state.declarations node other descriptor
  refine ⟨(), _, rfl, rfl, ⟨⟨firm.symbols, firm.classes, ?_, firm.inferred, firm.deferredOnce⟩,
    faithful.write (.declared node descriptor), ⟨?_, fun _ known => known, fun _ known => known,
      fun _ known => known⟩, (add_zero _).symm, ?_⟩, ?_⟩
  · intro other known isFound
    change (before.state.declarations.insert node descriptor).get? other = some known at isFound
    rw [found] at isFound
    split at isFound
    · next same =>
        cases isFound
        exact same ▸ ⟨introduces, sound⟩
    · exact firm.declared other known isFound
  · intro other isKnown
    by_contra isNew
    have none := Table.get?_eq_none_iff.mpr isNew
    change (before.state.declarations.insert node descriptor).get? other = .none at none
    rw [found] at none
    split at none
    · cases none
    · exact Table.get?_eq_none_iff.mp none isKnown
  · rw [before.tally_write, Remark.filled_declared, add_assoc]
    rfl
  · change (before.state.declarations.insert node descriptor).get? node = some descriptor
    rw [found, if_pos rfl]

/-- An expression that is put off counts until it is settled. -/
theorem of_defer (node : NodeRef) (name : String) (body : Tree.Expr) (scope : Nat) :
    Carries promised before (defer node name body scope) (Resolver.defer node name body scope)
      {node} body.tally fun _ _ => True := by
  intro firm faithful distinct
  have new : node ∉ before.state.deferred.keys := by
    intro put
    have apart := (Multiset.nodup_add.mp distinct).2.2
    exact Multiset.disjoint_left.mp apart (Multiset.mem_coe.mpr put)
      (Multiset.mem_singleton_self node)
  have notInferred : before.state.inferred.get? node = none := by
    by_contra known
    obtain ⟨type, isInferred⟩ := Option.ne_none_iff_exists'.mp known
    exact new (firm.inferred node type isInferred).2
  have keys := Table.keys_insert_of_notMem new ({ name, body, scope } : Deferred)
  have keysAdded : ((before.state.deferred.insert node { name, body, scope }).keys :
      Multiset NodeRef) = before.state.deferred.keys + {node} := by
    rw [keys, ← Multiset.coe_add, Multiset.coe_singleton]
  refine ⟨(), _, rfl, rfl, ⟨⟨firm.symbols, firm.classes, firm.declared, ?_, ?_⟩,
    ⟨faithful.bindings, faithful.types, faithful.declarations⟩, .of_eq rfl rfl rfl rfl, keysAdded,
    ?_⟩, trivial⟩
  · intro other type known
    obtain ⟨saturated, put⟩ := firm.inferred other type known
    refine ⟨saturated, ?_⟩
    change other ∈ (before.state.deferred.insert node { name, body, scope }).keys
    rw [keys]
    exact List.mem_append_left _ put
  · change (before.state.deferred.insert node { name, body, scope }).keys.Nodup
    rwa [← Multiset.coe_nodup, keysAdded]
  · rw [unsettled_eq_openWeight, add_left_comm]
    exact congrArg (before.tally + ·) (openWeight_putOff new notInferred)

section Found

variable {node : NodeRef} {step : Resolver β}

theorem of_classAt {owner : ClassDescriptor} {audits : ClassDescriptor → Audit β}
    (found : before.state.declarations.get? node = some (.class owner))
    (carries : Carries promised before (audits owner) step opened tally acceptLast) :
    Carries promised before (classAt node >>= audits) step opened tally acceptLast := by
  have ran : (classAt node >>= audits).run before = (audits owner).run before := by
    rw [classAt, bind_assoc, run_current_bind, found, pure_bind]
  unfold Carries
  rw [ran]
  exact carries

theorem of_functionAt {descriptor : FunctionDescriptor} {audits : FunctionDescriptor → Audit β}
    (found : before.state.declarations.get? node = some (.function descriptor))
    (carries : Carries promised before (audits descriptor) step opened tally acceptLast) :
    Carries promised before (functionAt node >>= audits) step opened tally acceptLast := by
  have ran : (functionAt node >>= audits).run before = (audits descriptor).run before := by
    rw [functionAt, bind_assoc, run_current_bind, found, pure_bind]
  unfold Carries
  rw [ran]
  exact carries

theorem of_variableAt {descriptor : VariableDescriptor} {audits : VariableDescriptor → Audit β}
    (found : before.state.declarations.get? node = some (.variable descriptor))
    (carries : Carries promised before (audits descriptor) step opened tally acceptLast) :
    Carries promised before (variableAt node >>= audits) step opened tally acceptLast := by
  have ran : (variableAt node >>= audits).run before = (audits descriptor).run before := by
    rw [variableAt, bind_assoc, run_current_bind, found, pure_bind]
  unfold Carries
  rw [ran]
  exact carries

theorem of_scopeAt {scopes : ResolutionState → Table NodeRef Nat} {scope : Nat}
    {audits : Nat → Audit β} (found : (scopes before.state).get? node = some scope)
    (carries : Carries promised before (audits scope) step opened tally acceptLast) :
    Carries promised before (scopeAt scopes node >>= audits) step opened tally acceptLast := by
  have ran : (scopeAt scopes node >>= audits).run before = (audits scope).run before := by
    rw [scopeAt, bind_assoc, run_current_bind, found, require, pure_bind]
  unfold Carries
  rw [ran]
  exact carries

end Found

end Carries

end Gloss.Audit
