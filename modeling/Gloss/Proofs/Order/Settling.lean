import Gloss.Proofs.Order.Playing
import Gloss.Proofs.Resolution.Inference

/-!
# Settling open types

Where no declaration depends on itself, demands settle open types one after the
other, each by a script that only asks for types that were settled before.  So what a
script comes to can be read off from the types that are known in the end.
-/

namespace Gloss

/-- An open type that was settled, with what its inference wrote down. -/
structure Settlement where
  node : NodeRef
  type : NominalType
  remarks : List Remark

def Settlement.entry (settlement : Settlement) : NodeRef × NominalType :=
  (settlement.node, settlement.type)

/-- Each of some settlements comes from types that were known before it. -/
inductive Sound {isOpen : NodeRef → Bool}
    (body? : NodeRef → Option (Script isOpen NominalType)) :
    List (NodeRef × NominalType) → List Settlement → Prop
  | nil (known : List (NodeRef × NominalType)) : Sound body? known []
  | cons {known : List (NodeRef × NominalType)} {settlement : Settlement}
      {later : List Settlement} {script : Script isOpen NominalType}
      (isBody : body? settlement.node = some script)
      (outcome : script.outcome ⟨known⟩ = some (settlement.type, settlement.remarks))
      (new : settlement.node ∉ known.map Prod.fst)
      (sound : Sound body? (known ++ [settlement.entry]) later) :
      Sound body? known (settlement :: later)

theorem Sound.append {isOpen : NodeRef → Bool}
    {body? : NodeRef → Option (Script isOpen NominalType)}
    {known : List (NodeRef × NominalType)} {first second : List Settlement}
    (sound : Sound body? known first)
    (later : Sound body? (known ++ first.map Settlement.entry) second) :
    Sound body? known (first ++ second) := by
  induction sound with
  | nil known => simpa using later
  | cons isBody outcome new _ ih =>
      refine .cons isBody outcome new (ih ?_)
      simpa using later

namespace ResolutionState

def isOpenType (base : ResolutionState) (node : NodeRef) : Bool :=
  (base.deferred.get? node).isSome

/-- The script of a body that was put off. -/
def body? (base : ResolutionState) (node : NodeRef) :
    Option (Script base.isOpenType NominalType) :=
  (base.deferred.get? node).map fun deferred =>
    (base.around deferred.scope node).infer deferred.body

/-- What was put off can be inferred later. -/
structure Postpones (base : ResolutionState) : Prop where
  inside : ∀ node deferred, base.deferred.get? node = some deferred →
    deferred.scope < base.scopes.size
  owned : ∀ node deferred, base.deferred.get? node = some deferred →
    (base.around deferred.scope node).Owned

/-- From one state to another some remarks were written down, and some open types
were settled. -/
structure Gains (base : ResolutionState) (remarks : List Remark)
    (before after : ResolutionState) : Prop where
  exists_settlements : ∃ settlements, Sound base.body? before.inferred.entries settlements ∧
    after.inferred.entries = before.inferred.entries ++ settlements.map Settlement.entry ∧
      ∃ total, after.journal = before.journal.remarkAll total ∧
        total.Perm (remarks ++ settlements.flatMap Settlement.remarks)

variable {base before middle after : ResolutionState} {first second : List Remark}
  {active : List NodeRef}

theorem Gains.refl (state : ResolutionState) : base.Gains [] state state :=
  ⟨[], .nil _, by simp, [], rfl, .refl _⟩

theorem Gains.trans (gains : base.Gains first before middle)
    (later : base.Gains second middle after) : base.Gains (first ++ second) before after := by
  obtain ⟨settlements, sound, entries, total, journal, perm⟩ := gains
  obtain ⟨laterSettlements, laterSound, laterEntries, laterTotal, laterJournal, laterPerm⟩ := later
  refine ⟨settlements ++ laterSettlements, sound.append (entries ▸ laterSound), ?_,
    total ++ laterTotal, ?_, ?_⟩
  · rw [laterEntries, entries, List.map_append, List.append_assoc]
  · rw [laterJournal, journal, Journal.remarkAll_append]
  · rw [List.flatMap_append]
    refine (perm.append laterPerm).trans ?_
    rw [List.append_assoc, List.append_assoc]
    exact (List.perm_append_comm_assoc _ _ _).append_left _

theorem inferred_remark (state : ResolutionState) (remark : Remark) :
    (state.remark remark).inferred = state.inferred := by
  cases remark with
  | arity count =>
      rw [ResolutionState.remark]
      split <;> rfl
  | _ => rfl

theorem Gains.of_remark (state : ResolutionState) (remark : Remark) :
    base.Gains [remark] state (state.remark remark) := by
  refine ⟨[], .nil _, by simp [inferred_remark], [remark], ?_, .refl _⟩
  rw [journal_remark]
  rfl

variable {remarks : List Remark}

/-- What was known stays known. -/
theorem Gains.get?_inferred (gains : base.Gains remarks before after) {node : NodeRef}
    {type : NominalType} (known : before.inferred.get? node = some type) :
    after.inferred.get? node = some type := by
  obtain ⟨settlements, -, entries, -⟩ := gains
  rw [Table.get?, entries, Table.lookupIn_append]
  rw [Table.get?] at known
  rw [known]
  rfl

/-- Some declaration was found to depend on itself. -/
def IsRecursive (state : ResolutionState) : Prop :=
  ∃ found ∈ state.diagnostics, ∃ name, found.problem = .recursiveType name

theorem Settles.not_isRecursive (settles : before.Settles after)
    (notRecursive : ¬ after.IsRecursive) : ¬ before.IsRecursive :=
  fun ⟨found, inBefore, recursive⟩ => notRecursive ⟨found, settles.reports inBefore, recursive⟩

/-- The types of the active declarations are not known. -/
def Awaits (state : ResolutionState) (active : List NodeRef) : Prop :=
  ∀ node ∈ active, state.inferred.get? node = none

/-- A type that is being inferred or that was not put off is not known. -/
theorem Awaits.unknown (awaits : before.Awaits active) (continues : base.Continues before)
    {own : NodeRef} (isOwn : own ∈ active ∨ base.deferred.get? own = none) :
    before.inferred.get? own = none := by
  rcases isOwn with isActive | notDeferred
  · exact awaits own isActive
  · by_contra known
    have deferred := continues.inferred own (Option.isSome_iff_ne_none.mpr known)
    rw [notDeferred] at deferred
    cases deferred

/-- Demands settle the types that they are for, and those that are needed for
these, unless a declaration depends on itself. -/
def Delivers (base : ResolutionState) (active : List NodeRef) (demand : Demand) : Prop :=
  ∀ state node, base.Continues state → state.Awaits active → state.inferred.get? node = none →
    (base.deferred.get? node).isSome → ¬ ((demand node).run state).2.IsRecursive →
      base.Gains [] state ((demand node).run state).2 ∧
        ((demand node).run state).2.Awaits active ∧
          ((demand node).run state).2.inferred.get? node = some ((demand node).run state).1

end ResolutionState

open ResolutionState

variable {base state : ResolutionState} {active : List NodeRef} {demand : Demand} {α : Type}
  {own : NodeRef}

/-- Unless a declaration depends on itself, a script comes to what is said by the
types that are known after it. -/
theorem gains_play (dutiful : demand.Dutiful base) (delivers : base.Delivers active demand)
    (isOwn : own ∈ active ∨ base.deferred.get? own = none)
    (script : Script base.isOpenType α) (continues : base.Continues state)
    (awaits : state.Awaits active)
    (notRecursive : ¬ ((script.play own demand).run state).2.IsRecursive) :
    ∃ remarks, script.outcome ((script.play own demand).run state).2.inferred =
        some (((script.play own demand).run state).1, remarks) ∧
      base.Gains remarks state ((script.play own demand).run state).2 ∧
        ((script.play own demand).run state).2.Awaits active := by
  -- Along the script: what was asked for stays known, so the outcome can be read off from
  -- what is known at the end.
  induction script generalizing state with
  | done value => exact ⟨[], rfl, .refl state, awaits⟩
  | write remark rest ih =>
      have unknown := awaits.unknown continues isOwn
      have settles := state.settles_remark (remark none)
      have awaitsLater : (state.remark (remark none)).Awaits active := by
        intro node isActive
        rw [inferred_remark]
        exact awaits node isActive
      rw [Script.run_play_write demand remark rest unknown] at notRecursive ⊢
      obtain ⟨remarks, outcome, gains, stillAwaits⟩ :=
        ih (continues.settles settles) awaitsLater notRecursive
      refine ⟨remark none :: remarks, ?_, (Gains.of_remark state (remark none)).trans gains,
        stillAwaits⟩
      rw [Script.outcome, outcome]
      rfl
  | ask node asked rest ih =>
      have settles := dutiful.settles_settle continues none (some node)
      rw [Script.run_play_ask] at notRecursive ⊢
      have notYet := (dutiful.settles_play own _
        (continues.settles settles)).not_isRecursive notRecursive
      obtain ⟨gains, awaitsLater, known⟩ :
          base.Gains [] state ((Resolver.settle demand none (some node)).run state).2 ∧
            ((Resolver.settle demand none (some node)).run state).2.Awaits active ∧
              ((Resolver.settle demand none (some node)).run state).2.inferred.get? node =
                some ((Resolver.settle demand none (some node)).run state).1 := by
        cases inferred : state.inferred.get? node with
        | some type =>
            rw [Resolver.run_settle_of_some inferred]
            exact ⟨.refl state, awaits, inferred⟩
        | none =>
            rw [Resolver.run_settle_of_none inferred] at notYet ⊢
            exact delivers state node continues awaits inferred asked notYet
      obtain ⟨remarks, outcome, laterGains, stillAwaits⟩ :=
        ih _ (continues.settles settles) awaitsLater notRecursive
      refine ⟨remarks, ?_, gains.trans laterGains, stillAwaits⟩
      rw [Script.outcome, laterGains.get?_inferred known]
      exact outcome

/-! ### Demands -/

namespace ResolutionState

variable {scope : Nat} {node : NodeRef}

/-- From a scope that is there in the base the same is seen later. -/
theorem Continues.fits (continues : base.Continues state) (inside : scope < base.scopes.size)
    (own : NodeRef) : base.Fits scope (base.around scope own) state := by
  refine ⟨continues, ?_⟩
  simp only [around, continues.levels scope inside, continues.deferred, Surroundings.mk.injEq,
    true_and, and_true]
  funext constructor
  simp only [class?, continues.classes]

theorem settles_remember (state : ResolutionState) (type : NominalType)
    (deferred : (state.deferred.get? node).isSome) :
    state.Settles ((Resolver.remember node type).run state).2 where
  scopes := rfl
  classes := rfl
  functionScopes := rfl
  initializerScopes := rfl
  deferred := rfl
  keeps _ known := Table.isSome_get?_insert type known
  inferred other known := by
    change ((state.inferred.insert node type).get? other).isSome at known
    rw [Table.get?_insert] at known
    split at known
    · next same => exact .inr (same ▸ deferred)
    · exact .inl known
  reports := List.Subset.refl _

/-- More demands may still become active than there are open types. -/
structure Ample (base : ResolutionState) (depth : Nat) (active : List NodeRef) : Prop where
  once : active.Nodup
  deferred : ∀ node ∈ active, (base.deferred.get? node).isSome
  size : base.deferred.size ≤ depth + active.length

theorem mem_keys_of_isSome (deferred : (base.deferred.get? node).isSome) :
    node ∈ base.deferred.keys := by
  obtain ⟨put, found⟩ := Option.isSome_iff_exists.mp deferred
  exact Table.mem_keys_of_get? found

theorem Ample.cons {depth : Nat} (ample : base.Ample (depth + 1) active)
    (deferred : (base.deferred.get? node).isSome) (notActive : node ∉ active) :
    base.Ample depth (node :: active) where
  once := List.nodup_cons.mpr ⟨notActive, ample.once⟩
  deferred := List.forall_mem_cons.mpr ⟨deferred, ample.deferred⟩
  size := by
    have := ample.size
    rw [List.length_cons]
    omega

/-- When no more demands may become active, all open types are being inferred. -/
theorem Ample.mem_of_zero (ample : base.Ample 0 active)
    (deferred : (base.deferred.get? node).isSome) : node ∈ active := by
  by_contra notActive
  have once : (node :: active).Nodup := List.nodup_cons.mpr ⟨notActive, ample.once⟩
  have included : node :: active ⊆ base.deferred.keys := by
    refine List.cons_subset.mpr ⟨mem_keys_of_isSome deferred, ?_⟩
    exact fun other isActive => mem_keys_of_isSome (ample.deferred other isActive)
  have length := (List.subperm_of_subset once included).length_le
  have size := ample.size
  rw [List.length_cons, Table.keys, List.length_map] at length
  rw [Table.size] at size
  omega

end ResolutionState

section Demands

open Resolver

variable {node : NodeRef} {deferred : Deferred} {depth : Nat}

theorem run_demandWithin_of_none (depth : Nat) (active : List NodeRef)
    (found : state.deferred.get? node = none) :
    (demandWithin depth active node).run state = (.error, state) := by
  rw [run_demandWithin, found]
  rfl

theorem run_demandWithin_of_mem (depth : Nat) (found : state.deferred.get? node = some deferred)
    (isActive : node ∈ active) :
    (demandWithin depth active node).run state =
      (remember node .error).run
        (state.remark (.problem { problem := .recursiveType deferred.name, node })) := by
  rw [run_demandWithin, found]
  simp only [isActive, if_true]
  rfl

/-- The type of a declaration that is not active is inferred from its script. -/
theorem run_demandWithin_succ (postpones : base.Postpones)
    (dutiful : (demandWithin depth (node :: active)).Dutiful base)
    (continues : base.Continues state) (found : base.deferred.get? node = some deferred)
    (notActive : node ∉ active) :
    (demandWithin (depth + 1) active node).run state =
      (remember node (((((base.around deferred.scope node).infer deferred.body).play node
        (demandWithin depth (node :: active))).run state).1)).run
          ((((base.around deferred.scope node).infer deferred.body).play node
            (demandWithin depth (node :: active))).run state).2 := by
  have fits := continues.fits (postpones.inside node deferred found) node
  have performs := performs_infer dutiful (postpones.owned node deferred found) deferred.body
    state fits
  rw [run_demandWithin, continues.deferred, found]
  simp only [notActive, if_false]
  rw [run_bind, performs]
  rfl

theorem isSome_inferred_remember (state : ResolutionState) (type : NominalType) :
    (((remember node type).run state).2.inferred.get? node).isSome :=
  Table.isSome_get?_insert_self _ _ _

/-- A declaration that depends on itself gets a type all the same. -/
theorem answers_of_mem (continues : base.Continues state) (depth : Nat)
    (found : base.deferred.get? node = some deferred) (isActive : node ∈ active) :
    state.Settles ((demandWithin depth active node).run state).2 ∧
      (((demandWithin depth active node).run state).2.inferred.get? node).isSome := by
  rw [run_demandWithin_of_mem depth (continues.deferred ▸ found) isActive]
  have reported := state.settles_remark
    (.problem { problem := .recursiveType deferred.name, node })
  refine ⟨reported.trans (settles_remember _ _ ?_), isSome_inferred_remember _ _⟩
  rw [reported.deferred, continues.deferred, found]
  rfl

theorem dutiful_of_answers
    (answers : ∀ state : ResolutionState, base.Continues state → ∀ node deferred,
      base.deferred.get? node = some deferred →
        state.Settles ((demandWithin depth active node).run state).2 ∧
          (((demandWithin depth active node).run state).2.inferred.get? node).isSome) :
    (demandWithin depth active).Dutiful base where
  settles state continues node := by
    cases found : base.deferred.get? node with
    | none =>
        rw [run_demandWithin_of_none _ _ (continues.deferred ▸ found)]
        exact .refl state
    | some deferred => exact (answers state continues node deferred found).1
  remembers state continues node isDeferred := by
    obtain ⟨deferred, found⟩ := Option.isSome_iff_exists.mp isDeferred
    exact (answers state continues node deferred found).2
  refuses state continues node found :=
    run_demandWithin_of_none _ _ (continues.deferred ▸ found)

theorem dutiful_demandWithin (postpones : base.Postpones) {depth : Nat} {active : List NodeRef}
    (ample : base.Ample depth active) : (demandWithin depth active).Dutiful base := by
  induction depth generalizing active with
  | zero =>
      apply dutiful_of_answers
      intro state continues node deferred found
      exact answers_of_mem continues 0 found (ample.mem_of_zero (by rw [found]; rfl))
  | succ depth ih =>
      apply dutiful_of_answers
      intro state continues node deferred found
      by_cases isActive : node ∈ active
      · exact answers_of_mem continues _ found isActive
      · have isDeferred : (base.deferred.get? node).isSome := by rw [found]; rfl
        have dutiful := ih (ample.cons isDeferred isActive)
        rw [run_demandWithin_succ postpones dutiful continues found isActive]
        have played := dutiful.settles_play node
          ((base.around deferred.scope node).infer deferred.body) continues
        refine ⟨played.trans (settles_remember _ _ ?_), isSome_inferred_remember _ _⟩
        rw [played.deferred, continues.deferred]
        exact isDeferred

theorem isRecursive_of_mem (continues : base.Continues state) (depth : Nat)
    (found : base.deferred.get? node = some deferred) (isActive : node ∈ active) :
    ((demandWithin depth active node).run state).2.IsRecursive := by
  rw [run_demandWithin_of_mem depth (continues.deferred ▸ found) isActive]
  exact ⟨_, List.mem_append_right _ (List.mem_singleton_self _), deferred.name, rfl⟩

/-- Remembering the outcome of a body is a settlement. -/
theorem gains_remember {remarks : List Remark} {after : ResolutionState} {type : NominalType}
    {script : Script base.isOpenType NominalType} (isBody : base.body? node = some script)
    (gains : base.Gains remarks state after)
    (outcome : script.outcome after.inferred = some (type, remarks))
    (unknown : after.inferred.get? node = none) :
    base.Gains [] state ((remember node type).run after).2 := by
  obtain ⟨settlements, sound, entries, total, journal, perm⟩ := gains
  have new : node ∉ after.inferred.keys := Table.get?_eq_none_iff.mp unknown
  have last : Sound base.body? after.inferred.entries [⟨node, type, remarks⟩] :=
    .cons isBody outcome new (.nil _)
  refine ⟨settlements ++ [⟨node, type, remarks⟩], sound.append (entries ▸ last), ?_, total,
    journal, ?_⟩
  · change (after.inferred.insert node type).entries = _
    rw [Table.insert_of_notMem new, entries, List.map_append, List.append_assoc]
    rfl
  · rw [List.flatMap_append, List.nil_append]
    refine perm.trans (List.perm_append_comm.trans ?_)
    simp

theorem delivers_demandWithin (postpones : base.Postpones) {depth : Nat} {active : List NodeRef}
    (ample : base.Ample depth active) : base.Delivers active (demandWithin depth active) := by
  induction depth generalizing active with
  | zero =>
      intro state node continues awaits unknown isDeferred notRecursive
      obtain ⟨deferred, found⟩ := Option.isSome_iff_exists.mp isDeferred
      exact absurd (isRecursive_of_mem continues 0 found (ample.mem_of_zero isDeferred))
        notRecursive
  | succ depth ih =>
      intro state node continues awaits unknown isDeferred notRecursive
      obtain ⟨deferred, found⟩ := Option.isSome_iff_exists.mp isDeferred
      by_cases isActive : node ∈ active
      · exact absurd (isRecursive_of_mem continues _ found isActive) notRecursive
      · have deeper := ample.cons isDeferred isActive
        have dutiful := dutiful_demandWithin postpones deeper
        rw [run_demandWithin_succ postpones dutiful continues found isActive] at notRecursive ⊢
        have awaitsNode : state.Awaits (node :: active) :=
          List.forall_mem_cons.mpr ⟨unknown, awaits⟩
        obtain ⟨remarks, outcome, gains, stillAwaits⟩ :=
          gains_play dutiful (ih deeper) (.inl List.mem_cons_self)
            (show Script base.isOpenType NominalType from
              (base.around deferred.scope node).infer deferred.body) continues awaitsNode
            notRecursive
        obtain ⟨stillUnknown, stillAwaitsOthers⟩ := List.forall_mem_cons.mp stillAwaits
        have isBody : base.body? node =
            some ((base.around deferred.scope node).infer deferred.body) := by
          rw [body?, found]
          rfl
        refine ⟨gains_remember isBody gains outcome stillUnknown, ?_, ?_⟩
        · intro other isOther
          have different : node ≠ other := by
            rintro rfl
            exact isActive isOther
          change (Table.insert _ node _).get? other = none
          rw [Table.get?_insert, if_neg different]
          exact stillAwaitsOthers other isOther
        · change (Table.insert _ node _).get? node = _
          rw [Table.get?_insert, if_pos rfl]
          rfl

theorem run_demand (continues : base.Continues state) :
    (Resolver.demand node).run state = (demandWithin base.deferred.size [] node).run state := by
  rw [← continues.deferred]
  rfl

theorem ample_nil (base : ResolutionState) : base.Ample base.deferred.size [] :=
  ⟨List.nodup_nil, nofun, by simp⟩

theorem dutiful_demand (postpones : base.Postpones) : Demand.Dutiful base Resolver.demand := by
  have dutiful := dutiful_demandWithin postpones (ample_nil base)
  constructor
  · intro state continues node
    rw [run_demand continues]
    exact dutiful.settles state continues node
  · intro state continues node
    rw [run_demand continues]
    exact dutiful.remembers state continues node
  · intro state continues node
    rw [run_demand continues]
    exact dutiful.refuses state continues node

theorem delivers_demand (postpones : base.Postpones) : base.Delivers [] Resolver.demand := by
  intro state node continues
  rw [run_demand continues]
  exact delivers_demandWithin postpones (ample_nil base) state node continues

end Demands

/-! ### Following known types -/

theorem Sound.of_append {isOpen : NodeRef → Bool}
    {body? : NodeRef → Option (Script isOpen NominalType)}
    {known : List (NodeRef × NominalType)} {first second : List Settlement}
    (sound : Sound body? known (first ++ second)) :
    Sound body? (known ++ first.map Settlement.entry) second := by
  induction first generalizing known with
  | nil => simpa using sound
  | cons settlement rest ih =>
      cases sound with
      | cons isBody outcome new later =>
          have := ih later
          simpa using this

/-- A remark that is not about a declaration that depends on itself. -/
def Remark.Plain (remark : Remark) : Prop :=
  ∀ found name, remark = .problem found → found.problem ≠ .recursiveType name

namespace ResolutionState

/-- The state agrees with what is known to come out, and nothing depends on itself. -/
structure Tame (base : ResolutionState) (all : List (NodeRef × NominalType))
    (active : List NodeRef) (state : ResolutionState) : Prop where
  continues : base.Continues state
  awaits : state.Awaits active
  within : ∀ node type, state.inferred.get? node = some type → Table.lookupIn node all = some type
  notRecursive : ¬ state.IsRecursive

/-- Demands for types that are known to come out are answered by these. -/
def Complies (base : ResolutionState) (all known : List (NodeRef × NominalType))
    (active : List NodeRef) (demand : Demand) : Prop :=
  ∀ state node type, base.Tame all active state → state.inferred.get? node = none →
    Table.lookupIn node known = some type →
      ((demand node).run state).1 = type ∧ base.Tame all active ((demand node).run state).2

variable {all known : List (NodeRef × NominalType)}

theorem Tame.remark {remark : Remark} (tame : base.Tame all active state)
    (plain : remark.Plain) : base.Tame all active (state.remark remark) where
  continues := tame.continues.settles (state.settles_remark remark)
  awaits node isActive := by
    rw [inferred_remark]
    exact tame.awaits node isActive
  within node type found := by
    rw [inferred_remark] at found
    exact tame.within node type found
  notRecursive := by
    rintro ⟨found, isReported, name, recursive⟩
    cases remark with
    | problem reported =>
        rcases List.mem_append.mp isReported with before | isNew
        · exact tame.notRecursive ⟨found, before, name, recursive⟩
        · rw [List.mem_singleton.mp isNew] at recursive
          exact plain reported name rfl recursive
    | arity count =>
        rw [ResolutionState.remark] at isReported
        split at isReported <;> exact tame.notRecursive ⟨found, isReported, name, recursive⟩
    | _ => exact tame.notRecursive ⟨found, isReported, name, recursive⟩

/-- Remembering a type that is known to come out keeps to what is known. -/
theorem Tame.remember {node : NodeRef} {type : NominalType}
    (tame : base.Tame all (node :: active) state) (isDeferred : (base.deferred.get? node).isSome)
    (comesOut : Table.lookupIn node all = some type) (notActive : node ∉ active) :
    base.Tame all active ((Resolver.remember node type).run state).2 where
  continues := by
    apply tame.continues.settles (settles_remember state type _)
    rw [tame.continues.deferred]
    exact isDeferred
  awaits other isActive := by
    have different : node ≠ other := by
      rintro rfl
      exact notActive isActive
    change (state.inferred.insert node type).get? other = none
    rw [Table.get?_insert, if_neg different]
    exact tame.awaits other (List.mem_cons_of_mem _ isActive)
  within other found isFound := by
    change (state.inferred.insert node type).get? other = some found at isFound
    rw [Table.get?_insert] at isFound
    split at isFound
    · next same =>
        cases isFound
        exact same ▸ comesOut
    · exact tame.within other found isFound
  notRecursive := tame.notRecursive

end ResolutionState

/-- A script whose outcome is known comes to this outcome. -/
theorem complies_play {all known : List (NodeRef × NominalType)}
    (complies : base.Complies all known active demand)
    (included : ∀ node type, Table.lookupIn node known = some type →
      Table.lookupIn node all = some type)
    (isOwn : own ∈ active ∨ base.deferred.get? own = none)
    {script : Script base.isOpenType α} {value : α} {remarks : List Remark}
    (outcome : script.outcome ⟨known⟩ = some (value, remarks))
    (plain : ∀ remark ∈ remarks, remark.Plain) (tame : base.Tame all active state) :
    ((script.play own demand).run state).1 = value ∧
      base.Tame all active ((script.play own demand).run state).2 := by
  induction script generalizing state remarks with
  | done result =>
      cases outcome
      exact ⟨rfl, tame⟩
  | write remark rest ih =>
      have unknown := tame.awaits.unknown tame.continues isOwn
      obtain ⟨found, isFound, isOutcome⟩ := Option.map_eq_some_iff.mp outcome
      cases isOutcome
      rw [Script.run_play_write demand remark rest unknown]
      obtain ⟨plainFirst, plainRest⟩ := List.forall_mem_cons.mp plain
      exact ih isFound plainRest (tame.remark plainFirst)
  | ask node asked rest ih =>
      obtain ⟨type, isKnown, later⟩ := Option.bind_eq_some_iff.mp outcome
      obtain ⟨isType, tameLater⟩ :
          ((Resolver.settle demand none (some node)).run state).1 = type ∧
            base.Tame all active ((Resolver.settle demand none (some node)).run state).2 := by
        cases inferred : state.inferred.get? node with
        | some before =>
            rw [Resolver.run_settle_of_some inferred]
            have same := (tame.within node before inferred).symm.trans
              (included node type isKnown)
            exact ⟨Option.some.inj same, tame⟩
        | none =>
            rw [Resolver.run_settle_of_none inferred]
            exact complies state node type tame inferred isKnown
      rw [Script.run_play_ask, isType]
      exact ih type later plain tameLater

section Demands

open Resolver

variable {settlements : List Settlement}

theorem exists_settlement {node : NodeRef} {type : NominalType}
    (known : Table.lookupIn node (settlements.map Settlement.entry) = some type) :
    ∃ first settlement rest, settlements = first ++ settlement :: rest ∧
      settlement.node = node ∧ settlement.type = type := by
  obtain ⟨settlement, isSettlement, isEntry⟩ := List.mem_map.mp (Table.mem_of_lookupIn known)
  obtain ⟨first, rest, split⟩ := List.append_of_mem isSettlement
  cases isEntry
  exact ⟨first, settlement, rest, split, rfl, rfl⟩

/-- A settlement comes from a body that was put off, and from those before it. -/
theorem Sound.exists_deferred (sound : Sound base.body? [] settlements)
    {first rest : List Settlement} {settlement : Settlement}
    (split : settlements = first ++ settlement :: rest) :
    ∃ deferred, base.deferred.get? settlement.node = some deferred ∧
      ((base.around deferred.scope settlement.node).infer deferred.body).outcome
          ⟨first.map Settlement.entry⟩ = some (settlement.type, settlement.remarks) ∧
        settlement.node ∉ first.map Settlement.node := by
  have soundRest := (split ▸ sound).of_append
  cases soundRest with
  | cons isBody outcome new _ =>
      obtain ⟨deferred, found, isScript⟩ := Option.map_eq_some_iff.mp isBody
      subst isScript
      rw [List.nil_append] at outcome new
      rw [List.map_map] at new
      exact ⟨deferred, found, outcome, new⟩

/-- A type that is known comes from a settlement, and that from the ones before it. -/
theorem Sound.exists_settled (sound : Sound base.body? [] settlements)
    {earlier later : List Settlement} (split : settlements = earlier ++ later)
    {node : NodeRef} {type : NominalType}
    (known : Table.lookupIn node (earlier.map Settlement.entry) = some type) :
    ∃ first settlement rest deferred, earlier = first ++ settlement :: rest ∧
      settlement.node = node ∧ settlement.type = type ∧
        base.deferred.get? settlement.node = some deferred ∧
          ((base.around deferred.scope settlement.node).infer deferred.body).outcome
              ⟨first.map Settlement.entry⟩ = some (settlement.type, settlement.remarks) ∧
            settlement.node ∉ first.map Settlement.node := by
  obtain ⟨first, settlement, rest, isEarlier, isNode, isType⟩ := exists_settlement known
  have whole : settlements = first ++ settlement :: (rest ++ later) := by
    simp [split, isEarlier]
  obtain ⟨deferred, found, outcome, new⟩ := sound.exists_deferred whole
  exact ⟨first, settlement, rest, deferred, isEarlier, isNode, isType, found, outcome, new⟩

theorem complies_demandWithin (postpones : base.Postpones)
    (sound : Sound base.body? [] settlements)
    (plain : ∀ settlement ∈ settlements, ∀ remark ∈ settlement.remarks, remark.Plain)
    {depth : Nat} {active : List NodeRef} (ample : base.Ample depth active)
    {earlier later : List Settlement} (split : settlements = earlier ++ later)
    (apart : ∀ settlement ∈ earlier, settlement.node ∉ active) :
    base.Complies (settlements.map Settlement.entry) (earlier.map Settlement.entry) active
      (demandWithin depth active) := by
  -- A settlement rests on the ones before it only, so deeper demands are for an earlier part
  -- of the list and never for an active declaration.
  induction depth generalizing active earlier later with
  | zero =>
      intro state node type tame unknown known
      obtain ⟨first, settlement, rest, deferred, isEarlier, rfl, rfl, found, -⟩ :=
        sound.exists_settled split known
      have isSettlement : settlement ∈ earlier := by simp [isEarlier]
      exact absurd (ample.mem_of_zero (by rw [found]; rfl)) (apart settlement isSettlement)
  | succ depth ih =>
      intro state node type tame unknown known
      obtain ⟨first, settlement, rest, deferred, isEarlier, rfl, rfl, found, outcome, new⟩ :=
        sound.exists_settled split known
      have isSettlement : settlement ∈ earlier := by simp [isEarlier]
      have whole : settlements = first ++ settlement :: (rest ++ later) := by
        simp [split, isEarlier]
      have notActive := apart settlement isSettlement
      have deeper := ample.cons (by rw [found]; rfl) notActive
      have dutiful := dutiful_demandWithin postpones deeper
      have apartDeeper : ∀ other ∈ first, other.node ∉ settlement.node :: active := by
        intro other isOther isActive
        rcases List.mem_cons.mp isActive with same | isActive
        · exact new (List.mem_map.mpr ⟨other, isOther, same⟩)
        · exact apart other (by simp [isEarlier, isOther]) isActive
      have awaits : state.Awaits (settlement.node :: active) :=
        List.forall_mem_cons.mpr ⟨unknown, tame.awaits⟩
      have included : ∀ other type,
          Table.lookupIn other (first.map Settlement.entry) = some type →
            Table.lookupIn other (settlements.map Settlement.entry) = some type := by
        intro other type isFound
        rw [whole, List.map_append, Table.lookupIn_append, isFound]
        rfl
      obtain ⟨isType, tameLater⟩ := complies_play (ih deeper whole apartDeeper) included
        (.inl List.mem_cons_self) outcome (plain settlement (by simp [whole]))
        { tame with awaits }
      have comesOut : Table.lookupIn settlement.node (settlements.map Settlement.entry) =
          some settlement.type := by
        rw [split, List.map_append, Table.lookupIn_append, known]
        rfl
      rw [run_demandWithin_succ postpones dutiful tame.continues found notActive]
      exact ⟨isType, tameLater.remember (by rw [found]; rfl)
        (comesOut.trans (congrArg some isType.symm)) notActive⟩

theorem complies_demand (postpones : base.Postpones)
    (sound : Sound base.body? [] settlements)
    (plain : ∀ settlement ∈ settlements, ∀ remark ∈ settlement.remarks, remark.Plain) :
    base.Complies (settlements.map Settlement.entry) (settlements.map Settlement.entry) []
      Resolver.demand := by
  intro state node type tame
  rw [run_demand tame.continues]
  exact complies_demandWithin postpones sound plain (ample_nil base) (List.append_nil _).symm
    nofun state node type tame

end Demands

end Gloss
