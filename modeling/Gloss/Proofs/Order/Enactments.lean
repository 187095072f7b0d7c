import Gloss.Proofs.Order.Courses

/-!
# Enactments

An enactment of a script says all that happens along the way in the order in which it happens:
what is known decides the answers, and where a type is not known its body is enacted for the
asking, before the script goes on.  There is one enactment of a script at most, and the
resolver plays just that one.
-/

namespace Gloss

open Script

namespace ResolutionState

/-- A script is carried out while some declarations are active, the innermost first: what is known
before, what is written down, what it comes to, and what is known after. -/
inductive Enacts (base : ResolutionState) : {α : Type} → List NodeRef → Script base.isOpenType α →
    InferredTypes → List Remark → α → InferredTypes → Prop
  | done {α : Type} (active : List NodeRef) (value : α) (known : InferredTypes) :
      Enacts base active (.done value) known [] value known
  | write {α : Type} {active : List NodeRef} {remark : Option NominalType → Remark}
      {rest : Script base.isOpenType α} {known after : InferredTypes} {remarks : List Remark}
      {value : α} (later : Enacts base active rest known remarks value after) :
      Enacts base active (.write remark rest) known
        (remark (active.head?.bind known.get?) :: remarks) value after
  | known {α : Type} {active : List NodeRef} {node : NodeRef} {asked : base.isOpenType node = true}
      {next : NominalType → Script base.isOpenType α} {known after : InferredTypes}
      {remarks : List Remark} {value : α} {type : NominalType}
      (isKnown : known.get? node = some type)
      (later : Enacts base active (next type) known remarks value after) :
      Enacts base active (.ask node asked next) known remarks value after
  | recursive {α : Type} {active : List NodeRef} {node : NodeRef}
      {asked : base.isOpenType node = true} {next : NominalType → Script base.isOpenType α}
      {known after : InferredTypes} {remarks : List Remark} {value : α} {deferred : Deferred}
      (unknown : known.get? node = none) (isActive : node ∈ active)
      (found : base.deferred.get? node = some deferred)
      (later : Enacts base active (next .error) (known.insert node .error) remarks value after) :
      Enacts base active (.ask node asked next) known (recursion deferred.name node :: remarks)
        value after
  | inferred {α : Type} {active : List NodeRef} {node : NodeRef}
      {asked : base.isOpenType node = true} {next : NominalType → Script base.isOpenType α}
      {known middle after : InferredTypes} {own remarks : List Remark} {value : α}
      {type : NominalType} {script : Script base.isOpenType NominalType}
      (unknown : known.get? node = none) (isIdle : node ∉ active)
      (isBody : base.body? node = some script)
      (inner : Enacts base (node :: active) script known own type middle)
      (later : Enacts base active (next type) (middle.insert node type) remarks value after) :
      Enacts base active (.ask node asked next) known (own ++ remarks) value after

variable {base : ResolutionState} {α β : Type} {active : List NodeRef}
  {script : Script base.isOpenType α} {next : α → Script base.isOpenType β}
  {known middle after : InferredTypes} {remarks later : List Remark} {value : α} {last : β}

namespace Enacts

theorem bind (enacts : base.Enacts active script known remarks value middle)
    (goesOn : base.Enacts active (next value) middle later last after) :
    base.Enacts active (script >>= next) known (remarks ++ later) last after := by
  change base.Enacts active (script.bind next) _ _ _ _
  induction script generalizing known remarks with
  | done first =>
      cases enacts
      exact goesOn
  | write remark rest ih =>
      cases enacts with
      | write enacts => exact .write (ih enacts)
  | ask node asked rest ih =>
      cases enacts with
      | known isKnown enacts => exact .known isKnown (ih _ enacts)
      | recursive unknown isActive found enacts =>
          exact .recursive unknown isActive found (ih _ enacts)
      | inferred unknown isIdle isBody inner enacts =>
          rw [List.append_assoc]
          exact .inferred unknown isIdle isBody inner (ih _ enacts)

theorem exists_of_bind (enacts : base.Enacts active (script >>= next) known remarks last after) :
    ∃ value middle earlier later, base.Enacts active script known earlier value middle ∧
      base.Enacts active (next value) middle later last after ∧ remarks = earlier ++ later := by
  change base.Enacts active (script.bind next) _ _ _ _ at enacts
  induction script generalizing known remarks with
  | done first => exact ⟨first, known, [], remarks, .done active first known, enacts, rfl⟩
  | write remark rest ih =>
      cases enacts with
      | write enacts =>
          obtain ⟨value, middle, earlier, later, first, goesOn, rfl⟩ := ih enacts
          exact ⟨value, middle, _, later, .write first, goesOn, rfl⟩
  | ask node asked rest ih =>
      cases enacts with
      | known isKnown enacts =>
          obtain ⟨value, middle, earlier, later, first, goesOn, rfl⟩ := ih _ enacts
          exact ⟨value, middle, _, later, .known isKnown first, goesOn, rfl⟩
      | recursive unknown isActive found enacts =>
          obtain ⟨value, middle, earlier, later, first, goesOn, rfl⟩ := ih _ enacts
          exact ⟨value, middle, _, later, .recursive unknown isActive found first, goesOn, rfl⟩
      | inferred unknown isIdle isBody inner enacts =>
          obtain ⟨value, middle, earlier, later, first, goesOn, rfl⟩ := ih _ enacts
          exact ⟨value, middle, _, later, .inferred unknown isIdle isBody inner first, goesOn,
            (List.append_assoc _ _ _).symm⟩

/-- A script is carried out in one way only. -/
theorem unique (enacts : base.Enacts active script known remarks value after)
    {others : List Remark} {another : α} {afterOther : InferredTypes}
    (other : base.Enacts active script known others another afterOther) :
    remarks = others ∧ value = another ∧ after = afterOther := by
  induction enacts generalizing others afterOther with
  | done =>
      cases other
      exact ⟨rfl, rfl, rfl⟩
  | write _ ih =>
      cases other with
      | write later =>
          obtain ⟨rfl, same⟩ := ih later
          exact ⟨rfl, same⟩
  | known isKnown _ ih =>
      cases other with
      | known isKnown' later =>
          cases isKnown.symm.trans isKnown'
          exact ih later
      | recursive unknown => cases isKnown.symm.trans unknown
      | inferred unknown => cases isKnown.symm.trans unknown
  | recursive unknown isActive found _ ih =>
      cases other with
      | known isKnown => cases unknown.symm.trans isKnown
      | recursive _ _ found' later =>
          cases found.symm.trans found'
          obtain ⟨rfl, same⟩ := ih later
          exact ⟨rfl, same⟩
      | inferred _ isIdle => exact absurd isActive isIdle
  | inferred unknown isIdle isBody _ _ ihInner ih =>
      cases other with
      | known isKnown => cases unknown.symm.trans isKnown
      | recursive _ isActive => exact absurd isActive isIdle
      | inferred _ _ isBody' inner later =>
          cases isBody.symm.trans isBody'
          obtain ⟨rfl, rfl, rfl⟩ := ihInner inner
          obtain ⟨rfl, same⟩ := ih later
          exact ⟨rfl, same⟩

/-- What is known stays known. -/
theorem get?_of_known (enacts : base.Enacts active script known remarks value after)
    {node : NodeRef} {type : NominalType} (isKnown : known.get? node = some type) :
    after.get? node = some type := by
  have other {known : InferredTypes} {asked : NodeRef} (unknown : known.get? asked = none)
      (answer : NominalType) {middle : InferredTypes} (isKnown : known.get? node = some type)
      (stays : middle.get? node = some type) :
      (middle.insert asked answer).get? node = some type := by
    have different : asked ≠ node := by
      rintro rfl
      cases unknown.symm.trans isKnown
    rw [Table.get?_insert, if_neg different, stays]
  induction enacts with
  | done => exact isKnown
  | write _ ih | known _ _ ih => exact ih isKnown
  | recursive unknown _ _ _ ih => exact ih (other unknown _ isKnown isKnown)
  | inferred unknown _ _ _ _ ihInner ih => exact ih (other unknown _ isKnown (ihInner isKnown))

/-- An enactment goes along a trail, and its questions take their course. -/
theorem exists_course (enacts : base.Enacts active script known remarks value after) :
    ∃ replies own others, script.Trail replies own value ∧
      base.Course active replies known others after ∧ remarks.Perm (own ++ others) := by
  induction enacts with
  | done active value known => exact ⟨[], [], [], .done value, .nil active known, .nil⟩
  | write _ ih =>
      obtain ⟨replies, own, others, trail, course, perm⟩ := ih
      exact ⟨replies, _, others, .write _ trail, course, perm.cons _⟩
  | known isKnown _ ih =>
      obtain ⟨replies, own, others, trail, course, perm⟩ := ih
      exact ⟨_, own, others, .ask _ trail, .known isKnown course, perm⟩
  | @recursive _ _ _ _ _ _ _ _ _ deferred unknown isActive found _ ih =>
      obtain ⟨replies, own, others, trail, course, perm⟩ := ih
      refine ⟨_, own, _, .ask _ trail, .recursive deferred.name unknown isActive course, ?_⟩
      exact (perm.cons _).trans List.perm_middle.symm
  | inferred unknown isIdle isBody _ _ ihInner ih =>
      obtain ⟨asked, first, inner, trailInner, courseInner, permInner⟩ := ihInner
      obtain ⟨replies, own, others, trail, course, perm⟩ := ih
      refine ⟨_, own, _, .ask _ trail,
        .inferred unknown isIdle isBody trailInner courseInner course, ?_⟩
      refine (permInner.append perm).trans ?_
      exact List.perm_append_comm_assoc _ _ _

end Enacts

/-! ### From state to state -/

/-- From one state to another a script was carried out. -/
def Enacted (base : ResolutionState) (active : List NodeRef) (script : Script base.isOpenType α)
    (before : ResolutionState) (value : α) (after : ResolutionState) : Prop :=
  ∃ remarks, base.Enacts active script before.inferred remarks value after.inferred ∧
    after.journal = before.journal.remarkAll remarks

variable {state before between afterwards : ResolutionState}

theorem Enacted.of_journal (active : List NodeRef) (value : α)
    (inferred : afterwards.inferred = state.inferred)
    (journal : afterwards.journal = state.journal) :
    base.Enacted active (pure value) state value afterwards :=
  ⟨[], inferred ▸ .done active value _, journal⟩

theorem Enacted.of_remark (active : List NodeRef) (state : ResolutionState)
    (remark : Option NominalType → Remark) :
    base.Enacted active (.write remark (.done ())) state ()
      (state.remark (remark (active.head?.bind state.inferred.get?))) := by
  refine ⟨[remark (active.head?.bind state.inferred.get?)], ?_, state.journal_remark _⟩
  rw [inferred_remark]
  exact .write (.done active () _)

theorem Enacted.bind (enacted : base.Enacted active script before value between)
    (goesOn : base.Enacted active (next value) between last afterwards) :
    base.Enacted active (script >>= next) before last afterwards := by
  obtain ⟨remarks, enacts, journal⟩ := enacted
  obtain ⟨later, enactsLater, journalLater⟩ := goesOn
  refine ⟨remarks ++ later, enacts.bind enactsLater, ?_⟩
  rw [journalLater, journal, Journal.remarkAll_append]

/-- A script is carried out after another one whose value is not needed. -/
theorem Enacted.andThen {first : Script base.isOpenType Unit}
    (enacted : base.Enacted active first before () between)
    (goesOn : base.Enacted active script between value afterwards) :
    base.Enacted active (first >>= fun _ => script) before value afterwards :=
  enacted.bind goesOn

end ResolutionState

open ResolutionState

/-- A demand for a type that is not known carries out the question for it. -/
def Demand.Enacts (base : ResolutionState) (active : List NodeRef) (demand : Demand) : Prop :=
  ∀ state node, base.Continues state → state.inferred.get? node = none →
    ∀ asked : base.isOpenType node = true,
      base.Enacted active (.ask node asked .done) state ((demand node).run state).1
        ((demand node).run state).2

variable {base state : ResolutionState} {active : List NodeRef} {demand : Demand} {α : Type}
  {own node : NodeRef}

theorem Demand.Enacts.settle (enacts : demand.Enacts base active)
    (continues : base.Continues state) (asked : base.isOpenType node = true) :
    base.Enacted active (.ask node asked .done) state
      ((Resolver.settle demand none (some node)).run state).1
      ((Resolver.settle demand none (some node)).run state).2 := by
  cases inferred : state.inferred.get? node with
  | some type =>
      rw [Resolver.run_settle_of_some inferred]
      exact ⟨[], .known inferred (.done active type _), rfl⟩
  | none =>
      rw [Resolver.run_settle_of_none inferred]
      exact enacts state node continues inferred asked

/-- A script that is played is carried out.  What is shown of the own type is what is known of the
innermost active declaration. -/
theorem enacted_play (dutiful : demand.Dutiful base) (enacts : demand.Enacts base active)
    (shows : ∀ state : ResolutionState, base.Continues state →
      state.inferred.get? own = active.head?.bind state.inferred.get?)
    (script : Script base.isOpenType α) (continues : base.Continues state) :
    base.Enacted active script state ((script.play own demand).run state).1
      ((script.play own demand).run state).2 := by
  induction script generalizing state with
  | done value => exact .of_journal active value rfl rfl
  | write remark rest ih =>
      have settles := state.settles_remark (remark (state.inferred.get? own))
      have written : base.Enacted active (.write remark (.done ())) state ()
          (state.remark (remark (state.inferred.get? own))) := by
        rw [shows state continues]
        exact .of_remark active state remark
      exact written.andThen (ih (continues.settles settles))
  | ask node asked rest ih =>
      have settles := dutiful.settles_settle continues none (some node)
      exact (enacts.settle continues asked).bind (ih _ (continues.settles settles))

section Demands

open Resolver

variable {depth : Nat} {deferred : Deferred}

theorem enacted_of_mem (continues : base.Continues state) (depth : Nat)
    (unknown : state.inferred.get? node = none) (asked : base.isOpenType node = true)
    (found : base.deferred.get? node = some deferred) (isActive : node ∈ active) :
    base.Enacted active (.ask node asked .done) state ((demandWithin depth active node).run state).1
      ((demandWithin depth active node).run state).2 := by
  rw [run_demandWithin_of_mem depth (continues.deferred ▸ found) isActive]
  exact ⟨[recursion deferred.name node],
    .recursive unknown isActive found (.done active NominalType.error _), state.journal_remark _⟩

theorem enacts_demandWithin (postpones : base.Postpones) {depth : Nat} {active : List NodeRef}
    (ample : base.Ample depth active) : (demandWithin depth active).Enacts base active := by
  -- The depth runs out only when all open declarations are active.
  induction depth generalizing active with
  | zero =>
      intro state node continues unknown asked
      obtain ⟨deferred, found⟩ := Option.isSome_iff_exists.mp asked
      exact enacted_of_mem continues 0 unknown asked found (ample.mem_of_zero asked)
  | succ depth ih =>
      intro state node continues unknown asked
      obtain ⟨deferred, found⟩ := Option.isSome_iff_exists.mp asked
      by_cases isActive : node ∈ active
      · exact enacted_of_mem continues _ unknown asked found isActive
      · have deeper := ample.cons asked isActive
        have dutiful := dutiful_demandWithin postpones deeper
        have isBody : base.body? node =
            some ((base.around deferred.scope node).infer deferred.body) := by
          rw [body?, found]
          rfl
        obtain ⟨remarks, inner, journal⟩ := enacted_play dutiful (ih deeper) (fun _ _ => rfl)
          (show Script base.isOpenType NominalType from
            (base.around deferred.scope node).infer deferred.body) continues
        rw [run_demandWithin_succ postpones dutiful continues found isActive]
        refine ⟨remarks ++ [], .inferred unknown isActive isBody inner (.done active _ _), ?_⟩
        rw [List.append_nil]
        exact journal

theorem enacts_demand (postpones : base.Postpones) :
    Demand.Enacts base [] Resolver.demand := by
  intro state node continues
  rw [run_demand continues]
  exact enacts_demandWithin postpones (ample_nil base) state node continues

end Demands

end Gloss
