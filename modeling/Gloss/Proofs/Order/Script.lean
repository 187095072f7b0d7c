import Gloss.Proofs.Order.Remarks
import Gloss.Resolution.Inference
import Mathlib.Algebra.BigOperators.Group.Multiset.Defs
import Mathlib.Algebra.Group.Pi.Basic
import Mathlib.Algebra.Order.Group.Multiset

/-!
# Scripts

A script is an inference with nothing left but what it writes down and the open
types it asks for.  Where all of these are known, its outcome is a value and
some remarks; played by a resolver it asks for them to be inferred.  A remark may
show the open type of the declaration that the script itself infers.

Whatever the types are that a script is told, it comes to some value and writes down
some remarks: these are its runs.
-/

namespace Gloss

/-- What an inference does, step by step.  It asks for types that are open and for
no others. -/
inductive Script (isOpen : NodeRef → Bool) (α : Type) where
  | done (value : α)
  | write (remark : Option NominalType → Remark) (next : Script isOpen α)
  | ask (node : NodeRef) (asked : isOpen node = true) (next : NominalType → Script isOpen α)

namespace Script

variable {isOpen isOpenLater : NodeRef → Bool} {α β γ δ : Type}

def bind : Script isOpen α → (α → Script isOpen β) → Script isOpen β
  | done value, next => next value
  | write remark rest, next => write remark (rest.bind next)
  | ask node asked rest, next => ask node asked fun type => (rest type).bind next

instance : Monad (Script isOpen) where
  pure := done
  bind := bind

theorem bind_done (script : Script isOpen α) : script.bind done = script := by
  induction script with
  | done value => rfl
  | write remark rest ih => rw [bind, ih]
  | ask node asked rest ih => simp only [bind, ih]

theorem bind_bind (script : Script isOpen α) (next : α → Script isOpen β)
    (last : β → Script isOpen γ) :
    (script.bind next).bind last = script.bind fun value => (next value).bind last := by
  induction script with
  | done value => rfl
  | write remark rest ih => simp only [bind, ih]
  | ask node asked rest ih => simp only [bind, ih]

instance : LawfulMonad (Script isOpen) :=
  .mk' (Script isOpen) bind_done (fun _ _ => rfl) bind_bind

/-- A single remark. -/
def tell (remark : Remark) : Script isOpen Unit := write (fun _ => remark) (done ())

/-- What a script comes to where some types are known, if it asks for no others.
The open type that the script itself infers is not known to it. -/
def outcome (known : InferredTypes) : Script isOpen α → Option (α × List Remark)
  | done value => some (value, [])
  | write remark rest => (rest.outcome known).map fun found => (found.1, remark none :: found.2)
  | ask node _ rest => (known.get? node).bind fun type => (rest type).outcome known

/-- Plays a script for the declaration at a node. -/
def play (own : NodeRef) (demand : Demand) : Script isOpen α → Resolver α
  | done value => pure value
  | write remark rest => do
      modify fun state => state.remark (remark (state.inferred.get? own))
      rest.play own demand
  | ask node _ rest => do
      let type ← Resolver.settle demand none (some node)
      (rest type).play own demand

variable {known more : InferredTypes} {script : Script isOpen α} {next : α → Script isOpen β}

@[simp] theorem outcome_pure (known : InferredTypes) (value : α) :
    (pure value : Script isOpen α).outcome known = some (value, []) := rfl

theorem outcome_bind (known : InferredTypes) (script : Script isOpen α) (next : α → Script isOpen β) :
    (script >>= next).outcome known =
      (script.outcome known).bind fun found =>
        ((next found.1).outcome known).map fun later => (later.1, found.2 ++ later.2) := by
  change (script.bind next).outcome known = _
  induction script with
  | done value => simp [bind, outcome]
  | write remark rest ih =>
      simp only [bind, outcome, ih]
      cases rest.outcome known with
      | none => rfl
      | some found => simp [Option.map_map, Function.comp_def]
  | ask node asked rest ih =>
      simp only [bind, outcome]
      cases known.get? node with
      | none => rfl
      | some type => exact ih type

theorem play_bind (own : NodeRef) (demand : Demand) (script : Script isOpen α)
    (next : α → Script isOpen β) :
    (script >>= next).play own demand =
      script.play own demand >>= fun value => (next value).play own demand := by
  change (script.bind next).play own demand = _
  induction script with
  | done value => rfl
  | write remark rest ih => simp only [bind, play, ih, bind_assoc]
  | ask node asked rest ih => simp only [bind, play, ih, bind_assoc]

/-- The outcome does not change when more is known. -/
theorem outcome_mono (include_ : ∀ node type, known.get? node = some type →
      more.get? node = some type) {found : α × List Remark}
    (outcome : script.outcome known = some found) : script.outcome more = some found := by
  induction script generalizing found with
  | done value => exact outcome
  | write remark rest ih =>
      obtain ⟨later, isLater, rfl⟩ := Option.map_eq_some_iff.mp outcome
      rw [Script.outcome, ih isLater]
      rfl
  | ask node asked rest ih =>
      obtain ⟨type, isKnown, isLater⟩ := Option.bind_eq_some_iff.mp outcome
      rw [Script.outcome, include_ node type isKnown]
      exact ih type isLater

/-! ### Runs -/

/-- What a script may write down and come to, with any answers to what it asks for. -/
inductive Runs : Script isOpen α → List Remark → α → Prop
  | done (value : α) : Runs (done value) [] value
  | write {remark : Option NominalType → Remark} {rest : Script isOpen α} {remarks : List Remark}
      {value : α} (shown : Option NominalType) (runs : Runs rest remarks value) :
      Runs (write remark rest) (remark shown :: remarks) value
  | ask {node : NodeRef} {asked : isOpen node = true} {next : NominalType → Script isOpen α}
      {remarks : List Remark} {value : α} (type : NominalType) (runs : Runs (next type) remarks value) :
      Runs (ask node asked next) remarks value

theorem runs_pure_iff {value other : α} {remarks : List Remark} :
    Runs (pure value : Script isOpen α) remarks other ↔ remarks = [] ∧ other = value := by
  constructor
  · intro runs
    cases runs
    exact ⟨rfl, rfl⟩
  · rintro ⟨rfl, rfl⟩
    exact .done _

theorem Runs.bind {remarks later : List Remark} {first : α} {value : β}
    (runs : script.Runs remarks first) (runsLater : (next first).Runs later value) :
    (script >>= next).Runs (remarks ++ later) value := by
  change (script.bind next).Runs _ _
  induction runs with
  | done first => exact runsLater
  | write shown _ ih => exact .write shown (ih runsLater)
  | ask type _ ih => exact .ask type (ih runsLater)

theorem runs_bind_iff {remarks : List Remark} {value : β} :
    (script >>= next).Runs remarks value ↔
      ∃ first earlier later, script.Runs earlier first ∧ (next first).Runs later value ∧
        remarks = earlier ++ later := by
  constructor
  · change (script.bind next).Runs _ _ → _
    intro runs
    induction script generalizing remarks with
    | done first => exact ⟨first, [], remarks, .done first, runs, rfl⟩
    | write remark rest ih =>
        cases runs with
        | write shown runs =>
            obtain ⟨first, earlier, later, runsRest, runsLater, rfl⟩ := ih runs
            exact ⟨first, _, later, .write shown runsRest, runsLater, rfl⟩
    | ask node asked rest ih =>
        cases runs with
        | ask type runs =>
            obtain ⟨first, earlier, later, runsRest, runsLater, rfl⟩ := ih type runs
            exact ⟨first, earlier, later, .ask type runsRest, runsLater, rfl⟩
  · rintro ⟨first, earlier, later, runs, runsLater, rfl⟩
    exact runs.bind runsLater

theorem runs_tell_iff {remark : Remark} {remarks : List Remark} :
    Runs (tell remark : Script isOpen Unit) remarks () ↔ remarks = [remark] := by
  constructor
  · intro runs
    cases runs with
    | write shown runs =>
        cases runs
        rfl
  · rintro rfl
    exact .write none (.done ())

/-- An outcome is that of a run. -/
theorem Runs.of_outcome {found : α × List Remark} (outcome : script.outcome known = some found) :
    script.Runs found.2 found.1 := by
  induction script generalizing found with
  | done value =>
      cases outcome
      exact .done value
  | write remark rest ih =>
      obtain ⟨later, isLater, rfl⟩ := Option.map_eq_some_iff.mp outcome
      exact .write none (ih isLater)
  | ask node asked rest ih =>
      obtain ⟨type, -, isLater⟩ := Option.bind_eq_some_iff.mp outcome
      exact .ask type (ih type isLater)

/-! ### Scripts that are alike -/

/-- Two scripts with the same outcome whatever is known, as far as the values
are accepted and remarks are alike; for each slot it is known for which nodes
they fill it. -/
def Alike (nodes : Slot → Multiset NodeRef) (accept : α → β → Prop) (script : Script isOpen α)
    (other : Script isOpenLater β) : Prop :=
  ∀ known, Option.Rel
    (fun first second => accept first.1 second.1 ∧ List.Forall₂ Remark.Alike first.2 second.2 ∧
      ∀ slot, (Remark.nodes slot first.2 : Multiset NodeRef) = nodes slot)
    (script.outcome known) (other.outcome known)

namespace Alike

variable {other : Script isOpenLater γ} {otherNext : γ → Script isOpenLater δ}
  {nodes later : Slot → Multiset NodeRef}
  {accept : α → γ → Prop} {acceptLast : β → δ → Prop}

theorem cast (alike : Alike nodes accept script other) (same : nodes = later) :
    Alike later accept script other :=
  same ▸ alike

theorem of_pure {value : α} {another : γ} (accepted : accept value another) :
    Alike 0 accept (pure value : Script isOpen α) (pure another : Script isOpenLater γ) :=
  fun _ => .some ⟨accepted, .nil, fun _ => rfl⟩

theorem bind (alike : Alike nodes accept script other)
    (goesOn : ∀ value another, accept value another →
      Alike later acceptLast (next value) (otherNext another)) :
    Alike (nodes + later) acceptLast (script >>= next) (other >>= otherNext) := by
  intro known
  rw [outcome_bind, outcome_bind]
  have related := alike known
  revert related
  generalize script.outcome known = first
  generalize other.outcome known = second
  intro related
  cases related with
  | none => exact .none
  | some related =>
      obtain ⟨accepted, remarks, filled⟩ := related
      have relatedLater := goesOn _ _ accepted known
      simp only [Option.bind_some]
      revert relatedLater
      generalize (next _).outcome known = first
      generalize (otherNext _).outcome known = second
      intro relatedLater
      cases relatedLater with
      | none => exact .none
      | some relatedLater =>
          obtain ⟨acceptedLast, laterRemarks, laterFilled⟩ := relatedLater
          refine .some ⟨acceptedLast, List.rel_append remarks laterRemarks, fun slot => ?_⟩
          rw [Remark.nodes_append, ← Multiset.coe_add, filled, laterFilled]
          rfl

/-- A script and then another that writes nothing about a node. -/
theorem andThen (alike : Alike nodes accept script other)
    (goesOn : ∀ value another, accept value another →
      Alike 0 acceptLast (next value) (otherNext another)) :
    Alike nodes acceptLast (script >>= next) (other >>= otherNext) :=
  (alike.bind goesOn).cast (add_zero nodes)

/-- A script that writes nothing about a node and then another. -/
theorem after (alike : Alike 0 accept script other)
    (goesOn : ∀ value another, accept value another →
      Alike nodes acceptLast (next value) (otherNext another)) :
    Alike nodes acceptLast (script >>= next) (other >>= otherNext) :=
  (alike.bind goesOn).cast (zero_add nodes)

theorem of_tell {remark another : Remark} (alike : remark.Alike another) :
    Alike (fun slot => (Remark.nodes slot [remark] : Multiset NodeRef)) (fun _ _ => True)
      (tell remark : Script isOpen Unit) (tell another : Script isOpenLater Unit) :=
  fun _ => .some ⟨trivial, .cons alike .nil, fun _ => rfl⟩

theorem of_write {remark another : Option NominalType → Remark}
    (alike : (remark none).Alike (another none)) :
    Alike (fun slot => (Remark.nodes slot [remark none] : Multiset NodeRef)) (fun _ _ => True)
      (write remark (done ()) : Script isOpen Unit)
      (write another (done ()) : Script isOpenLater Unit) :=
  fun _ => .some ⟨trivial, .cons alike .nil, fun _ => rfl⟩

theorem of_ask {node : NodeRef} (asked : isOpen node = true) (askedLater : isOpenLater node = true) :
    Alike 0 Eq (ask node asked done) (ask node askedLater done) := by
  intro known
  simp only [outcome]
  cases known.get? node with
  | none => exact .none
  | some type => exact .some ⟨rfl, .nil, fun _ => rfl⟩

end Alike

end Script

end Gloss
