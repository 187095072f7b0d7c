import Gloss.Proofs.Order.Inferences
import Gloss.Proofs.Resolution.Calls

/-!
# Inferences play scripts

An inference does what its script does, whatever answers its demands, as long as
the answers are remembered and nothing is declared meanwhile.  What a message or a
target shows of an open type is what the script has asked for.
-/

namespace Gloss

namespace ResolutionState

/-- What an inference for a declaration sees from a scope. -/
def around (state : ResolutionState) (scope : Nat) (own : NodeRef) : Surroundings where
  levels := (state.scopes.levels scope).map Scope.symbols
  class? := state.class?
  isOpen node := (state.deferred.get? node).isSome
  own

/-- Between two states open types may have been settled, and nothing was
declared. -/
structure Settles (before after : ResolutionState) : Prop where
  scopes : after.scopes = before.scopes
  classes : after.classes = before.classes
  functionScopes : after.functionScopes = before.functionScopes
  initializerScopes : after.initializerScopes = before.initializerScopes
  deferred : after.deferred = before.deferred
  keeps : ∀ node, (before.inferred.get? node).isSome → (after.inferred.get? node).isSome
  inferred : ∀ node, (after.inferred.get? node).isSome →
    (before.inferred.get? node).isSome ∨ (before.deferred.get? node).isSome
  reports : before.diagnostics ⊆ after.diagnostics

variable {before middle after : ResolutionState}

theorem Settles.refl (state : ResolutionState) : state.Settles state :=
  ⟨rfl, rfl, rfl, rfl, rfl, fun _ known => known, fun _ known => .inl known,
    List.Subset.refl _⟩

theorem Settles.trans (settles : before.Settles middle) (later : middle.Settles after) :
    before.Settles after where
  scopes := later.scopes.trans settles.scopes
  classes := later.classes.trans settles.classes
  functionScopes := later.functionScopes.trans settles.functionScopes
  initializerScopes := later.initializerScopes.trans settles.initializerScopes
  deferred := later.deferred.trans settles.deferred
  keeps node known := later.keeps node (settles.keeps node known)
  inferred node known := by
    rcases later.inferred node known with earlier | isDeferred
    · exact settles.inferred node earlier
    · exact .inr (settles.deferred ▸ isDeferred)
  reports := List.Subset.trans settles.reports later.reports

theorem settles_remark (state : ResolutionState) (remark : Remark) :
    state.Settles (state.remark remark) := by
  cases remark with
  | arity count =>
      rw [ResolutionState.remark]
      split
      · exact .refl state
      · exact { Settles.refl state with }
  | problem found =>
      exact { Settles.refl state with reports := List.subset_append_left _ _ }
  | _ => exact { Settles.refl state with }

/-- The state comes after the base, in which everything outside of blocks is
declared. -/
structure Continues (base state : ResolutionState) : Prop where
  size : base.scopes.size ≤ state.scopes.size
  levels : ∀ number < base.scopes.size,
    (state.scopes.levels number).map Scope.symbols =
      (base.scopes.levels number).map Scope.symbols
  classes : state.classes = base.classes
  functionScopes : state.functionScopes = base.functionScopes
  initializerScopes : state.initializerScopes = base.initializerScopes
  deferred : state.deferred = base.deferred
  inferred : ∀ node, (state.inferred.get? node).isSome → (base.deferred.get? node).isSome

theorem Continues.settles {base : ResolutionState} (continues : base.Continues before)
    (settles : before.Settles after) : base.Continues after where
  size := settles.scopes ▸ continues.size
  levels := settles.scopes ▸ continues.levels
  classes := settles.classes.trans continues.classes
  functionScopes := settles.functionScopes.trans continues.functionScopes
  initializerScopes := settles.initializerScopes.trans continues.initializerScopes
  deferred := settles.deferred.trans continues.deferred
  inferred node known := by
    rcases settles.inferred node known with earlier | isDeferred
    · exact continues.inferred node earlier
    · exact continues.deferred ▸ isDeferred

/-- The state is one in which the surroundings are seen from the scope. -/
structure Fits (base : ResolutionState) (scope : Nat) (around : Surroundings)
    (state : ResolutionState) : Prop where
  continues : base.Continues state
  around_eq : state.around scope around.own = around

variable {base : ResolutionState} {scope : Nat} {around : Surroundings}

theorem Fits.isOpen_eq (fits : Fits base scope around before) (node : NodeRef) :
    around.isOpen node = (base.deferred.get? node).isSome := by
  rw [← fits.around_eq, ← fits.continues.deferred]
  rfl

theorem around_eq_of_settles (settles : before.Settles after) (scope : Nat) (own : NodeRef) :
    after.around scope own = before.around scope own := by
  simp only [ResolutionState.around, settles.scopes, settles.deferred, Surroundings.mk.injEq,
    true_and, and_true]
  funext constructor
  simp only [class?, settles.classes]

theorem Fits.settles (fits : Fits base scope around before) (settles : before.Settles after) :
    Fits base scope around after :=
  ⟨fits.continues.settles settles, (around_eq_of_settles settles _ _).trans fits.around_eq⟩

end ResolutionState

/-- Demands are answered by settling open types; an answer is remembered. -/
structure Demand.Dutiful (base : ResolutionState) (demand : Demand) : Prop where
  settles : ∀ state : ResolutionState, base.Continues state →
    ∀ node, state.Settles ((demand node).run state).2
  remembers : ∀ state : ResolutionState, base.Continues state → ∀ node,
    (base.deferred.get? node).isSome → (((demand node).run state).2.inferred.get? node).isSome
  refuses : ∀ state : ResolutionState, base.Continues state →
    ∀ node, base.deferred.get? node = none → (demand node).run state = (.error, state)

open ResolutionState

variable {base : ResolutionState} {scope : Nat} {around : Surroundings}
  {demand : Demand} {state : ResolutionState} {α β : Type}

namespace Demand.Dutiful

theorem settles_settle (dutiful : Dutiful base demand) (continues : base.Continues state)
    (known : Option NominalType) (declaration : Option NodeRef) :
    state.Settles ((Resolver.settle demand known declaration).run state).2 := by
  cases known with
  | some type => exact .refl state
  | none =>
      cases declaration with
      | none => exact .refl state
      | some node =>
          cases inferred : state.inferred.get? node with
          | some type =>
              rw [Resolver.run_settle_of_some inferred]
              exact .refl state
          | none =>
              rw [Resolver.run_settle_of_none inferred]
              exact dutiful.settles state continues node

/-- A script settles what it asks for. -/
theorem settles_play (dutiful : Dutiful base demand) (own : NodeRef) {isOpen : NodeRef → Bool}
    (script : Script isOpen α)
    (continues : base.Continues state) : state.Settles ((script.play own demand).run state).2 := by
  induction script generalizing state with
  | done value => exact .refl state
  | write remark rest ih =>
      have settles := state.settles_remark (remark (state.inferred.get? own))
      exact settles.trans (ih (continues.settles settles))
  | ask node asked rest ih =>
      have settles := dutiful.settles_settle continues none (some node)
      exact settles.trans (ih _ (continues.settles settles))

theorem inferred_settle (dutiful : Dutiful base demand) (continues : base.Continues state)
    {node : NodeRef} (isDeferred : (base.deferred.get? node).isSome) :
    (((Resolver.settle demand none (some node)).run state).2.inferred.get? node).isSome := by
  cases inferred : state.inferred.get? node with
  | some type =>
      rw [Resolver.run_settle_of_some inferred, inferred]
      rfl
  | none =>
      rw [Resolver.run_settle_of_none inferred]
      exact dutiful.remembers state continues node isDeferred

end Demand.Dutiful

/-- Where the surroundings are seen from the scope, the step does what the script
does. -/
def Performs (base : ResolutionState) (demand : Demand) (scope : Nat)
    (around : Surroundings) (step : Resolver α) (script : Script around.isOpen α) : Prop :=
  ∀ state, Fits base scope around state →
    step.run state = (script.play around.own demand).run state

theorem Script.run_play_bind (own : NodeRef) (demand : Demand) {isOpen : NodeRef → Bool}
    (script : Script isOpen α) (next : α → Script isOpen β) (state : ResolutionState) :
    ((script >>= next).play own demand).run state =
      ((next ((script.play own demand).run state).1).play own demand).run
        ((script.play own demand).run state).2 := by
  rw [play_bind]
  rfl

/-- What a script writes down before its own type is known. -/
theorem Script.run_play_write {own : NodeRef} (demand : Demand) {isOpen : NodeRef → Bool}
    (remark : Option NominalType → Remark) (rest : Script isOpen α) {state : ResolutionState}
    (unknown : state.inferred.get? own = none) :
    ((Script.write remark rest).play own demand).run state =
      (rest.play own demand).run (state.remark (remark none)) := by
  rw [← unknown]
  rfl

theorem Script.run_play_ask (own : NodeRef) (demand : Demand) {isOpen : NodeRef → Bool}
    {node : NodeRef} (asked : isOpen node = true) (rest : NominalType → Script isOpen α)
    (state : ResolutionState) :
    ((Script.ask node asked rest).play own demand).run state =
      ((rest ((Resolver.settle demand none (some node)).run state).1).play own demand).run
        ((Resolver.settle demand none (some node)).run state).2 :=
  rfl

namespace Performs

variable {step : Resolver α} {script : Script around.isOpen α} {next : α → Resolver β}
  {scriptNext : α → Script around.isOpen β}

theorem bind (dutiful : demand.Dutiful base)
    (performs : Performs base demand scope around step script)
    (goesOn : ∀ value, Performs base demand scope around (next value) (scriptNext value)) :
    Performs base demand scope around (step >>= next) (script >>= scriptNext) := by
  intro state fits
  rw [Script.run_play_bind, ← performs state fits]
  have settles := dutiful.settles_play around.own script fits.continues
  rw [← performs state fits] at settles
  exact goesOn _ _ (fits.settles settles)

theorem of_pure (value : α) : Performs base demand scope around (pure value) (pure value) :=
  fun _ _ => rfl

theorem of_get {goOn : ResolutionState → Resolver α}
    (goesOn : ∀ state, Fits base scope around state →
      (goOn state).run state = (script.play around.own demand).run state) :
    Performs base demand scope around (get >>= goOn) script :=
  fun state fits => goesOn state fits

end Performs

/-! ### Steps that look nothing up -/

section Plain

open Resolver

variable (dutiful : demand.Dutiful base)

theorem performs_report (problem : Problem) (node : NodeRef) :
    Performs base demand scope around (report problem node) (Script.report problem node) :=
  fun _ _ => rfl

theorem performs_record (reference : NodeRef) (target : Descriptor) :
    Performs base demand scope around (record reference target)
      (Script.record reference target) :=
  fun _ _ => rfl

theorem performs_noteArity (arity : Nat) :
    Performs base demand scope around (noteArity arity) (Script.tell (.arity arity)) :=
  fun _ _ => rfl

theorem performs_recordType (node : NodeRef) (type : NominalType) :
    Performs base demand scope around (recordType node type) (Script.tell (.typed node type)) :=
  fun _ _ => rfl

theorem performs_typed (node : NodeRef) (type : NominalType) :
    Performs base demand scope around (typed node type) (Script.typed node type) :=
  fun _ _ => rfl

theorem performs_recordError (reference : NodeRef) (name : String) :
    Performs base demand scope around (recordError reference name)
      (Script.recordError reference name) :=
  fun _ _ => rfl

theorem performs_expect (actual expected : NominalType) (node : NodeRef) :
    Performs base demand scope around (expect actual expected node)
      (Script.expect actual expected node) := by
  unfold expect Script.expect
  split
  · exact .of_pure ()
  · exact performs_report _ _

include dutiful

theorem performs_expectArguments :
    ∀ (arguments parameters : List NominalType) (expressions : List Tree.Expr),
      Performs base demand scope around (expectArguments arguments parameters expressions)
        (Script.expectArguments arguments parameters expressions)
  | argument :: arguments, parameter :: parameters, expression :: expressions => by
      rw [expectArguments, Script.expectArguments]
      apply Performs.bind dutiful (performs_expect _ _ _)
      intro _
      exact performs_expectArguments arguments parameters expressions
  | [], _, _ => .of_pure ()
  | _ :: _, [], _ => .of_pure ()
  | _ :: _, _ :: _, [] => .of_pure ()

theorem performs_resolveValueCall (call callee : NodeRef) (calleeType : NominalType)
    (argumentTypes : List NominalType) (arguments : List Tree.Expr) :
    Performs base demand scope around
      (resolveValueCall call callee calleeType argumentTypes arguments)
      (Script.resolveValueCall call callee calleeType argumentTypes arguments) := by
  unfold resolveValueCall Script.resolveValueCall
  split
  · exact .of_pure _
  · cases Library.functionParts? calleeType with
    | none => exact .bind dutiful (performs_report _ _) fun _ => .of_pure _
    | some parts =>
        obtain ⟨parameters, result⟩ := parts
        have goesOn : Performs base demand scope around
            (do expectArguments argumentTypes parameters arguments; return result)
            (do Script.expectArguments argumentTypes parameters arguments; return result) :=
          .bind dutiful (performs_expectArguments dutiful _ _ _) fun _ => .of_pure _
        dsimp only
        split
        · exact .bind dutiful (performs_report _ _) fun _ => goesOn
        · exact goesOn

end Plain

/-! ### Open types -/

section Types

open Resolver

variable (dutiful : demand.Dutiful base)

include dutiful

theorem performs_settle (known : Option NominalType) (declaration : Option NodeRef) :
    Performs base demand scope around (settle demand known declaration)
      (around.settle known declaration) := by
  cases known with
  | some type => exact .of_pure _
  | none =>
      cases declaration with
      | none => exact .of_pure _
      | some node =>
          intro state fits
          rw [Surroundings.settle]
          split
          · rfl
          · next notOpen =>
              have notDeferred : base.deferred.get? node = none := by
                simpa [fits.isOpen_eq] using notOpen
              have notInferred : state.inferred.get? node = none := by
                by_contra known
                have := fits.continues.inferred node (Option.isSome_iff_ne_none.mpr known)
                rw [notDeferred] at this
                cases this
              rw [run_settle_of_none notInferred,
                dutiful.refuses state fits.continues node notDeferred]
              rfl

theorem performs_variableType (holder : VariableDescriptor) :
    Performs base demand scope around (variableType demand holder)
      (around.variableType holder) := by
  cases holder with
  | parameter owner parameter => exact .of_pure _
  | property property => exact performs_settle dutiful _ _
  | «local» declared => exact .of_pure _

theorem performs_returnType (function : FunctionDescriptor) :
    Performs base demand scope around (returnType demand function)
      (around.returnType function) :=
  performs_settle dutiful _ _

theorem performs_functionValueType (function : FunctionDescriptor) :
    Performs base demand scope around (functionValueType demand function)
      (around.functionValueType function) := by
  apply Performs.bind dutiful (performs_returnType dutiful function)
  intro result
  exact .bind dutiful (performs_noteArity _) fun _ => .of_pure _

theorem performs_valueType (descriptor : Descriptor) :
    Performs base demand scope around (valueType demand descriptor)
      (around.valueType descriptor) := by
  cases descriptor with
  | «variable» holder => exact performs_variableType dutiful holder
  | invoke called type => exact performs_variableType dutiful called
  | function function => exact performs_functionValueType dutiful function
  | specialized function => exact .of_pure _
  | «class» descriptor => exact .of_pure _
  | typeParameter descriptor => exact .of_pure _
  | error name => exact .of_pure _

theorem performs_asCallable (descriptor : Descriptor) :
    Performs base demand scope around (asCallable demand descriptor)
      (around.asCallable descriptor) := by
  cases descriptor with
  | «variable» holder => exact .bind dutiful (performs_variableType dutiful holder) fun _ => .of_pure _
  | «class» descriptor => exact .of_pure _
  | function function => exact .of_pure _
  | specialized function => exact .of_pure _
  | typeParameter descriptor => exact .of_pure _
  | invoke called type => exact .of_pure _
  | error name => exact .of_pure _

theorem performs_callables (descriptors : List Descriptor) :
    Performs base demand scope around (callables demand descriptors)
      (around.callables descriptors) := by
  induction descriptors with
  | nil => exact .of_pure _
  | cons descriptor rest ih =>
      apply Performs.bind dutiful (performs_asCallable dutiful descriptor)
      intro callable
      exact .bind dutiful ih fun _ => .of_pure _

theorem performs_callablesAt (name : String) (levels : List (Scope Descriptor)) :
    Performs base demand scope around (callablesAt demand name levels)
      (around.callablesAt name (levels.map Scope.symbols)) := by
  induction levels with
  | nil => exact .of_pure _
  | cons level outer ih =>
      apply Performs.bind dutiful (performs_callables dutiful _)
      intro found
      cases found with
      | nil => exact ih
      | cons first rest => exact .of_pure _

theorem performs_signature (receiver : Substitution) (candidate : Descriptor) :
    Performs base demand scope around (signature demand receiver candidate)
      (around.signature receiver candidate) := by
  cases candidate with
  | «class» descriptor =>
      apply Performs.of_get
      intro state fits
      rw [← fits.around_eq]
      rfl
  | function descriptor =>
      exact .bind dutiful (performs_returnType dutiful descriptor) fun _ => .of_pure _
  | specialized function => exact .of_pure _
  | typeParameter descriptor => exact .of_pure _
  | «variable» holder => exact .of_pure _
  | invoke called type => exact .of_pure _
  | error name => exact .of_pure _

theorem performs_signatures (receiver : Substitution) (candidates : List Descriptor) :
    Performs base demand scope around (signatures demand receiver candidates)
      (around.signatures receiver candidates) := by
  induction candidates with
  | nil => exact .of_pure _
  | cons candidate rest ih =>
      apply Performs.bind dutiful (performs_signature dutiful receiver candidate)
      intro first
      exact .bind dutiful ih fun _ => .of_pure _

end Types

end Gloss
