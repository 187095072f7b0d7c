import Gloss.Proofs.Audit.Mirrors
import Gloss.Proofs.Resolution.Inference

/-!
# The audit of what names mean

Where all meanings of names are sound, an audit finds what it needs to know about
them.  A name of a type has a type constructor, the types of declarations are
saturated and inquired for only where they were put off, and the candidates
that are looked up for a call can be called.
-/

namespace Gloss

namespace Resolver

variable {α β : Type}

theorem quiet_pure (value : α) : Quiet (pure value : Resolver α) :=
  fun state => ⟨state.diagnostics, state.functionArities, rfl⟩

theorem Quiet.bind {step : Resolver α} {next : α → Resolver β} (quiet : step.Quiet)
    (goesOn : ∀ value, (next value).Quiet) : (step >>= next).Quiet := by
  intro state
  obtain ⟨diagnostics, functionArities, changed⟩ := quiet state
  obtain ⟨laterDiagnostics, laterArities, changedLater⟩ :=
    goesOn (step.run state).1 (step.run state).2
  refine ⟨laterDiagnostics, laterArities, changedLater.trans ?_⟩
  rw [changed]

theorem quiet_report (problem : Problem) (node : NodeRef) : (report problem node).Quiet :=
  fun state => ⟨_, state.functionArities, rfl⟩

theorem quiet_noteArity (arity : Nat) : (noteArity arity).Quiet := by
  intro state
  change ∃ diagnostics functionArities,
    (if arity ∈ state.functionArities then state
      else { state with functionArities := state.functionArities ++ [arity] }) =
        { state with diagnostics, functionArities }
  split
  · exact ⟨state.diagnostics, state.functionArities, rfl⟩
  · exact ⟨state.diagnostics, _, rfl⟩

theorem quiet_expect (actual expected : NominalType) (node : NodeRef) :
    (expect actual expected node).Quiet := by
  unfold expect
  split
  · exact quiet_pure ()
  · exact quiet_report _ _

theorem quiet_expectArguments (types parameters : List NominalType)
    (arguments : List Tree.Expr) : (expectArguments types parameters arguments).Quiet := by
  fun_induction expectArguments types parameters arguments with
  | case1 type types parameter parameters argument arguments ih =>
      exact (quiet_expect _ _ _).bind fun _ => ih
  | case2 => exact quiet_pure ()

end Resolver

namespace Audit

open ResolutionState

variable {promised : List NodeRef} {start : ResolutionState} {active : List NodeRef}

/-! ### Entries -/

theorem mirrors_report (problem : Problem) (node : NodeRef) :
    Mirrors start active (report problem node) (Resolver.report problem node) 0 fun _ => True :=
  .of_quiet (Resolver.quiet_report problem node) fun _ => trivial

theorem mirrors_expect (actual expected : NominalType) (node : NodeRef) :
    Mirrors start active (expect actual expected node) (Resolver.expect actual expected node) 0
      fun _ => True :=
  .of_quiet (Resolver.quiet_expect actual expected node) fun _ => trivial

theorem mirrors_noteArity (arity : Nat) :
    Mirrors start active (follow (Resolver.noteArity arity)) (Resolver.noteArity arity) 0
      fun _ => True :=
  .of_quiet (Resolver.quiet_noteArity arity) fun _ => trivial

theorem mirrors_record (reference : NodeRef) (target : Descriptor) :
    Mirrors start active (record reference target) (Resolver.record reference target)
      (Tally.entry .meaning reference) fun _ => True :=
  .of_write .meaning reference (Remark.filled_meaning _ _)
    (fun _ => ⟨rfl, rfl, rfl, rfl, rfl, rfl, rfl, rfl⟩) fun _ => rfl

theorem mirrors_markAmbiguous (reference : NodeRef) (candidates : List Descriptor) :
    Mirrors start active (markAmbiguous reference candidates)
      (Resolver.markAmbiguous reference candidates) (Tally.entry .meaning reference)
      fun _ => True :=
  .of_write .meaning reference (Remark.filled_meaning _ _)
    (fun _ => ⟨rfl, rfl, rfl, rfl, rfl, rfl, rfl, rfl⟩) fun _ => rfl

theorem mirrors_markUnresolved (reference : NodeRef) :
    Mirrors start active (markUnresolved reference) (Resolver.markUnresolved reference)
      (Tally.entry .meaning reference) fun _ => True :=
  .of_write .meaning reference (Remark.filled_meaning _ _)
    (fun _ => ⟨rfl, rfl, rfl, rfl, rfl, rfl, rfl, rfl⟩) fun _ => rfl

theorem mirrors_unresolved (reference : NodeRef) (name : String) :
    Mirrors start active (unresolved reference name) (Resolver.unresolved reference name)
      (Tally.entry .meaning reference) fun _ => True :=
  (mirrors_markUnresolved reference).andThen fun _ _ => mirrors_report _ _

theorem mirrors_recordType (node : NodeRef) (type : NominalType) :
    Mirrors start active (recordType node type) (Resolver.recordType node type)
      (Tally.entry .type node) fun _ => True :=
  .of_write .type node (Remark.filled_typed _ _)
    (fun _ => ⟨rfl, rfl, rfl, rfl, rfl, rfl, rfl, rfl⟩) fun _ => rfl

/-- A type that is recorded is the value of the step. -/
theorem mirrors_typed {type : NominalType} (saturated : type.isSaturated = true)
    (node : NodeRef) :
    Mirrors start active (typed node type) (Resolver.typed node type) (Tally.entry .type node)
      fun value => value.isSaturated = true :=
  (mirrors_recordType node type).andThen fun _ _ => .of_pure saturated

theorem mirrors_recordError (reference : NodeRef) (name : String) :
    Mirrors start active (recordError reference name) (Resolver.recordError reference name)
      (Tally.entry .meaning reference) fun value => value.isSaturated = true :=
  (mirrors_record reference _).andThen fun _ _ => .of_pure rfl

/-! ### Written types -/

theorem mirrors_resolveTypeName (firm : start.Firm promised) (scope : Nat) (node : NodeRef)
    (name : String) (arguments : Nat) :
    Mirrors start active (resolveTypeName scope node name arguments)
      (Resolver.resolveTypeName scope node name arguments) (Tally.entry .meaning node)
      fun _ => True := by
  apply Mirrors.of_current
  intro state agrees inferred
  cases found : state.classifiers scope name with
  | none => exact mirrors_unresolved node name
  | some symbol =>
      have sound := (firm.of_agrees agrees inferred).sound_of_classifiers found
      obtain ⟨constructor, hasConstructor⟩ := Option.isSome_iff_exists.mp sound.2
      apply Mirrors.of_require hasConstructor
      apply (mirrors_record node symbol.descriptor).andThen
      intro _ _
      cases Resolver.expectedArguments? symbol with
      | none => exact .of_pure trivial
      | some expected =>
          dsimp only
          split
          · exact .of_pure trivial
          · exact mirrors_report _ _

mutual

theorem mirrors_resolveType (firm : start.Firm promised) (scope : Nat) : (type : Tree.TypeRef) →
    Mirrors start active (resolveType scope type) (Resolver.resolveType scope type) type.tally
      fun value => value.isSaturated = true
  | .named span nullable name nameSpan arguments => by
      rw [resolveType, Resolver.resolveType, Tree.TypeRef.tally_named]
      apply (mirrors_resolveTypes firm scope arguments).bind
      intro _ _
      apply (mirrors_resolveTypeName firm scope _ name _).bind
      intro _ _
      apply Mirrors.of_current
      intro state agrees inferred
      apply mirrors_typed
      have plain := (firm.of_agrees agrees inferred).arePlain_classifiers scope
      exact Tree.TypeRef.isSaturated_denote plain _
  | .function span nullable parameters result => by
      rw [resolveType, Resolver.resolveType, Tree.TypeRef.tally_function]
      apply (mirrors_resolveTypes firm scope parameters).bind
      intro _ _
      apply (mirrors_resolveType firm scope result).bind
      intro _ _
      apply (mirrors_noteArity _).after
      intro _ _
      apply Mirrors.of_current
      intro state agrees inferred
      apply mirrors_typed
      have plain := (firm.of_agrees agrees inferred).arePlain_classifiers scope
      exact Tree.TypeRef.isSaturated_denote plain _

theorem mirrors_resolveTypes (firm : start.Firm promised) (scope : Nat) :
    (types : List Tree.TypeRef) →
      Mirrors start active (resolveTypes scope types) (Resolver.resolveTypes scope types)
        (Tree.TypeRef.tallyAll types) fun _ => True
  | [] => .of_pure trivial
  | type :: rest => by
      rw [resolveTypes, Resolver.resolveTypes, Tree.TypeRef.tallyAll_cons]
      apply (mirrors_resolveType firm scope type).bind
      intro _ _
      exact mirrors_resolveTypes firm scope rest

end

theorem mirrors_resolveType? (firm : start.Firm promised) (scope : Nat)
    (type : Option Tree.TypeRef) :
    Mirrors start active (resolveType? scope type) (Resolver.resolveType? scope type)
      (Tree.TypeRef.tally? type)
      fun value => value.isSome = type.isSome ∧ ∀ found ∈ value, found.isSaturated = true := by
  cases type with
  | none => exact .of_pure ⟨rfl, nofun⟩
  | some type =>
      apply (mirrors_resolveType firm scope type).andThen
      intro value saturated
      apply Mirrors.of_pure
      refine ⟨rfl, fun found isFound => ?_⟩
      cases isFound
      exact saturated

/-! ### Types of declarations -/

/-- An inquiry mirrors a demand for an open type of a declaration that was put off. -/
def Reliable (start : ResolutionState) (active : List NodeRef) (inquiry : Inquiry)
    (demand : Demand) : Prop :=
  ∀ node ∈ start.deferred.keys, ∀ ledger, Tracks start ledger →
    ledger.state.inferred.get? node = none →
      MirrorsFrom start active ledger (inquiry node) (demand node) 0
        fun value => value.isSaturated = true

theorem isSaturated_of_mem_parameters {function : FunctionDescriptor}
    (sound : (Descriptor.function function).Sound promised) :
    ∀ parameter ∈ function.parameters, parameter.type.isSaturated = true :=
  List.all_eq_true.mp (Bool.and_eq_true _ _ ▸ sound.nameable).1

variable {inquiry : Inquiry} {demand : Demand}

section Types

variable (reliable : Reliable start active inquiry demand)

include reliable

theorem mirrors_settle {known : Option NominalType} {declaration : Option NodeRef}
    (saturated : known.all NominalType.isSaturated = true)
    (promise : known = none → ∃ node ∈ start.deferred.keys, declaration = some node) :
    Mirrors start active (settle inquiry known declaration)
      (Resolver.settle demand known declaration) 0 fun value => value.isSaturated = true := by
  cases known with
  | some type => exact .of_pure saturated
  | none =>
      obtain ⟨node, isDeferred, rfl⟩ := promise rfl
      intro ledger tracks
      cases inferred : ledger.state.inferred.get? node with
      | some type =>
          refine ⟨type, ledger, ?_, Resolver.run_settle_of_some inferred, tracks,
            .refl active ledger, (tracks.inferred node type inferred).1⟩
          rw [settle, run_current_bind, inferred]
          rfl
      | none =>
          unfold MirrorsFrom
          rw [settle, run_current_bind, inferred, Resolver.run_settle_of_none inferred]
          exact reliable node isDeferred ledger tracks inferred

theorem mirrors_variableType {holder : VariableDescriptor}
    (sound : (Descriptor.variable holder).Sound start.deferred.keys) :
    Mirrors start active (variableType inquiry holder) (Resolver.variableType demand holder) 0
      fun value => value.isSaturated = true := by
  cases holder with
  | parameter owner declared => exact .of_pure sound.nameable
  | property declared => exact mirrors_settle reliable sound.nameable sound.promise
  | «local» declared => exact .of_pure sound.nameable

theorem mirrors_returnType {function : FunctionDescriptor}
    (sound : (Descriptor.function function).Sound start.deferred.keys) :
    Mirrors start active (returnType inquiry function) (Resolver.returnType demand function) 0
      fun value => value.isSaturated = true :=
  mirrors_settle reliable (Bool.and_eq_true _ _ ▸ sound.nameable).2 sound.promise

theorem mirrors_functionValueType {function : FunctionDescriptor}
    (sound : (Descriptor.function function).Sound start.deferred.keys) :
    Mirrors start active (functionValueType inquiry function)
      (Resolver.functionValueType demand function) 0 fun value => value.isSaturated = true := by
  apply (mirrors_returnType reliable sound).after
  intro result saturated
  apply (mirrors_noteArity _).after
  intro _ _
  apply Mirrors.of_pure
  apply NominalType.isSaturated_functionType _ saturated
  intro type isType
  obtain ⟨parameter, isParameter, rfl⟩ := List.mem_map.mp isType
  exact isSaturated_of_mem_parameters sound parameter isParameter

theorem mirrors_valueType {descriptor : Descriptor}
    (sound : descriptor.Sound start.deferred.keys) :
    Mirrors start active (valueType inquiry descriptor) (Resolver.valueType demand descriptor) 0
      fun value => value.isSaturated = true := by
  cases descriptor with
  | «variable» holder => exact mirrors_variableType reliable sound
  | function function => exact mirrors_functionValueType reliable sound
  | «class» | typeParameter => exact .of_pure rfl
  | specialized | invoke | error => exact absurd sound.nameable Bool.false_ne_true

/-! ### Candidates -/

theorem mirrors_asCallable {descriptor : Descriptor}
    (sound : descriptor.Sound start.deferred.keys) :
    Mirrors start active (asCallable inquiry descriptor) (Resolver.asCallable demand descriptor) 0
      fun callable => ∀ found ∈ callable, found.Callable start.deferred.keys := by
  cases descriptor with
  | «variable» holder =>
      apply (mirrors_variableType reliable sound).after
      intro type saturated
      apply Mirrors.of_pure
      intro found isFound
      obtain ⟨arity, isFunction, rfl⟩ := Option.map_eq_some_iff.mp isFound
      exact ⟨by rw [isFunction]; rfl, saturated⟩
  | «class» | function =>
      apply Mirrors.of_pure
      intro found isFound
      cases isFound
      exact sound
  | typeParameter =>
      apply Mirrors.of_pure
      intro found isFound
      cases isFound
  | specialized | invoke | error => exact absurd sound.nameable Bool.false_ne_true

theorem mirrors_callables {descriptors : List Descriptor}
    (sound : ∀ descriptor ∈ descriptors, descriptor.Sound start.deferred.keys) :
    Mirrors start active (callables inquiry descriptors) (Resolver.callables demand descriptors) 0
      fun found => ∀ callable ∈ found, callable.Callable start.deferred.keys := by
  induction descriptors with
  | nil => exact .of_pure fun _ none => absurd none List.not_mem_nil
  | cons descriptor rest ih =>
      obtain ⟨soundFirst, soundRest⟩ := List.forall_mem_cons.mp sound
      apply (mirrors_asCallable reliable soundFirst).after
      intro callable isCallable
      apply (ih soundRest).after
      intro later areCallable
      apply Mirrors.of_pure
      intro found isFound
      rcases List.mem_append.mp isFound with isFirst | inLater
      · exact isCallable found (Option.mem_toList.mp isFirst)
      · exact areCallable found inLater

theorem mirrors_callablesAt (name : String) {levels : List (Scope Descriptor)}
    (sound : ∀ level ∈ levels, ∀ symbol ∈ level.symbols,
      symbol.descriptor.Sound start.deferred.keys) :
    Mirrors start active (callablesAt inquiry name levels)
      (Resolver.callablesAt demand name levels) 0
      fun found => ∀ callable ∈ found, callable.Callable start.deferred.keys := by
  induction levels with
  | nil => exact .of_pure fun _ none => absurd none List.not_mem_nil
  | cons level outer ih =>
      obtain ⟨soundLevel, soundOuter⟩ := List.forall_mem_cons.mp sound
      have soundNamed : ∀ descriptor ∈ ((level.symbolsNamed name).filter fun symbol =>
          symbol.kind ≠ .typeParameter).map Symbol.descriptor,
            descriptor.Sound start.deferred.keys := by
        intro descriptor isNamed
        obtain ⟨symbol, inFiltered, rfl⟩ := List.mem_map.mp isNamed
        have named := (List.mem_filter.mp inFiltered).1
        exact soundLevel symbol (List.mem_filter.mp named).1
      apply (mirrors_callables reliable soundNamed).after
      intro found areCallable
      cases found with
      | nil => exact ih soundOuter
      | cons first rest => exact .of_pure areCallable

end Types

/-! ### Function types -/

/-- The parts of a function type, as many as its class asks for. -/
theorem unpack_eq_pure {type : NominalType} (isFunction : (Library.functionArity? type).isSome)
    (saturated : type.isSaturated = true) :
    ∃ parameters result, unpack type = pure (parameters, result) ∧
      Library.functionParts? type = some (parameters, result) ∧
        (∀ parameter ∈ parameters, parameter.isSaturated = true) ∧ result.isSaturated = true := by
  obtain ⟨arity, hasArity⟩ := Option.isSome_iff_exists.mp isFunction
  obtain ⟨admits, arguments⟩ := NominalType.isSaturated_iff.mp saturated
  have enough : type.arguments.length = arity + 1 := by
    unfold Library.functionArity? at hasArity
    split at hasArity
    · next origin =>
        cases hasArity
        simpa [TypeConstructor.admits, origin] using admits
    · cases hasArity
  have some : type.arguments ≠ [] := by
    intro none
    rw [none] at enough
    cases enough
  refine ⟨type.arguments.dropLast, type.arguments.getLast some, ?_, ?_, ?_, ?_⟩
  · simp only [unpack, hasArity, List.getLast?_eq_some_getLast some, enough, if_true]
  · simp only [Library.functionParts?, hasArity, List.getLast?_eq_some_getLast some]
  · exact fun parameter isParameter => arguments parameter (List.mem_of_mem_dropLast isParameter)
  · exact arguments _ (List.getLast_mem some)

end Audit

end Gloss
