import Gloss.Proofs.Order.Performance

/-!
# Inferring an expression plays its script

What a call writes down may show an open type: in the message about a mismatch, or in
the return type of a generic function.  By then the type has been asked for, or it is
the type that is being inferred itself.
-/

namespace Gloss

section Shown

variable {first second : InferredTypes}

theorem FunctionDescriptor.returnType?_congr {function : FunctionDescriptor}
    (same : ∀ node, (Descriptor.function function).shownOpen? = some node →
      first.get? node = second.get? node) :
    function.returnType? first = function.returnType? second := by
  unfold returnType?
  cases known : function.returnType with
  | some type => rfl
  | none =>
      cases declared : function.declaration with
      | none => rfl
      | some node => exact same node (by simp [Descriptor.shownOpen?, known, declared])

theorem VariableDescriptor.render_congr {holder : VariableDescriptor}
    (same : ∀ node, (Descriptor.variable holder).shownOpen? = some node →
      first.get? node = second.get? node) : holder.render first = holder.render second := by
  unfold render
  cases holder with
  | «local» declared => rfl
  | parameter owner declared =>
      cases owner with
      | «class» owner => rfl
      | specialized owner => rfl
      | function owner =>
          have returned : owner.returnType? first = owner.returnType? second :=
            FunctionDescriptor.returnType?_congr same
          simp only [type?, ParameterOwner.render, FunctionDescriptor.render, returned]
  | property declared =>
      have typed : (property declared).type? first = (property declared).type? second := by
        unfold type?
        cases known : declared.type with
        | some type => simp [known]
        | none =>
            cases isDeclared : declared.declaration with
            | none => simp [known, isDeclared]
            | some node =>
                have := same node (by simp [Descriptor.shownOpen?, known, isDeclared])
                simp [known, isDeclared, this]
      simp only [typed]

theorem Descriptor.shownOpen?_invoke (called : VariableDescriptor) (type : NominalType) :
    (Descriptor.invoke called type).shownOpen? = (Descriptor.variable called).shownOpen? := by
  cases called with
  | parameter owner declared => cases owner <;> rfl
  | property declared => rfl
  | «local» declared => rfl

/-- What is inferred matters for a rendered descriptor only where it is shown. -/
theorem Descriptor.render_congr {descriptor : Descriptor}
    (same : ∀ node, descriptor.shownOpen? = some node → first.get? node = second.get? node) :
    descriptor.render first = descriptor.render second := by
  cases descriptor with
  | function declared =>
      have returned := FunctionDescriptor.returnType?_congr same
      exact congrArg (FunctionDescriptor.signature _ _ _) returned
  | «variable» holder => exact VariableDescriptor.render_congr same
  | invoke called type =>
      rw [shownOpen?_invoke] at same
      exact congrArg ("invoke of " ++ ·) (VariableDescriptor.render_congr same)
  | _ => rfl

/-- The target of a call depends on the inferred types only where they are shown. -/
theorem Resolver.callTarget_congr {choice : Applicable}
    (same : ∀ node, choice.candidate.shownOpen? = some node →
      first.get? node = second.get? node) :
    callTarget first choice = callTarget second choice := by
  unfold callTarget
  cases isCandidate : choice.candidate with
  | function declared =>
      rw [isCandidate] at same
      simp only [FunctionDescriptor.specialize, FunctionDescriptor.returnType?_congr same]
  | _ => rfl

end Shown

namespace Surroundings

/-- A parameter of a function with an open type is seen from its own body only. -/
def Owns (around : Surroundings) : Descriptor → Prop
  | .variable (.parameter (.function owner) _) =>
      owner.returnType = none → ∀ node, owner.declaration = some node → node = around.own
  | _ => True

/-- All that can be seen is owned. -/
structure Owned (around : Surroundings) : Prop where
  levels : ∀ level ∈ around.levels, ∀ symbol ∈ level, around.Owns symbol.descriptor
  members : ∀ constructor entry, around.class? constructor = some entry →
    ∀ member ∈ entry.members, around.Owns member

/-- The open type that is shown with a descriptor is known, unless it is the own
one. -/
def Seen (around : Surroundings) (state : ResolutionState) (descriptor : Descriptor) : Prop :=
  ∀ node, descriptor.shownOpen? = some node →
    node = around.own ∨ around.isOpen node = false ∨ (state.inferred.get? node).isSome

/-- The open type of a candidate is seen once its signature is known. -/
def Prepared (around : Surroundings) (state : ResolutionState) (candidate : Descriptor) : Prop :=
  Resolver.isFunction candidate = true ∨ around.Seen state candidate

variable {around : Surroundings} {state later : ResolutionState} {descriptor : Descriptor}

theorem Seen.of_eq_none (nothing : descriptor.shownOpen? = none) : around.Seen state descriptor :=
  fun node shown => by rw [nothing] at shown; cases shown

theorem Seen.settles (seen : around.Seen state descriptor) (settles : state.Settles later) :
    around.Seen later descriptor :=
  fun node shown => (seen node shown).imp_right (Or.imp_right (settles.keeps node))

theorem Prepared.settles (prepared : around.Prepared state descriptor)
    (settles : state.Settles later) : around.Prepared later descriptor :=
  prepared.imp_right fun seen => seen.settles settles

end Surroundings

open ResolutionState Surroundings

variable {base : ResolutionState} {scope : Nat} {around : Surroundings}
  {demand : Demand} {state : ResolutionState} {descriptor : Descriptor}

section Seen

variable (dutiful : demand.Dutiful base)

include dutiful

/-- An open type is seen once it was asked for. -/
theorem inferred_play_settle (continues : base.Continues state)
    (isOpen : ∀ node, around.isOpen node = (base.deferred.get? node).isSome) (node : NodeRef) :
    around.isOpen node = false ∨
      ((((around.settle none (some node)).play around.own demand).run state).2.inferred.get?
        node).isSome := by
  cases open_ : around.isOpen node with
  | false => exact .inl rfl
  | true =>
      right
      rw [Surroundings.settle, dif_pos open_]
      exact dutiful.inferred_settle continues (isOpen node ▸ open_)

theorem seen_returnType (fits : Fits base scope around state) (function : FunctionDescriptor) :
    around.Seen (((around.returnType function).play around.own demand).run state).2
      (.function function) := by
  intro node shown
  simp only [Descriptor.shownOpen?] at shown
  split at shown
  · next isOpen =>
      rw [Option.isNone_iff_eq_none] at isOpen
      rw [Surroundings.returnType, isOpen, shown]
      exact .inr (inferred_play_settle dutiful fits.continues fits.isOpen_eq node)
  · cases shown

theorem seen_variableType (fits : Fits base scope around state) (holder : VariableDescriptor)
    (owns : around.Owns (.variable holder)) :
    around.Seen (((around.variableType holder).play around.own demand).run state).2
      (.variable holder) := by
  cases holder with
  | «local» declared => exact .of_eq_none rfl
  | parameter owner declared =>
      cases owner with
      | «class» owner => exact .of_eq_none rfl
      | specialized owner => exact .of_eq_none rfl
      | function owner =>
          intro node shown
          simp only [Descriptor.shownOpen?] at shown
          split at shown
          · next isOpen => exact .inl (owns (Option.isNone_iff_eq_none.mp isOpen) node shown)
          · cases shown
  | property declared =>
      intro node shown
      simp only [Descriptor.shownOpen?] at shown
      split at shown
      · next isOpen =>
          rw [Option.isNone_iff_eq_none] at isOpen
          rw [Surroundings.variableType, isOpen, shown]
          exact .inr (inferred_play_settle dutiful fits.continues fits.isOpen_eq node)
      · cases shown

theorem prepared_asCallable (fits : Fits base scope around state)
    (owns : around.Owns descriptor) :
    ∀ callable ∈ (((around.asCallable descriptor).play around.own demand).run state).1,
      around.Prepared (((around.asCallable descriptor).play around.own demand).run state).2
        callable := by
  intro callable isCallable
  cases descriptor with
  | «class» declared =>
      cases isCallable
      exact .inr (.of_eq_none rfl)
  | function declared =>
      cases isCallable
      exact .inl rfl
  | specialized declared =>
      cases isCallable
      exact .inl rfl
  | typeParameter declared => cases isCallable
  | invoke called type => cases isCallable
  | error name => cases isCallable
  | «variable» holder =>
      have seen := seen_variableType dutiful fits holder owns
      rw [Surroundings.asCallable, Script.run_play_bind] at isCallable ⊢
      obtain ⟨arity, -, rfl⟩ := Option.map_eq_some_iff.mp isCallable
      right
      intro node shown
      rw [Descriptor.shownOpen?_invoke] at shown
      exact seen node shown

theorem prepared_callables (fits : Fits base scope around state)
    {descriptors : List Descriptor} (owns : ∀ descriptor ∈ descriptors, around.Owns descriptor) :
    ∀ callable ∈ (((around.callables descriptors).play around.own demand).run state).1,
      around.Prepared (((around.callables descriptors).play around.own demand).run state).2
        callable := by
  induction descriptors generalizing state with
  | nil =>
      intro callable isCallable
      cases isCallable
  | cons descriptor rest ih =>
      intro callable isCallable
      have prepared := prepared_asCallable dutiful fits (owns descriptor List.mem_cons_self)
      have settles := dutiful.settles_play around.own (around.asCallable descriptor)
        fits.continues
      have fitsLater := fits.settles settles
      have later := ih fitsLater fun other isRest => owns other (List.mem_cons_of_mem _ isRest)
      have settlesLater := dutiful.settles_play around.own (around.callables rest)
        fitsLater.continues
      rw [Surroundings.callables, Script.run_play_bind, Script.run_play_bind] at isCallable ⊢
      rcases List.mem_append.mp isCallable with isFirst | isLater
      · exact (prepared callable (Option.mem_toList.mp isFirst)).settles settlesLater
      · exact later callable isLater

theorem prepared_callablesAt (fits : Fits base scope around state) (name : String)
    {levels : List (List (Symbol Descriptor))}
    (owns : ∀ level ∈ levels, ∀ symbol ∈ level, around.Owns symbol.descriptor) :
    ∀ callable ∈ (((around.callablesAt name levels).play around.own demand).run state).1,
      around.Prepared (((around.callablesAt name levels).play around.own demand).run state).2
        callable := by
  induction levels generalizing state with
  | nil =>
      intro callable isCallable
      cases isCallable
  | cons level outer ih =>
      have ownsFirst : ∀ descriptor ∈ ((level.filter fun symbol => symbol.name = name).filter
          fun symbol => symbol.kind ≠ .typeParameter).map Symbol.descriptor,
          around.Owns descriptor := by
        intro descriptor isNamed
        obtain ⟨symbol, isSymbol, rfl⟩ := List.mem_map.mp isNamed
        exact owns level List.mem_cons_self symbol
          (List.mem_of_mem_filter (List.mem_of_mem_filter isSymbol))
      have prepared := prepared_callables dutiful fits ownsFirst
      have settles := dutiful.settles_play around.own (around.callables
        (((level.filter fun symbol => symbol.name = name).filter
          fun symbol => symbol.kind ≠ .typeParameter).map Symbol.descriptor)) fits.continues
      have later := ih (fits.settles settles) fun other isOuter =>
        owns other (List.mem_cons_of_mem _ isOuter)
      rw [Surroundings.callablesAt, Script.run_play_bind]
      obtain ⟨found, middle, isFound⟩ : ∃ found middle,
          ((around.callables (((level.filter fun symbol => symbol.name = name).filter
            fun symbol => symbol.kind ≠ .typeParameter).map Symbol.descriptor)).play around.own
              demand).run state = (found, middle) := ⟨_, _, rfl⟩
      rw [isFound] at prepared later ⊢
      cases found with
      | nil => exact later
      | cons first rest => exact prepared

theorem seen_signature (fits : Fits base scope around state) (receiver : Substitution)
    {candidate : Descriptor} (prepared : around.Prepared state candidate) :
    around.Seen (((around.signature receiver candidate).play around.own demand).run state).2
      (((around.signature receiver candidate).play around.own demand).run state).1.candidate := by
  cases candidate with
  | function declared =>
      rw [Surroundings.signature, Script.run_play_bind]
      exact seen_returnType dutiful fits declared
  | specialized declared => exact .of_eq_none rfl
  | _ => exact prepared.resolve_left nofun

theorem seen_signatures (fits : Fits base scope around state) (receiver : Substitution)
    {candidates : List Descriptor}
    (prepared : ∀ candidate ∈ candidates, around.Prepared state candidate) :
    ∀ signature ∈ (((around.signatures receiver candidates).play around.own demand).run state).1,
      around.Seen (((around.signatures receiver candidates).play around.own demand).run state).2
        signature.candidate := by
  induction candidates generalizing state with
  | nil =>
      intro signature isSignature
      cases isSignature
  | cons candidate rest ih =>
      intro signature isSignature
      have seen := seen_signature dutiful fits receiver (prepared candidate List.mem_cons_self)
      have settles := dutiful.settles_play around.own (around.signature receiver candidate)
        fits.continues
      have fitsLater := fits.settles settles
      have later := ih fitsLater fun other isRest =>
        (prepared other (List.mem_cons_of_mem _ isRest)).settles settles
      have settlesLater := dutiful.settles_play around.own (around.signatures receiver rest)
        fitsLater.continues
      rw [Surroundings.signatures, Script.run_play_bind, Script.run_play_bind] at isSignature ⊢
      rcases List.mem_cons.mp isSignature with rfl | isLater
      · exact seen.settles settlesLater
      · exact later signature isLater

end Seen

/-- What is shown with a descriptor that is seen is looked up and not asked for. -/
theorem run_shown (demand : Demand) (fits : Fits base scope around state)
    (seen : around.Seen state descriptor) :
    ∃ shown : Option NominalType → InferredTypes,
      ((around.shown descriptor).play around.own demand).run state = (shown, state) ∧
        ∀ node, descriptor.shownOpen? = some node →
          (shown (state.inferred.get? around.own)).get? node = state.inferred.get? node := by
  unfold Surroundings.shown
  cases shown : descriptor.shownOpen? with
  | none => exact ⟨_, rfl, nofun⟩
  | some node =>
      dsimp only
      split
      · next isOwn =>
          subst isOwn
          refine ⟨_, rfl, ?_⟩
          intro other isNode
          cases isNode
          cases state.inferred.get? around.own with
          | none => rfl
          | some type => simp [Table.get?, Table.lookupIn]
      · next notOwn =>
          have unknown_or_known := (seen node shown).resolve_left notOwn
          split
          · next isOpen =>
              obtain ⟨type, known⟩ := Option.isSome_iff_exists.mp
                (unknown_or_known.resolve_left (by simp [isOpen]))
              refine ⟨fun _ => ⟨[(node, type)]⟩, ?_, ?_⟩
              · rw [Script.run_play_bind]
                have asked : ((Script.ask node isOpen Script.done).play around.own demand).run state =
                    (type, state) := by
                  have settled : (Resolver.settle demand none (some node)).run state =
                      (type, state) := Resolver.run_settle_of_some known
                  rw [Script.play]
                  change ((Resolver.settle demand none (some node)) >>= pure).run state = _
                  rw [bind_pure, settled]
                rw [asked]
                rfl
              · intro other isNode
                cases isNode
                simp [Table.get?, Table.lookupIn, ← known]
          · next notOpen =>
              refine ⟨_, rfl, ?_⟩
              intro other isNode
              cases isNode
              have unknown : state.inferred.get? node = none := by
                by_contra known
                exact notOpen (fits.isOpen_eq node ▸
                  fits.continues.inferred node (Option.isSome_iff_ne_none.mpr known))
              rw [unknown]
              rfl

/-- A remark that shows no other open types is the one that the state would show. -/
theorem run_write_shown (demand : Demand) (fits : Fits base scope around state)
    (seen : around.Seen state descriptor) (remark : InferredTypes → Remark)
    (congr : ∀ first second : InferredTypes,
      (∀ node, descriptor.shownOpen? = some node → first.get? node = second.get? node) →
        remark first = remark second) (result : NominalType) :
    ((do
      let inferred ← around.shown descriptor
      .write (fun own => remark (inferred own)) (.done ())
      return result : Script around.isOpen NominalType).play around.own demand).run state =
        (result, state.remark (remark state.inferred)) := by
  obtain ⟨shown, isShown, same⟩ := run_shown demand fits seen
  rw [Script.run_play_bind, isShown, ← congr _ _ same]
  rfl

theorem Resolver.run_bind {α β : Type} (step : Resolver α) (next : α → Resolver β)
    (state : ResolutionState) :
    (step >>= next).run state = (next (step.run state).1).run (step.run state).2 := rfl

theorem Resolver.run_get_bind {α : Type} (goOn : ResolutionState → Resolver α)
    (state : ResolutionState) : (get >>= goOn).run state = (goOn state).run state := rfl

/-- The surroundings say what the state says. -/
theorem ResolutionState.Fits.lookup_eq (fits : Fits base scope around state)
    (accept : SymbolKind → Bool) (name : String) :
    state.scopes.lookup scope accept name = around.lookup accept name := by
  rw [← fits.around_eq, Surroundings.lookup, ResolutionState.around, List.map_map]
  rfl

theorem ResolutionState.Fits.levels_eq (fits : Fits base scope around state) :
    (state.scopes.levels scope).map Scope.symbols = around.levels := by
  rw [← fits.around_eq]
  rfl

theorem ResolutionState.Fits.class?_eq (fits : Fits base scope around state) :
    state.class? = around.class? := by
  rw [← fits.around_eq]
  rfl

section Calls

open Resolver

variable (dutiful : demand.Dutiful base)

include dutiful

/-- A call is resolved as its script says, once its candidates are prepared. -/
theorem run_resolveCall (fits : Fits base scope around state) (reference : NodeRef)
    (name : String) {candidates : List Descriptor} (arguments : List NominalType)
    (receiver : Substitution)
    (prepared : ∀ candidate ∈ candidates, around.Prepared state candidate) :
    (resolveCall demand reference name candidates arguments receiver).run state =
      ((around.resolveCall reference name candidates arguments receiver).play around.own
        demand).run state := by
  have seen := seen_signatures dutiful fits receiver prepared
  have settles := dutiful.settles_play around.own (around.signatures receiver candidates)
    fits.continues
  rw [Surroundings.resolveCall, Script.run_play_bind, Resolver.resolveCall, run_bind,
    performs_signatures dutiful receiver candidates state fits]
  revert seen settles
  generalize ((around.signatures receiver candidates).play around.own demand).run state = found
  obtain ⟨judged, middle⟩ := found
  intro seen settles
  have fitsMiddle := fits.settles settles
  rw [run_bind]
  cases choice : Choice.among judged arguments with
  | none => rfl
  | inapplicable => rfl
  | ambiguous winners => rfl
  | mismatch only =>
      have recorded := middle.settles_remark (.meaning reference (.target only.candidate))
      have seenOnly := (seen only (Choice.mem_of_among_eq_mismatch choice)).settles recorded
      have shown := run_write_shown demand (fitsMiddle.settles recorded) seenOnly
        (fun inferred => .problem {
          problem := .argumentMismatch arguments (only.candidate.render inferred)
          node := reference })
        (fun first second same => by rw [Descriptor.render_congr same]) only.result
      exact shown.symm
  | chosen best =>
      obtain ⟨signature, isSignature, isCandidate⟩ := Choice.exists_of_among_eq_chosen choice
      have seenBest := isCandidate ▸ seen signature isSignature
      have shown := run_write_shown demand fitsMiddle seenBest
        (fun inferred => .meaning reference (.target (callTarget inferred best)))
        (fun first second same => by rw [callTarget_congr same]) best.result
      exact shown.symm

theorem performs_resolveValue (name : Tree.SimpleName) :
    Performs base demand scope around (resolveValue demand scope name)
      (around.resolveValue name) := by
  apply Performs.of_get
  intro state fits
  rw [Surroundings.resolveValue, fits.lookup_eq]
  cases around.lookup SymbolKind.isValue name.text with
  | nil => rfl
  | cons symbol rest =>
      refine Performs.bind dutiful (performs_record name.node.ref symbol.descriptor)
        (fun _ => ?_) state fits
      cases symbol.descriptor with
      | «variable» holder => exact performs_variableType dutiful holder
      | _ => exact .of_pure _

theorem performs_resolveCallableRef (name : Tree.SimpleName) :
    Performs base demand scope around (resolveCallableRef demand scope name)
      (around.resolveCallableRef name) := by
  apply Performs.of_get
  intro state fits
  rw [Surroundings.resolveCallableRef, fits.lookup_eq]
  cases around.lookup (fun kind => kind = .function) name.text with
  | nil => rfl
  | cons symbol rest =>
      cases rest with
      | nil =>
          have goesOn : Performs base demand scope around
              (do
                record name.node.ref symbol.descriptor
                let type ← valueType demand symbol.descriptor
                typed name.node.ref type)
              (do
                Script.record name.node.ref symbol.descriptor
                let type ← around.valueType symbol.descriptor
                Script.typed name.node.ref type) := by
            apply Performs.bind dutiful (performs_record _ _)
            intro _
            exact .bind dutiful (performs_valueType dutiful _) fun _ => performs_typed _ _
          exact goesOn state fits
      | cons second rest => rfl

omit dutiful in
theorem run_membersOf (fits : Fits base scope around state) (receiver : NominalType)
    (name : String) :
    (membersOf receiver name).run state = (around.membersOf receiver name, state) := by
  rw [Resolver.membersOf, run_bind, Surroundings.membersOf, ← fits.class?_eq]
  dsimp only [StateT.run_get]
  cases isEntry : state.class? receiver.constructor with
  | none => rfl
  | some entry => rfl

omit dutiful in
theorem owns_of_mem_membersOf (owned : around.Owned) (receiver : NominalType) (name : String) :
    ∀ member ∈ (around.membersOf receiver name).1, around.Owns member := by
  have ownsAny : ∀ member ∈ Library.anyClass.membersNamed name, around.Owns member := by
    intro member isMember
    have isAny := List.mem_of_mem_filter isMember
    simp only [Library.anyClass, List.mem_cons, List.not_mem_nil, or_false] at isAny
    rcases isAny with rfl | rfl <;> trivial
  intro member isMember
  unfold Surroundings.membersOf at isMember
  cases isEntry : around.class? receiver.constructor with
  | none =>
      rw [isEntry] at isMember
      exact ownsAny member isMember
  | some entry =>
      simp only [isEntry] at isMember
      split at isMember
      · exact ownsAny member isMember
      · exact owned.members _ entry isEntry member (List.mem_of_mem_filter isMember)

theorem performs_resolveSelector (receiver : NominalType) (selector : Tree.SimpleName) :
    Performs base demand scope around (resolveSelector demand receiver selector)
      (around.resolveSelector receiver selector) := by
  unfold Resolver.resolveSelector Surroundings.resolveSelector
  split
  · exact .bind dutiful (performs_recordError _ _) fun _ => performs_typed _ _
  · intro state fits
    rw [run_bind, run_membersOf fits]
    obtain ⟨members, substitution⟩ := around.membersOf receiver selector.text
    dsimp only
    cases members.filterMap asProperty? with
    | nil => rfl
    | cons property rest =>
        have goesOn : Performs base demand scope around
            (do
              record selector.node.ref (.variable (.property property))
              let type ← variableType demand (.property property)
              typed selector.node.ref (type.substitute substitution))
            (do
              Script.record selector.node.ref (.variable (.property property))
              let type ← around.variableType (.property property)
              Script.typed selector.node.ref (type.substitute substitution)) := by
          apply Performs.bind dutiful (performs_record _ _)
          intro _
          exact .bind dutiful (performs_variableType dutiful _) fun _ => performs_typed _ _
        exact goesOn state fits

theorem performs_resolveOperator (left right : NominalType) (reference : Tree.OperatorRef) :
    Performs base demand scope around (resolveOperator demand left right reference)
      (around.resolveOperator left right reference) := by
  unfold Resolver.resolveOperator Surroundings.resolveOperator
  dsimp only
  split
  · exact .bind dutiful (performs_recordError _ _) fun _ => .of_pure _
  · intro state fits
    rw [run_bind, run_membersOf fits]
    obtain ⟨members, substitution⟩ := around.membersOf left reference.operator.memberName
    have prepared : ∀ candidate ∈ members.filter isFunction, around.Prepared state candidate :=
      fun candidate isCandidate => .inl (List.of_mem_filter isCandidate)
    dsimp only
    rw [run_bind, run_resolveCall dutiful fits _ _ _ _ prepared, Script.run_play_bind]
    rfl

variable (owned : around.Owned)

include owned

theorem performs_resolveMemberCall (receiver : NominalType) (selector : Tree.SimpleName)
    (arguments : List NominalType) :
    Performs base demand scope around (resolveMemberCall demand receiver selector arguments)
      (around.resolveMemberCall receiver selector arguments) := by
  unfold Resolver.resolveMemberCall Surroundings.resolveMemberCall
  split
  · exact .bind dutiful (performs_recordError _ _) fun _ => performs_typed _ _
  · intro state fits
    have owns := owns_of_mem_membersOf owned receiver selector.text
    rw [run_bind, run_membersOf fits]
    revert owns
    obtain ⟨members, substitution⟩ := around.membersOf receiver selector.text
    intro owns
    have prepared := prepared_callables dutiful fits owns
    have settles := dutiful.settles_play around.own (around.callables members) fits.continues
    dsimp only
    rw [run_bind, performs_callables dutiful members state fits, Script.run_play_bind, run_bind,
      run_resolveCall dutiful (fits.settles settles) _ _ _ _ prepared, Script.run_play_bind]
    rfl

theorem performs_resolveNameCall (name : Tree.SimpleName) (arguments : List NominalType) :
    Performs base demand scope around (resolveNameCall demand scope name arguments)
      (around.resolveNameCall name arguments) := by
  intro state fits
  have prepared := prepared_callablesAt dutiful fits name.text owned.levels
  have settles := dutiful.settles_play around.own (around.callablesAt name.text around.levels)
    fits.continues
  have found := performs_callablesAt dutiful name.text (state.scopes.levels scope) state fits
  rw [fits.levels_eq] at found
  rw [Resolver.resolveNameCall, run_get_bind, run_bind, found, Surroundings.resolveNameCall,
    Script.run_play_bind, run_bind,
    run_resolveCall dutiful (fits.settles settles) _ _ _ _ prepared, Script.run_play_bind]
  rfl

end Calls

section Expressions

open Resolver

mutual

theorem performs_infer (dutiful : demand.Dutiful base) (owned : around.Owned) :
    (value : Tree.Expr) →
    Performs base demand scope around (infer demand scope value) (around.infer value)
  | .name name => by
      rw [Resolver.infer, Surroundings.infer]
      exact .bind dutiful (performs_resolveValue dutiful name) fun _ => performs_typed _ _
  | .integer span value | .text span value | .boolean span value | .null span => by
      rw [Resolver.infer, Surroundings.infer]
      exact performs_typed _ _
  | .callableRef span target => by
      rw [Resolver.infer, Surroundings.infer]
      exact .bind dutiful (performs_resolveCallableRef dutiful target) fun _ => performs_typed _ _
  | .paren span inner => by
      rw [Resolver.infer, Surroundings.infer]
      exact .bind dutiful (performs_infer dutiful owned inner) fun _ => performs_typed _ _
  | .ifThen span condition thenBranch => by
      rw [Resolver.infer, Surroundings.infer]
      apply Performs.bind dutiful (performs_infer dutiful owned condition)
      intro conditionType
      apply Performs.bind dutiful (performs_expect _ _ _)
      intro _
      exact .bind dutiful (performs_infer dutiful owned thenBranch) fun _ => performs_typed _ _
  | .ifElse span condition thenBranch elseBranch => by
      rw [Resolver.infer, Surroundings.infer]
      apply Performs.bind dutiful (performs_infer dutiful owned condition)
      intro conditionType
      apply Performs.bind dutiful (performs_expect _ _ _)
      intro _
      apply Performs.bind dutiful (performs_infer dutiful owned thenBranch)
      intro thenType
      exact .bind dutiful (performs_infer dutiful owned elseBranch) fun _ => performs_typed _ _
  | .member span receiver selector => by
      rw [Resolver.infer, Surroundings.infer]
      apply Performs.bind dutiful (performs_infer dutiful owned receiver)
      intro receiverType
      exact .bind dutiful (performs_resolveSelector dutiful _ _) fun _ => performs_typed _ _
  | .binary span left operator right => by
      rw [Resolver.infer, Surroundings.infer]
      apply Performs.bind dutiful (performs_infer dutiful owned left)
      intro leftType
      apply Performs.bind dutiful (performs_infer dutiful owned right)
      intro rightType
      exact .bind dutiful (performs_resolveOperator dutiful _ _ _) fun _ =>
        performs_typed _ _
  | .call span callee arguments => by
      have inferred := performs_inferAll dutiful owned arguments
      cases callee with
      | name name =>
          rw [Resolver.infer, Surroundings.infer]
          apply Performs.bind dutiful inferred
          intro argumentTypes
          exact .bind dutiful (performs_resolveNameCall dutiful owned _ _) fun _ =>
            performs_typed _ _
      | member memberSpan receiver selector =>
          rw [Resolver.infer, Surroundings.infer]
          apply Performs.bind dutiful inferred
          intro argumentTypes
          apply Performs.bind dutiful (performs_infer dutiful owned receiver)
          intro receiverType
          apply Performs.bind dutiful (performs_resolveMemberCall dutiful owned _ _ _)
          intro type
          exact .bind dutiful (performs_recordType _ _) fun _ => performs_typed _ _
      | _ =>
          rw [Resolver.infer, Surroundings.infer]
          · apply Performs.bind dutiful inferred
            intro argumentTypes
            apply Performs.bind dutiful (performs_infer dutiful owned _)
            intro calleeType
            exact .bind dutiful (performs_resolveValueCall dutiful _ _ _ _ _) fun _ =>
              performs_typed _ _
          all_goals simp

theorem performs_inferAll (dutiful : demand.Dutiful base) (owned : around.Owned) :
    (values : List Tree.Expr) →
    Performs base demand scope around (inferAll demand scope values)
      (around.inferAll values)
  | [] => by
      rw [Resolver.inferAll, Surroundings.inferAll]
      exact .of_pure _
  | value :: rest => by
      rw [Resolver.inferAll, Surroundings.inferAll]
      apply Performs.bind dutiful (performs_infer dutiful owned value)
      intro type
      exact .bind dutiful (performs_inferAll dutiful owned rest) fun _ => .of_pure _

end

end Expressions

end Gloss
