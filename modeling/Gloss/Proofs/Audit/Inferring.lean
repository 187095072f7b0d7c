import Gloss.Proofs.Audit.Candidates

/-!
# The audit of inference mirrors inference

Inference never lapses where all meanings of names are sound.  The types of
expressions come out saturated, so a function type that is called can be taken
apart.  Every expression is visited once and adds its tally to the ledger.
-/

namespace Gloss.Audit

open ResolutionState

variable {start : ResolutionState} {active : List NodeRef} {inquiry : Inquiry} {demand : Demand}

/-! ### Calls -/

theorem mirrors_signature (reliable : Reliable start active inquiry demand)
    {receiver : Substitution} (saturated : receiver.IsSaturated) {candidate : Descriptor}
    (callable : candidate.Callable start.deferred.keys) :
    Mirrors start active (signature inquiry receiver candidate)
      (Resolver.signature demand receiver candidate) 0
      fun judged => judged.result.isSaturated = true := by
  cases candidate with
  | invoke called type =>
      obtain ⟨parameters, result, unpacked, parts, -, saturatedResult⟩ :=
        unpack_eq_pure callable.1 callable.2
      simp only [signature, Resolver.signature, unpacked, parts, pure_bind, Option.getD_some]
      exact .of_pure saturatedResult
  | «class» declared =>
      apply Mirrors.of_current
      intro state agrees inferred
      exact .of_pure (ClassDescriptor.isSaturated_defaultType callable.nameable)
  | function declared =>
      apply (mirrors_returnType reliable callable).after
      intro result saturatedResult
      exact .of_pure (NominalType.isSaturated_substitute saturated result saturatedResult)
  | specialized | «variable» | typeParameter | error => exact callable.elim

theorem mirrors_signatures (reliable : Reliable start active inquiry demand)
    {receiver : Substitution} (saturated : receiver.IsSaturated) {candidates : List Descriptor}
    (callable : ∀ candidate ∈ candidates, candidate.Callable start.deferred.keys) :
    Mirrors start active (signatures inquiry receiver candidates)
      (Resolver.signatures demand receiver candidates) 0
      fun judged => ∀ signature ∈ judged, signature.result.isSaturated = true := by
  induction candidates with
  | nil => exact .of_pure fun _ none => absurd none List.not_mem_nil
  | cons candidate rest ih =>
      obtain ⟨callableFirst, callableRest⟩ := List.forall_mem_cons.mp callable
      apply (mirrors_signature reliable saturated callableFirst).after
      intro first saturatedFirst
      apply (ih callableRest).after
      intro later saturatedLater
      exact .of_pure (List.forall_mem_cons.mpr ⟨saturatedFirst, saturatedLater⟩)

/-- Whatever becomes of a call, its type is saturated. -/
theorem mirrors_resolveCall (reliable : Reliable start active inquiry demand) (reference : NodeRef)
    (name : String) {candidates : List Descriptor}
    (callable : ∀ candidate ∈ candidates, candidate.Callable start.deferred.keys)
    {arguments : List NominalType}
    (saturatedArguments : ∀ argument ∈ arguments, argument.isSaturated = true)
    {receiver : Substitution} (saturated : receiver.IsSaturated) :
    Mirrors start active (resolveCall inquiry reference name candidates arguments receiver)
      (Resolver.resolveCall demand reference name candidates arguments receiver)
      (Tally.entry .meaning reference) fun value => value.isSaturated = true := by
  apply (mirrors_signatures reliable saturated callable).after
  intro judged saturatedResults
  apply Mirrors.of_current
  intro state agrees inferred
  cases choice : Choice.among judged arguments with
  | none =>
      apply (mirrors_unresolved reference name).andThen
      intro _ _
      exact .of_pure rfl
  | mismatch only =>
      apply (mirrors_record reference _).andThen
      intro _ _
      apply (mirrors_report _ _).after
      intro _ _
      exact .of_pure (saturatedResults only (Choice.mem_of_among_eq_mismatch choice))
  | inapplicable =>
      apply (mirrors_report _ _).after
      intro _ _
      apply (mirrors_markUnresolved reference).andThen
      intro _ _
      exact .of_pure rfl
  | ambiguous winners =>
      apply (mirrors_markAmbiguous reference _).andThen
      intro _ _
      apply (mirrors_report _ _).after
      intro _ _
      exact .of_pure rfl
  | chosen best =>
      obtain ⟨signature, isJudged, accepted⟩ := Choice.exists_accept?_of_among_eq_chosen choice
      apply (mirrors_record reference _).andThen
      intro _ _
      exact .of_pure (signature.isSaturated_result_of_accept? accepted
        (saturatedResults signature isJudged) saturatedArguments)

/-- The members of a receiver are sound, and so is what its arguments stand for. -/
theorem mirrors_membersOf (firm : start.Firm start.deferred.keys) {receiver : NominalType}
    (saturated : receiver.isSaturated = true) (name : String) :
    Mirrors start active (follow (Resolver.membersOf receiver name))
      (Resolver.membersOf receiver name) 0
      fun found => (∀ member ∈ found.1, member.Sound start.deferred.keys) ∧
        Substitution.IsSaturated found.2 := by
  have soundTop : ∀ member ∈ Library.anyClass.membersNamed name,
      member.Sound start.deferred.keys := by
    intro member isNamed
    have inClass := (List.mem_filter.mp isNamed).1
    exact (Library.sound_of_mem_classes List.mem_cons_self _).members member inClass
  refine Mirrors.of_reader (?_ : ∀ state, (Resolver.membersOf receiver name).run state =
    (((Resolver.membersOf receiver name).run state).1, state)) ?_
  · intro state
    simp only [Resolver.membersOf, StateT.run_bind, StateT.run_get, pure_bind]
    cases state.class? receiver.constructor <;> rfl
  · intro state agrees
    simp only [Resolver.membersOf, StateT.run_bind, StateT.run_get, pure_bind]
    cases found : state.class? receiver.constructor with
    | none => exact ⟨soundTop, Substitution.isSaturated_empty⟩
    | some entry =>
        have sameClass : start.class? receiver.constructor = some entry := by
          rw [← found, class?, class?, agrees.classes]
        have sound := firm.sound_of_class? sameClass
        refine ⟨?_, Substitution.isSaturated_ofList_zip
          (NominalType.isSaturated_iff.mp saturated).2 _⟩
        change ∀ member ∈ (if (entry.membersNamed name).isEmpty then
          Library.anyClass.membersNamed name else entry.membersNamed name), _
        split
        · exact soundTop
        · exact fun member isNamed => sound.members member (List.mem_filter.mp isNamed).1

/-! ### References in expressions -/

section References

variable (reliable : Reliable start active inquiry demand)
  (firm : start.Firm start.deferred.keys)

include reliable firm

theorem mirrors_resolveValue (scope : Nat) (name : Tree.SimpleName) :
    Mirrors start active (resolveValue inquiry scope name) (Resolver.resolveValue demand scope name)
      (Tally.entry .meaning name.node.ref) fun value => value.isSaturated = true := by
  apply Mirrors.of_current
  intro state agrees inferred
  cases found : state.scopes.lookup scope SymbolKind.isValue name.text with
  | nil =>
      apply (mirrors_unresolved _ _).andThen
      intro _ _
      exact .of_pure rfl
  | cons symbol rest =>
      have sound := (firm.of_agrees agrees inferred).sound_of_mem_lookup
        (found ▸ List.mem_cons_self : symbol ∈ state.scopes.lookup scope _ name.text)
      apply (mirrors_record _ _).andThen
      intro _ _
      cases meaning : symbol.descriptor with
      | «variable» holder => exact mirrors_variableType reliable (meaning ▸ sound.descriptor)
      | _ => exact .of_pure rfl

theorem mirrors_resolveCallableRef (scope : Nat) (name : Tree.SimpleName) :
    Mirrors start active (resolveCallableRef inquiry scope name)
      (Resolver.resolveCallableRef demand scope name)
      (Tally.entry .meaning name.node.ref + Tally.entry .type name.node.ref)
      fun value => value.isSaturated = true := by
  apply Mirrors.of_current
  intro state agrees inferred
  have firmNow := firm.of_agrees agrees inferred
  rcases found : state.scopes.lookup scope (fun kind => kind = .function) name.text with
    _ | ⟨symbol, _ | ⟨second, rest⟩⟩
  · apply (mirrors_unresolved _ _).bind
    intro _ _
    exact mirrors_typed rfl _
  · have sound := firmNow.sound_of_mem_lookup
      (found ▸ List.mem_cons_self : symbol ∈ state.scopes.lookup scope _ name.text)
    apply (mirrors_record _ _).bind
    intro _ _
    apply (mirrors_valueType reliable sound.descriptor).after
    intro type saturated
    exact mirrors_typed saturated _
  · apply (mirrors_markAmbiguous _ _).bind
    intro _ _
    apply (mirrors_report _ _).after
    intro _ _
    exact mirrors_typed rfl _

theorem mirrors_resolveSelector {receiver : NominalType} (saturated : receiver.isSaturated = true)
    (selector : Tree.SimpleName) :
    Mirrors start active (resolveSelector inquiry receiver selector)
      (Resolver.resolveSelector demand receiver selector)
      (Tally.entry .meaning selector.node.ref + Tally.entry .type selector.node.ref)
      fun value => value.isSaturated = true := by
  simp only [resolveSelector, Resolver.resolveSelector]
  split
  · apply (mirrors_recordError _ _).bind
    intro type saturatedType
    exact mirrors_typed saturatedType _
  · apply (mirrors_membersOf firm saturated _).after
    rintro ⟨members, substitution⟩ ⟨sound, saturatedSubstitution⟩
    dsimp only at sound saturatedSubstitution ⊢
    cases found : members.filterMap Resolver.asProperty? with
    | nil =>
        apply (mirrors_unresolved _ _).bind
        intro _ _
        exact mirrors_typed rfl _
    | cons property rest =>
        have isFound : property ∈ members.filterMap Resolver.asProperty? :=
          found ▸ List.mem_cons_self
        obtain ⟨member, isMember, isProperty⟩ := List.mem_filterMap.mp isFound
        have soundProperty : (Descriptor.variable (.property property)).Sound
            start.deferred.keys := by
          unfold Resolver.asProperty? at isProperty
          split at isProperty
          · cases isProperty
            exact sound _ isMember
          · cases isProperty
        apply (mirrors_record _ _).bind
        intro _ _
        apply (mirrors_variableType reliable soundProperty).after
        intro type saturatedType
        exact mirrors_typed
          (NominalType.isSaturated_substitute saturatedSubstitution type saturatedType) _

theorem mirrors_resolveMemberCall {receiver : NominalType}
    (saturated : receiver.isSaturated = true) (selector : Tree.SimpleName)
    {arguments : List NominalType}
    (saturatedArguments : ∀ argument ∈ arguments, argument.isSaturated = true) :
    Mirrors start active (resolveMemberCall inquiry receiver selector arguments)
      (Resolver.resolveMemberCall demand receiver selector arguments)
      (Tally.entry .meaning selector.node.ref + Tally.entry .type selector.node.ref)
      fun value => value.isSaturated = true := by
  simp only [resolveMemberCall, Resolver.resolveMemberCall]
  split
  · apply (mirrors_recordError _ _).bind
    intro type saturatedType
    exact mirrors_typed saturatedType _
  · apply (mirrors_membersOf firm saturated _).after
    rintro ⟨members, substitution⟩ ⟨sound, saturatedSubstitution⟩
    apply (mirrors_callables reliable sound).after
    intro candidates callable
    apply (mirrors_resolveCall reliable _ _ callable saturatedArguments
      saturatedSubstitution).bind
    intro type saturatedType
    exact mirrors_typed saturatedType _

theorem mirrors_resolveNameCall (scope : Nat) (name : Tree.SimpleName)
    {arguments : List NominalType}
    (saturatedArguments : ∀ argument ∈ arguments, argument.isSaturated = true) :
    Mirrors start active (resolveNameCall inquiry scope name arguments)
      (Resolver.resolveNameCall demand scope name arguments)
      (Tally.entry .meaning name.node.ref + Tally.entry .type name.node.ref)
      fun value => value.isSaturated = true := by
  apply Mirrors.of_current
  intro state agrees inferred
  have firmNow := firm.of_agrees agrees inferred
  have sound : ∀ level ∈ state.scopes.levels scope, ∀ symbol ∈ level.symbols,
      symbol.descriptor.Sound start.deferred.keys :=
    fun level isLevel symbol inLevel => (firmNow.sound_of_mem_levels isLevel inLevel).descriptor
  apply (mirrors_callablesAt reliable _ sound).after
  intro candidates callable
  apply (mirrors_resolveCall reliable _ _ callable saturatedArguments
    Substitution.isSaturated_empty).bind
  intro type saturatedType
  exact mirrors_typed saturatedType _

theorem mirrors_resolveOperator {left right : NominalType}
    (saturatedLeft : left.isSaturated = true) (saturatedRight : right.isSaturated = true)
    (use : Tree.OperatorRef) :
    Mirrors start active (resolveOperator inquiry left right use)
      (Resolver.resolveOperator demand left right use)
      (Tally.entry .meaning (Node.operator use).ref) fun value => value.isSaturated = true := by
  have comes {type : NominalType} (saturated : type.isSaturated = true) :
      (if use.operator.isComparison then Library.boolean else type).isSaturated = true := by
    split
    · rfl
    · exact saturated
  simp only [resolveOperator, Resolver.resolveOperator]
  split
  · apply (mirrors_recordError _ _).andThen
    intro type saturated
    exact .of_pure (comes saturated)
  · apply (mirrors_membersOf firm saturatedLeft _).after
    rintro ⟨members, substitution⟩ ⟨sound, saturatedSubstitution⟩
    have callable : ∀ candidate ∈ members.filter Resolver.isFunction,
        candidate.Callable start.deferred.keys := by
      intro candidate isCandidate
      obtain ⟨isMember, isFunction⟩ := List.mem_filter.mp isCandidate
      have soundMember := sound candidate isMember
      cases candidate with
      | function declared => exact soundMember
      | specialized => exact absurd soundMember.nameable Bool.false_ne_true
      | _ => cases isFunction
    apply (mirrors_resolveCall reliable _ _ callable (by simpa using saturatedRight)
      saturatedSubstitution).andThen
    intro type saturated
    exact .of_pure (comes saturated)

end References

/-! ### Expressions -/

theorem mirrors_resolveValueCall (call callee : NodeRef) {calleeType : NominalType}
    (saturated : calleeType.isSaturated = true) (argumentTypes : List NominalType)
    (arguments : List Tree.Expr) :
    Mirrors start active (resolveValueCall call callee calleeType argumentTypes arguments)
      (Resolver.resolveValueCall call callee calleeType argumentTypes arguments) 0
      fun value => value.isSaturated = true := by
  unfold resolveValueCall Resolver.resolveValueCall
  split
  · exact .of_pure rfl
  · cases isFunction : Library.functionArity? calleeType with
    | none =>
        have noParts : Library.functionParts? calleeType = none := by
          simp only [Library.functionParts?, isFunction]
        simp only [noParts]
        apply (mirrors_report _ _).after
        intro _ _
        exact .of_pure rfl
    | some arity =>
        obtain ⟨parameters, result, unpacked, parts, -, saturatedResult⟩ :=
          unpack_eq_pure (by rw [isFunction]; rfl) saturated
        simp only [unpacked, parts, pure_bind]
        have compared : Mirrors start active
            (follow (Resolver.expectArguments argumentTypes parameters arguments))
            (Resolver.expectArguments argumentTypes parameters arguments) 0 fun _ => True :=
          .of_quiet (Resolver.quiet_expectArguments _ _ _) fun _ => trivial
        split
        · apply (mirrors_report _ _).after
          intro _ _
          exact compared.after fun _ _ => .of_pure saturatedResult
        · exact compared.after fun _ _ => .of_pure saturatedResult

mutual

/-- The audit of an expression, one case for each form of it. -/
theorem mirrors_infer (reliable : Reliable start active inquiry demand)
    (firm : start.Firm start.deferred.keys) (scope : Nat) (value : Tree.Expr) :
    Mirrors start active (infer inquiry scope value) (Resolver.infer demand scope value)
      value.tally fun type => type.isSaturated = true := by
  cases value with
  | name name =>
      rw [infer, Resolver.infer, Tree.Expr.tally_name]
      apply Mirrors.of_visit
      apply (mirrors_resolveValue reliable firm scope name).bind
      intro type saturated
      exact mirrors_typed saturated _
  | integer | text | boolean | null =>
      rw [infer, Resolver.infer, Tree.Expr.tally_leaf (by simp) rfl rfl]
      apply Mirrors.of_visit
      exact mirrors_typed rfl _
  | callableRef span target =>
      rw [infer, Resolver.infer, Tree.Expr.tally_callableRef]
      apply Mirrors.of_visit
      apply (mirrors_resolveCallableRef reliable firm scope target).bind
      intro type saturated
      exact mirrors_typed saturated _
  | paren span inner =>
      rw [infer, Resolver.infer, Tree.Expr.tally_paren]
      apply Mirrors.of_visit
      apply (mirrors_infer reliable firm scope inner).bind
      intro type saturated
      exact mirrors_typed saturated _
  | ifThen span condition thenBranch =>
      rw [infer, Resolver.infer, Tree.Expr.tally_ifThen]
      apply Mirrors.of_visit
      apply (mirrors_infer reliable firm scope condition).bind
      intro _ _
      apply (mirrors_expect _ _ _).after
      intro _ _
      apply (mirrors_infer reliable firm scope thenBranch).bind
      intro _ _
      exact mirrors_typed rfl _
  | ifElse span condition thenBranch elseBranch =>
      rw [infer, Resolver.infer, Tree.Expr.tally_ifElse]
      apply Mirrors.of_visit
      apply (mirrors_infer reliable firm scope condition).bind
      intro _ _
      apply (mirrors_expect _ _ _).after
      intro _ _
      apply (mirrors_infer reliable firm scope thenBranch).bind
      intro thenType saturatedThen
      apply (mirrors_infer reliable firm scope elseBranch).bind
      intro elseType saturatedElse
      exact mirrors_typed (NominalType.isSaturated_join saturatedThen saturatedElse) _
  | member span receiver selector =>
      rw [infer, Resolver.infer, Tree.Expr.tally_member]
      apply Mirrors.of_visit
      apply (mirrors_infer reliable firm scope receiver).bind
      intro receiverType saturatedReceiver
      apply (mirrors_resolveSelector reliable firm saturatedReceiver selector).bind
      intro type saturated
      exact mirrors_typed saturated _
  | binary span left use right =>
      rw [infer, Resolver.infer, Tree.Expr.tally_binary]
      apply Mirrors.of_visit
      apply (mirrors_infer reliable firm scope left).bind
      intro leftType saturatedLeft
      apply (mirrors_infer reliable firm scope right).bind
      intro rightType saturatedRight
      apply (mirrors_resolveOperator reliable firm saturatedLeft saturatedRight use).bind
      intro type saturated
      exact mirrors_typed saturated _
  | call span callee arguments =>
      have inferred := mirrors_inferAll reliable firm scope arguments
      cases callee with
      | name name =>
          rw [infer, Resolver.infer, Tree.Expr.tally_callName]
          apply Mirrors.of_visit
          apply inferred.bind
          intro argumentTypes saturatedArguments
          apply (mirrors_resolveNameCall reliable firm scope name saturatedArguments).bind
          intro type saturated
          exact mirrors_typed saturated _
      | member memberSpan receiver selector =>
          rw [infer, Resolver.infer, Tree.Expr.tally_callMember]
          apply Mirrors.of_visit
          apply inferred.bind
          intro argumentTypes saturatedArguments
          apply (mirrors_infer reliable firm scope receiver).bind
          intro receiverType saturatedReceiver
          apply (mirrors_resolveMemberCall reliable firm saturatedReceiver selector
            saturatedArguments).bind
          intro type saturated
          apply (mirrors_recordType _ _).bind
          intro _ _
          exact mirrors_typed saturated _
      | integer | text | boolean | null | callableRef | paren | ifThen | ifElse | call
      | binary =>
          rw [infer, Resolver.infer, Tree.Expr.tally_call span arguments (by simp) (by simp)]
          · apply Mirrors.of_visit
            apply inferred.bind
            intro argumentTypes _
            apply (mirrors_infer reliable firm scope _).bind
            intro calleeType saturatedCallee
            apply (mirrors_resolveValueCall _ _ saturatedCallee _ _).after
            intro type saturated
            exact mirrors_typed saturated _
          all_goals simp

theorem mirrors_inferAll (reliable : Reliable start active inquiry demand)
    (firm : start.Firm start.deferred.keys) (scope : Nat) (values : List Tree.Expr) :
    Mirrors start active (inferAll inquiry scope values) (Resolver.inferAll demand scope values)
      (Tree.Expr.tallyAll values) fun types => ∀ type ∈ types, type.isSaturated = true := by
  cases values with
  | nil => exact .of_pure fun _ none => absurd none List.not_mem_nil
  | cons value rest =>
      rw [inferAll, Resolver.inferAll, Tree.Expr.tallyAll_cons]
      apply (mirrors_infer reliable firm scope value).bind
      intro type saturated
      apply (mirrors_inferAll reliable firm scope rest).andThen
      intro later saturatedLater
      exact .of_pure (List.forall_mem_cons.mpr ⟨saturated, saturatedLater⟩)

end

end Gloss.Audit
