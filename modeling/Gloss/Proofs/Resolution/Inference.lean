import Gloss.Proofs.Resolution.Calls

/-!
# Inference accounts for the references of an expression

Inferring the type of an expression enters every reference in it exactly once,
on each path through the inference: a name as a value or as what is called, a
selector after a receiver with or without a type, and an operator.  The types
that are demanded on the way enter the references that were pending.
-/

namespace Gloss

namespace Resolver

open ResolutionState

variable {start : ResolutionState} {active : List NodeRef} {demand : Demand}

theorem accounts_recordError (reference : NodeRef) (name : String) :
    Accounts start active (recordError reference name) {reference} fun _ => True := by
  apply (accounts_record reference (backs_error name)).andThen
  intro _ _
  exact .of_pure trivial

theorem accounts_expectArguments (types parameters : List NominalType)
    (arguments : List Tree.Expr) :
    Accounts start active (expectArguments types parameters arguments) 0 fun _ => True := by
  fun_induction expectArguments types parameters arguments with
  | case1 type types parameter parameters argument arguments ih =>
      apply (accounts_expect _ _ _).after
      intro _ _
      exact ih
  | case2 => exact .of_pure trivial

theorem accounts_resolveValueCall (call callee : NodeRef) (calleeType : NominalType)
    (argumentTypes : List NominalType) (arguments : List Tree.Expr) :
    Accounts start active (resolveValueCall call callee calleeType argumentTypes arguments) 0
      fun _ => True := by
  unfold resolveValueCall
  split
  · exact .of_pure trivial
  · split
    · apply (accounts_report _ _).after
      intro _ _
      exact .of_pure trivial
    · split
      · apply (accounts_report _ _).after
        intro _ _
        apply (accounts_expectArguments _ _ _).after
        intro _ _
        exact .of_pure trivial
      · apply (accounts_expectArguments _ _ _).after
        intro _ _
        exact .of_pure trivial

section References

variable (answers : Answers start active demand) (grounded : start.Grounded)

include answers grounded

theorem accounts_resolveValue (scope : Nat) (name : Tree.SimpleName) :
    Accounts start active (resolveValue demand scope name) {name.node.ref} fun _ => True := by
  apply Accounts.of_get
  intro state agrees
  cases found : state.scopes.lookup scope SymbolKind.isValue name.text with
  | nil =>
      apply (accounts_unresolved _ _).andThen
      intro _ _
      exact .of_pure trivial
  | cons symbol rest =>
      have backs : start.Backs symbol.descriptor :=
        grounded.backs_of_mem_lookup agrees (found ▸ List.mem_cons_self)
      apply (accounts_record _ backs).andThen
      intro _ _
      split
      · exact accounts_variableType answers _
      · exact .of_pure trivial

theorem accounts_resolveCallableRef (scope : Nat) (name : Tree.SimpleName) :
    Accounts start active (resolveCallableRef demand scope name) {name.node.ref}
      fun _ => True := by
  apply Accounts.of_get
  intro state agrees
  split
  · apply (accounts_unresolved _ _).andThen
    intro _ _
    exact accounts_typed _ _
  · next symbol found =>
      have backs : start.Backs symbol.descriptor :=
        grounded.backs_of_mem_lookup agrees (found ▸ List.mem_singleton_self symbol)
      apply (accounts_record _ backs).andThen
      intro _ _
      apply (accounts_valueType answers _).after
      intro _ _
      exact accounts_typed _ _
  · apply (accounts_markAmbiguous _ _).andThen
    intro _ _
    apply (accounts_report _ _).after
    intro _ _
    exact accounts_typed _ _

theorem accounts_resolveSelector (receiver : NominalType) (selector : Tree.SimpleName) :
    Accounts start active (resolveSelector demand receiver selector) {selector.node.ref}
      fun _ => True := by
  simp only [resolveSelector]
  split
  · apply (accounts_recordError _ _).andThen
    intro _ _
    exact accounts_typed _ _
  · apply (accounts_membersOf grounded _ _).after
    intro given backs
    obtain ⟨members, substitution⟩ := given
    simp only
    split
    · apply (accounts_unresolved _ _).andThen
      intro _ _
      exact accounts_typed _ _
    · next property rest found =>
        have member : property ∈ members.filterMap asProperty? :=
          found ▸ List.mem_cons_self
        obtain ⟨descriptor, inMembers, isProperty⟩ := List.mem_filterMap.mp member
        have backsProperty : start.Backs (.variable (.property property)) := by
          unfold asProperty? at isProperty
          split at isProperty
          · cases isProperty
            exact backs _ inMembers
          · cases isProperty
        apply (accounts_record _ backsProperty).andThen
        intro _ _
        apply (accounts_variableType answers _).after
        intro _ _
        exact accounts_typed _ _

theorem accounts_resolveMemberCall (receiver : NominalType) (selector : Tree.SimpleName)
    (arguments : List NominalType) :
    Accounts start active (resolveMemberCall demand receiver selector arguments)
      {selector.node.ref} fun _ => True := by
  simp only [resolveMemberCall]
  split
  · apply (accounts_recordError _ _).andThen
    intro _ _
    exact accounts_typed _ _
  · apply (accounts_membersOf grounded _ _).after
    intro given backs
    obtain ⟨members, substitution⟩ := given
    apply (accounts_callables answers backs).after
    intro candidates backsCandidates
    apply (accounts_resolveCall answers _ _ backsCandidates _ _).andThen
    intro _ _
    exact accounts_typed _ _

theorem accounts_resolveNameCall (scope : Nat) (name : Tree.SimpleName)
    (arguments : List NominalType) :
    Accounts start active (resolveNameCall demand scope name arguments) {name.node.ref}
      fun _ => True := by
  apply Accounts.of_get
  intro state agrees
  have backs : ∀ level ∈ state.scopes.levels scope, ∀ symbol ∈ level.symbols,
      start.Backs symbol.descriptor := by
    rw [agrees.scopes]
    exact fun level member => grounded.symbols level (Scopes.mem_of_mem_levels member)
  apply (accounts_callablesAt answers _ backs).after
  intro candidates backsCandidates
  apply (accounts_resolveCall answers _ _ backsCandidates _ _).andThen
  intro _ _
  exact accounts_typed _ _

theorem accounts_resolveOperator (left right : NominalType) (use : Tree.OperatorRef) :
    Accounts start active (resolveOperator demand left right use) {(Node.operator use).ref}
      fun _ => True := by
  simp only [resolveOperator]
  split
  · apply (accounts_recordError _ _).andThen
    intro _ _
    exact .of_pure trivial
  · apply (accounts_membersOf grounded _ _).after
    intro given backs
    obtain ⟨members, substitution⟩ := given
    have backsFunctions : ∀ member ∈ members.filter isFunction, start.Backs member :=
      fun member inFiltered => backs member (List.mem_filter.mp inFiltered).1
    apply (accounts_resolveCall answers _ _ backsFunctions _ _).andThen
    intro _ _
    exact .of_pure trivial

end References

mutual

/-- Inference accounts for the references of an expression, one case for each
form of it. -/
theorem accounts_infer (answers : Answers start active demand) (grounded : start.Grounded)
    (scope : Nat) (value : Tree.Expr) :
    Accounts start active (infer demand scope value) (Node.expression value).references
      fun _ => True := by
  cases value with
  | name name =>
      rw [infer, Node.references_name]
      apply (accounts_resolveValue answers grounded scope name).andThen
      intro _ _
      exact accounts_typed _ _
  | integer | text | boolean | null =>
      simp only [infer, Node.references_integer, Node.references_text,
        Node.references_boolean, Node.references_null]
      exact accounts_typed _ _
  | callableRef span target =>
      rw [infer, Node.references_callableRef]
      apply (accounts_resolveCallableRef answers grounded scope target).andThen
      intro _ _
      exact accounts_typed _ _
  | paren span inner =>
      rw [infer, Node.references_paren]
      apply (accounts_infer answers grounded scope inner).andThen
      intro _ _
      exact accounts_typed _ _
  | ifThen span condition thenBranch =>
      rw [infer, Node.references_ifThen]
      apply (accounts_infer answers grounded scope condition).bind
      intro _ _
      apply (accounts_expect _ _ _).after
      intro _ _
      apply (accounts_infer answers grounded scope thenBranch).andThen
      intro _ _
      exact accounts_typed _ _
  | ifElse span condition thenBranch elseBranch =>
      rw [infer, Node.references_ifElse, add_assoc]
      apply (accounts_infer answers grounded scope condition).bind
      intro _ _
      apply (accounts_expect _ _ _).after
      intro _ _
      apply (accounts_infer answers grounded scope thenBranch).bind
      intro _ _
      apply (accounts_infer answers grounded scope elseBranch).andThen
      intro _ _
      exact accounts_typed _ _
  | member span receiver selector =>
      rw [infer, Node.references_member]
      apply (accounts_infer answers grounded scope receiver).bind
      intro _ _
      apply (accounts_resolveSelector answers grounded _ selector).andThen
      intro _ _
      exact accounts_typed _ _
  | binary span left use right =>
      rw [infer, Node.references_binary, add_assoc, add_comm {(Node.operator use).ref}]
      apply (accounts_infer answers grounded scope left).bind
      intro _ _
      apply (accounts_infer answers grounded scope right).bind
      intro _ _
      apply (accounts_resolveOperator answers grounded _ _ use).andThen
      intro _ _
      exact accounts_typed _ _
  | call span callee arguments =>
      have inferred := accounts_inferAll answers grounded scope arguments
      rw [Node.references_call, add_comm]
      cases callee with
      | name name =>
          rw [infer, Node.references_name]
          apply inferred.bind
          intro argumentTypes _
          apply (accounts_resolveNameCall answers grounded scope name argumentTypes).andThen
          intro _ _
          exact accounts_typed _ _
      | member memberSpan receiver selector =>
          rw [infer, Node.references_member]
          apply inferred.bind
          intro argumentTypes _
          apply (accounts_infer answers grounded scope receiver).bind
          intro receiverType _
          apply (accounts_resolveMemberCall answers grounded receiverType selector
            argumentTypes).andThen
          intro _ _
          apply (accounts_recordType _ _).after
          intro _ _
          exact accounts_typed _ _
      | integer | text | boolean | null | callableRef | paren | ifThen | ifElse | call
      | binary =>
          rw [infer]
          · apply inferred.bind
            intro _ _
            apply (accounts_infer answers grounded scope _).andThen
            intro _ _
            apply (accounts_resolveValueCall _ _ _ _ _).after
            intro _ _
            exact accounts_typed _ _
          · intro _ none
            cases none
          · intro _ _ _ none
            cases none

theorem accounts_inferAll (answers : Answers start active demand) (grounded : start.Grounded)
    (scope : Nat) (values : List Tree.Expr) :
    Accounts start active (inferAll demand scope values)
      (values.map fun value => (Node.expression value).references).sum fun _ => True := by
  cases values with
  | nil => exact .of_pure trivial
  | cons value rest =>
      rw [inferAll, List.map_cons, List.sum_cons]
      apply (accounts_infer answers grounded scope value).bind
      intro _ _
      apply (accounts_inferAll answers grounded scope rest).andThen
      intro _ _
      exact .of_pure trivial

end

end Resolver

end Gloss

/-!
### Demands for open types

A demand for the type of a declaration that was put off infers its body, which
is no longer pending from then on.  A declaration that is demanded while it is
being inferred itself is not inferred again.  The argument is by induction on
the number of declarations that may still become active.
-/

namespace Gloss

namespace Resolver

open ResolutionState

variable {start : ResolutionState} {active : List NodeRef} {node : NodeRef}

theorem run_demandWithin (depth : Nat) (active : List NodeRef) (node : NodeRef)
    (state : ResolutionState) :
    (demandWithin depth active node).run state =
      (match state.deferred.get? node with
        | none => pure .error
        | some deferred =>
            if node ∈ active then do
              report (.recursiveType deferred.name) node
              remember node .error
            else
              match depth with
              | 0 => pure .error
              | depth + 1 => do
                  let type ←
                    infer (demandWithin depth (node :: active)) deferred.scope deferred.body
                  remember node type : Resolver NominalType).run state := by
  rw [demandWithin]
  rfl

theorem resolves_self {state : ResolutionState} (agrees : start.Agrees state) :
    start.Resolves active 0 state state :=
  ⟨agrees, fun _ known => known, fun _ known => .inl known, .of_eq rfl rfl⟩

/-- Remembering the type of an active declaration leaves no less to do. -/
theorem resolves_remember_of_mem {state : ResolutionState} (agrees : start.Agrees state)
    (deferred : node ∈ start.deferred.keys) (isActive : node ∈ active) (type : NominalType) :
    start.Resolves active 0 state ((remember node type).run state).2 := by
  refine ⟨⟨agrees.1, agrees.2, agrees.3, agrees.4, agrees.5, agrees.6, agrees.7, agrees.8⟩,
    ?_, ?_, .of_eq rfl ?_⟩
  · intro other known
    exact Table.isSome_get?_insert type known
  · intro other known
    change ((state.inferred.insert node type).get? other).isSome at known
    rw [Table.get?_insert] at known
    split at known
    · next same => exact .inr (same ▸ deferred)
    · exact .inl known
  · simp only [pending_eq_openWeight]
    exact (openWeight_remember type).trans (openWeight_cons_of_mem isActive)

/-- A declaration that depends on itself is reported and leaves no less to do. -/
theorem resolves_recursive {state : ResolutionState} {name : String}
    (agrees : start.Agrees state) (deferred : node ∈ start.deferred.keys)
    (isActive : node ∈ active) :
    start.Resolves active 0 state
      ((do
        report (.recursiveType name) node
        remember node .error : Resolver NominalType).run state).2 := by
  have reported : Accounts start active (report (.recursiveType name) node) 0 fun _ => True :=
    accounts_report _ _
  obtain ⟨resolves, -⟩ := reported state agrees
  exact (resolves.trans (resolves_remember_of_mem resolves.agrees deferred isActive .error))

/-- The type of a declaration is remembered once its body is inferred. -/
theorem resolves_remember {state middle : ResolutionState} {deferred : Deferred}
    (resolves : start.Resolves (node :: active) (Node.expression deferred.body).references
      state middle)
    (agrees : start.Agrees state) (distinct : start.deferred.keys.Nodup)
    (found : state.deferred.get? node = some deferred)
    (notInferred : state.inferred.get? node = none) (notActive : node ∉ active)
    (type : NominalType) :
    start.Resolves active 0 state ((remember node type).run middle).2 := by
  have agreesMiddle := resolves.agrees
  have inKeys : node ∈ start.deferred.keys := by
    rw [← agrees.deferred]
    exact Table.mem_keys_of_get? found
  have inferred : ∀ other, ((remember node type).run middle).2.inferred.get? other =
      if node = other then some type else middle.inferred.get? other :=
    fun other => Table.get?_insert _ _ _ _
  refine ⟨⟨agreesMiddle.1, agreesMiddle.2, agreesMiddle.3, agreesMiddle.4, agreesMiddle.5,
    agreesMiddle.6, agreesMiddle.7, agreesMiddle.8⟩, ?_, ?_, ?_⟩
  · intro other known
    rw [inferred]
    split
    · rfl
    · exact resolves.keepsInferred other known
  · intro other known
    rw [inferred] at known
    split at known
    · next same => exact .inr (same ▸ inKeys)
    · exact resolves.inferredDeferred other known
  · obtain ⟨entries, bindings, backed, count⟩ := resolves.entered
    refine ⟨entries, bindings, backed, ?_⟩
    have after : ((remember node type).run middle).2.pending active =
        middle.pending (node :: active) := by
      simp only [pending_eq_openWeight]
      exact openWeight_remember type
    have distinctState : state.deferred.keys.Nodup := by rwa [agrees.deferred]
    rw [after, count, zero_add, pending_eq_openWeight, pending_eq_openWeight,
      openWeight_eq_add distinctState found notInferred notActive]

theorem mem_keys_of_get? {state : ResolutionState} {deferred : Deferred}
    (agrees : start.Agrees state) (found : state.deferred.get? node = some deferred) :
    node ∈ start.deferred.keys := by
  rw [← agrees.deferred]
  exact Table.mem_keys_of_get? found

/-- However deep demands may go, what they enter was pending before. -/
theorem answers_demandWithin (grounded : start.Grounded) (depth : Nat)
    (active : List NodeRef) : Answers start active (demandWithin depth active) := by
  induction depth generalizing active with
  | zero =>
      intro node state agrees notInferred
      rw [run_demandWithin]
      cases found : state.deferred.get? node with
      | none => exact resolves_self agrees
      | some deferred =>
          by_cases isActive : node ∈ active
          · simp only [isActive, if_true]
            exact resolves_recursive agrees (mem_keys_of_get? agrees found) isActive
          · simp only [isActive, if_false]
            exact resolves_self agrees
  | succ depth ih =>
      intro node state agrees notInferred
      rw [run_demandWithin]
      cases found : state.deferred.get? node with
      | none => exact resolves_self agrees
      | some deferred =>
          by_cases isActive : node ∈ active
          · simp only [isActive, if_true]
            exact resolves_recursive agrees (mem_keys_of_get? agrees found) isActive
          · simp only [isActive, if_false]
            have inferred := accounts_infer (ih (node :: active)) grounded deferred.scope
              deferred.body state agrees
            exact resolves_remember inferred.1 agrees grounded.deferredOnce found notInferred
              isActive _

theorem answers_demand (grounded : start.Grounded) : Answers start [] demand :=
  fun node state agrees notInferred =>
    answers_demandWithin grounded state.deferred.size [] node state agrees notInferred

/-- A declaration whose type was put off has a type once it was demanded. -/
theorem inferred_of_demand {state : ResolutionState} (deferred : node ∈ state.deferred.keys) :
    (((demand node).run state).2.inferred.get? node).isSome := by
  have run : (demand node).run state =
      (demandWithin state.deferred.size [] node).run state := rfl
  obtain ⟨entry, member, -⟩ := List.mem_map.mp deferred
  have positive : 0 < state.deferred.size := List.length_pos_of_mem member
  obtain ⟨depth, isSize⟩ : ∃ depth, state.deferred.size = depth + 1 :=
    ⟨state.deferred.size - 1, by omega⟩
  rw [run, isSize, run_demandWithin]
  cases found : state.deferred.get? node with
  | none => exact absurd deferred (Table.get?_eq_none_iff.mp found)
  | some put =>
      simp only [List.not_mem_nil, if_false]
      exact Table.isSome_get?_insert_self _ _ _

theorem inferred_of_settle {state : ResolutionState} (deferred : node ∈ state.deferred.keys) :
    (((settle demand none (some node)).run state).2.inferred.get? node).isSome := by
  cases inferred : state.inferred.get? node with
  | some type =>
      rw [run_settle_of_some inferred, inferred]
      rfl
  | none =>
      rw [run_settle_of_none inferred]
      exact inferred_of_demand deferred

end Resolver

end Gloss
