import Gloss.Proofs.Typing.Overloads
import Gloss.Proofs.Resolution.Outcomes
import Gloss.Proofs.Typing.Substitutions

/-!
# Calls of function-typed members

A member of function type can be called at once, or its value can be taken first and be called
then.  The value is seen through what the receiver's arguments stand for; the call at once goes
by the type that the member has in its class.  The two agree where that type mentions none of
the type parameters that the receiver has arguments for.
-/

namespace Gloss

/-- Whether a problem is about arguments or values that do not fit. -/
def Problem.isMismatch (problem : Problem) : Bool :=
  problem.label = "argument-mismatch" || problem.label = "type-mismatch"

namespace ResolutionState

/-- Whether a mismatch was reported since an earlier state. -/
def hasNewMismatch (before after : ResolutionState) : Bool :=
  (after.diagnostics.drop before.diagnostics.length).any fun found => found.problem.isMismatch

theorem hasNewMismatch_of_append {before after : ResolutionState} (added : List Diagnostic)
    (appended : after.diagnostics = before.diagnostics ++ added) :
    before.hasNewMismatch after = added.any fun found => found.problem.isMismatch := by
  rw [hasNewMismatch, appended, List.drop_left]

end ResolutionState

namespace NominalType

theorem substitute_empty (type : NominalType) : type.substitute .empty = type := by
  induction type using induct with
  | step type ih =>
      have same : type.arguments.map (substitute .empty) = type.arguments :=
        (List.map_congr_left ih).trans (List.map_id' _)
      obtain ⟨constructor, arguments, nullable⟩ := type
      rw [substitute_of_get?_eq_none rfl, same]

/-- A type stays as it is where nothing is put in for what it mentions. -/
theorem substitute_of_unbound {substitution : Substitution} (type : NominalType)
    (unbound : ∀ constructor ∈ type.constructors, substitution.get? constructor = none) :
    type.substitute substitution = type :=
  (substitute_congr type unbound).trans type.substitute_empty

end NominalType

theorem Substitution.fits_empty_iff {arguments parameters : List NominalType} :
    Substitution.Fits .empty arguments parameters ↔
      List.Forall₂ (fun argument parameter : NominalType => argument.isSubtype parameter = true)
        arguments parameters := by
  rw [Fits, List.map_congr_left fun type _ => type.substitute_empty, List.map_id']

/-- What the type parameters of a class stand for in the members of a receiver. -/
def ClassEntry.instancesIn (entry : ClassEntry) (receiver : NominalType) : Substitution :=
  Table.ofList
    ((entry.descriptor.typeParameters.map TypeParameterDescriptor.constructor).zip
      receiver.arguments)

/-! ### Function types -/

namespace Library

variable {parameters : List NominalType} {result : NominalType} {nullable : Bool}

theorem functionArity?_functionType :
    functionArity? (functionType parameters result nullable) = some parameters.length := rfl

theorem functionParts?_functionType :
    functionParts? (functionType parameters result nullable) = some (parameters, result) := by
  have isLast : (parameters ++ [result]).getLast? = some result := List.getLast?_concat
  have front : (parameters ++ [result]).dropLast = parameters := List.dropLast_concat
  simp only [functionParts?, functionArity?_functionType]
  rw [functionType, isLast, front]

/-- The class of functions stays, unless something is put in for it. -/
theorem substitute_functionType {substitution : Substitution}
    (stays : substitution.get? (functionClass parameters.length).constructor = none) :
    (functionType parameters result nullable).substitute substitution =
      functionType (parameters.map (.substitute substitution)) (result.substitute substitution)
        nullable := by
  rw [NominalType.substitute_of_get?_eq_none stays]
  simp only [functionType, List.map_append, List.map_cons, List.map_nil, List.length_map]

end Library

/-- A signature without type variables accepts just what fits its parameters, and a call of it
has its result. -/
theorem Signature.accept?_of_noUnknowns (signature : Signature) (arguments : List NominalType)
    (noUnknowns : signature.unknowns = []) :
    ((signature.accept? arguments).isSome ↔
        Substitution.Fits .empty arguments signature.parameters) ∧
      ∀ applicable, signature.accept? arguments = some applicable →
        applicable.result = signature.result := by
  have nothing : signature.inferred arguments = .empty := by
    rw [Signature.inferred, noUnknowns]
    rfl
  have accepts (type : NominalType) := @Signature.accept?_eq_some_iff signature arguments type
  simp only [nothing, NominalType.substitute_empty] at accepts
  refine ⟨⟨fun isAccepted => ?_, fun fits => ?_⟩, fun applicable accepted => ?_⟩
  · obtain ⟨applicable, accepted⟩ := Option.isSome_iff_exists.mp isAccepted
    exact ((accepts applicable.result).mp (by rw [accepted]; rfl)).1
  · obtain ⟨applicable, accepted, -⟩ :=
      Option.map_eq_some_iff.mp ((accepts signature.result).mpr ⟨fits, rfl⟩)
    rw [accepted]
    rfl
  · exact ((accepts applicable.result).mp (by rw [accepted]; rfl)).2.symm

namespace Resolver

variable {demand : Demand} {state before : ResolutionState} {reference node : NodeRef}
  {parameters arguments : List NominalType} {result type receiver : NominalType} {nullable : Bool}

/-! ### Calling a value -/

/-- The mismatches between arguments and parameter types. -/
def mismatches : List NominalType → List NominalType → List Tree.Expr → List Diagnostic
  | argument :: arguments, parameter :: parameters, expression :: expressions =>
      let found : Diagnostic :=
        { problem := .typeMismatch argument parameter, node := expression.node.ref }
      (if argument.isSubtype parameter then [] else [found]) ++
        mismatches arguments parameters expressions
  | _, _, _ => []

theorem diagnostics_expectArguments (arguments parameters : List NominalType)
    (expressions : List Tree.Expr) (state : ResolutionState) :
    ((expectArguments arguments parameters expressions).run state).2.diagnostics =
      state.diagnostics ++ mismatches arguments parameters expressions := by
  fun_induction mismatches arguments parameters expressions generalizing state with
  | case1 argument arguments parameter parameters expression expressions found ih =>
      rw [expectArguments, StateT.run_bind]
      by_cases fits : argument.isSubtype parameter = true
      · rw [expect, if_pos fits, if_pos fits]
        exact ih state
      · rw [expect, if_neg fits, if_neg fits, ← List.append_assoc]
        exact ih _
  | case2 arguments parameters expressions other =>
      rw [expectArguments]
      · exact (List.append_nil _).symm
      · exact other

theorem any_mismatches_eq_false_iff {expressions : List Tree.Expr}
    (parametersMatch : arguments.length = parameters.length)
    (expressionsMatch : arguments.length = expressions.length) :
    ((mismatches arguments parameters expressions).any fun found => found.problem.isMismatch) =
        false ↔
      Substitution.Fits .empty arguments parameters := by
  rw [Substitution.fits_empty_iff]
  induction arguments generalizing parameters expressions with
  | nil =>
      have noParameters := List.length_eq_zero_iff.mp parametersMatch.symm
      rw [noParameters]
      exact ⟨fun _ => .nil, fun _ => rfl⟩
  | cons argument rest ih =>
      match parameters, expressions, parametersMatch, expressionsMatch with
      | parameter :: parameters, expression :: expressions, parametersMatch, expressionsMatch =>
          have later := ih (Nat.succ.inj parametersMatch) (Nat.succ.inj expressionsMatch)
          rw [mismatches, List.any_append, Bool.or_eq_false_iff, List.forall₂_cons, later]
          by_cases fits : argument.isSubtype parameter = true
          · simp [fits]
          · simp [fits, Problem.isMismatch, Problem.label]

/-- A called value of function type gives its result; what does not fit is reported. -/
theorem run_resolveValueCall_functionType (call callee : NodeRef) (before : ResolutionState)
    (result : NominalType) (nullable : Bool) {expressions : List Tree.Expr}
    (parameters : List NominalType) (expressionsMatch : arguments.length = expressions.length) :
    let called := (resolveValueCall call callee (Library.functionType parameters result nullable)
      arguments expressions).run before
    called.1 = result ∧
      (before.hasNewMismatch called.2 = true ↔
        ¬ Substitution.Fits .empty arguments parameters) := by
  intro called
  have noError : (Library.functionType parameters result nullable).isError = false := rfl
  unfold called resolveValueCall
  rw [noError, Library.functionParts?_functionType]
  by_cases parametersMatch : parameters.length = arguments.length
  · have appended := diagnostics_expectArguments arguments parameters expressions before
    have reported := ResolutionState.hasNewMismatch_of_append _ appended
    have noMismatch := any_mismatches_eq_false_iff parametersMatch.symm expressionsMatch
    rw [← reported] at noMismatch
    simp only [Bool.false_eq_true, if_false, ne_eq, parametersMatch, not_true_eq_false]
    refine ⟨rfl, ?_⟩
    rw [← noMismatch, Bool.not_eq_false]
    rfl
  · have notFitting : ¬ Substitution.Fits .empty arguments parameters := fun fits =>
      parametersMatch (Substitution.fits_iff.mp fits).1.symm
    simp only [Bool.false_eq_true, if_false, ne_eq, parametersMatch, not_false_eq_true, if_true]
    refine ⟨rfl, iff_of_true ?_ notFitting⟩
    have appended := diagnostics_expectArguments arguments parameters expressions
      ((report (.argumentCount parameters.length arguments.length) call).run before).2
    have reported := ResolutionState.hasNewMismatch_of_append _
      (appended.trans (List.append_assoc _ _ _))
    refine reported.trans ?_
    rfl

/-! ### Members -/

section Members

variable {entry : ClassEntry} {property : PropertyDescriptor} {selector : Tree.SimpleName}

theorem run_variableType_of_known
    (known : (VariableDescriptor.property property).type? before.inferred = some type) :
    (variableType demand (.property property)).run before = pure (type, before) := by
  apply run_settle_of_known
  rw [← known, VariableDescriptor.type?]
  cases property.type <;> rfl

theorem run_membersOf {member : Descriptor} {name : String}
    (found : before.class? receiver.constructor = some entry)
    (only : entry.membersNamed name = [member]) :
    (membersOf receiver name).run before =
      pure (([member], entry.instancesIn receiver), before) := by
  rw [membersOf, StateT.run_bind, StateT.run_get, pure_bind, found]
  simp only [only]
  rfl

/-- The value of a property is seen through what the receiver's arguments stand for. -/
theorem run_resolveSelector (demand : Demand) (sound : receiver.isError = false)
    (found : before.class? receiver.constructor = some entry)
    (only : entry.membersNamed selector.text = [.variable (.property property)])
    (known : (VariableDescriptor.property property).type? before.inferred = some type) :
    ∃ after, (resolveSelector demand receiver selector).run before =
        pure (type.substitute (entry.instancesIn receiver), after) ∧
      after.diagnostics = before.diagnostics := by
  let node := selector.node.ref
  let recorded := ((record node (.variable (.property property))).run before).2
  have entered : (resolveSelector demand receiver selector).run before =
      (variableType demand (.property property) >>= fun type =>
        typed node (type.substitute (entry.instancesIn receiver))).run recorded := by
    rw [resolveSelector, sound, if_neg Bool.false_ne_true, StateT.run_bind,
      run_membersOf found only, pure_bind]
    rfl
  have isKnown : (variableType demand (.property property)).run recorded = pure (type, recorded) :=
    run_variableType_of_known known
  rw [entered, StateT.run_bind, isKnown, pure_bind]
  exact ⟨_, rfl, rfl⟩

/-- A member of function type is called through the type that it has in its class. -/
theorem run_callables (known : (VariableDescriptor.property property).type? before.inferred =
      some (Library.functionType parameters result nullable)) :
    (callables demand [.variable (.property property)]).run before =
      pure ([.invoke (.property property) (Library.functionType parameters result nullable)],
        before) := by
  simp only [callables, asCallable, StateT.run_bind, run_variableType_of_known known, pure_bind]
  rfl

theorem signatureIn_invoke {called : VariableDescriptor} {substitution : Substitution} :
    signatureIn demand before substitution
        (.invoke called (Library.functionType parameters result nullable)) =
      { candidate := .invoke called (Library.functionType parameters result nullable)
        parameters, result, unknowns := [] } := by
  unfold signatureIn signature
  dsimp only
  rw [Library.functionParts?_functionType]
  rfl

/-- A called member of function type gives the result that its type has in its class, and what
does not fit the parameters of that type is reported. -/
theorem run_resolveMemberCall (sound : receiver.isError = false)
    (found : before.class? receiver.constructor = some entry)
    (only : entry.membersNamed selector.text = [.variable (.property property)])
    (known : (VariableDescriptor.property property).type? before.inferred =
      some (Library.functionType parameters result nullable)) :
    let called := (resolveMemberCall demand receiver selector arguments).run before
    called.1 = result ∧
      (before.hasNewMismatch called.2 = true ↔
        ¬ Substitution.Fits .empty arguments parameters) := by
  intro called
  let candidate : Descriptor :=
    .invoke (.property property) (Library.functionType parameters result nullable)
  have chosen : called = (resolveCall demand selector.node.ref selector.text [candidate] arguments
      (entry.instancesIn receiver) >>= typed selector.node.ref).run before := by
    unfold called
    rw [resolveMemberCall, sound, if_neg Bool.false_ne_true, StateT.run_bind,
      run_membersOf found only, pure_bind, StateT.run_bind, run_callables known, pure_bind]
  have isKnown : ∀ one ∈ [candidate], one.hasKnownResult before.inferred = true :=
    List.forall_mem_singleton.mpr rfl
  let judged : Signature := { candidate, parameters, result, unknowns := [] }
  rw [chosen, resolveCall, bind_assoc, run_signatures_bind_of_known _ isKnown, List.map_singleton,
    signatureIn_invoke, Choice.among_singleton]
  obtain ⟨accepts, hasResult⟩ := judged.accept?_of_noUnknowns arguments rfl
  cases accepted : judged.accept? arguments with
  | none =>
      rw [accepted] at accepts
      have notFitting : ¬ Substitution.Fits .empty arguments parameters := fun fits =>
        Bool.false_ne_true (accepts.mpr fits)
      refine ⟨rfl, iff_of_true ?_ notFitting⟩
      let mismatch : Diagnostic :=
        { problem := .argumentMismatch arguments (candidate.render before.inferred)
          node := selector.node.ref }
      exact (ResolutionState.hasNewMismatch_of_append [mismatch] rfl).trans rfl
  | some applicable =>
      rw [accepted] at accepts
      have fits : Substitution.Fits .empty arguments parameters := accepts.mp rfl
      refine ⟨hasResult applicable accepted, iff_of_false ?_ (not_not.mpr fits)⟩
      have nothingAdded : before.diagnostics = before.diagnostics ++ [] :=
        (List.append_nil _).symm
      rw [Bool.not_eq_true]
      exact ResolutionState.hasNewMismatch_of_append [] nothingAdded

/-- Nothing is put in for a class. -/
theorem get?_instancesIn_of_isClass
    (proper : ∀ parameter ∈ entry.descriptor.typeParameters,
      parameter.constructor.kind = .typeParameter) (receiver : NominalType)
    {constructor : TypeConstructor} (isClass : constructor.kind = .class) :
    (entry.instancesIn receiver).get? constructor = none := by
  cases found : (entry.instancesIn receiver).get? constructor with
  | none => rfl
  | some type =>
      have isPair := Table.mem_of_get?_ofList found
      obtain ⟨parameter, isParameter, same⟩ := List.mem_map.mp (List.of_mem_zip isPair).1
      have kind := proper parameter isParameter
      rw [same, isClass] at kind
      cases kind

theorem length_inferAll (scope : Nat) (expressions : List Tree.Expr) (state : ResolutionState) :
    ((inferAll demand scope expressions).run state).1.length = expressions.length := by
  induction expressions generalizing state with
  | nil => rfl
  | cons expression rest ih =>
      rw [inferAll]
      exact congrArg Nat.succ (ih _)

section Called

variable {scope : Nat} {called : Tree.Expr} {expressions : List Tree.Expr}
  {start middle : ResolutionState}
  (inferredArguments : (inferAll demand scope expressions).run start = pure (arguments, middle))
  (inferredReceiver : (infer demand scope called).run middle = pure (receiver, before))
  (sound : receiver.isError = false)
  (found : before.class? receiver.constructor = some entry)
  (only : entry.membersNamed selector.text = [.variable (.property property)])
  (known : (VariableDescriptor.property property).type? before.inferred =
    some (Library.functionType parameters result nullable))

include inferredArguments inferredReceiver sound found only known

theorem infer_call_member (span memberSpan : Span) :
    let member := (infer demand scope
      (.call span (.member memberSpan called selector) expressions)).run start
    member.1 = result ∧
      (before.hasNewMismatch member.2 = true ↔
        ¬ Substitution.Fits .empty arguments parameters) := by
  intro member
  have entered : member = (resolveMemberCall demand receiver selector arguments >>= fun type => do
      recordType (Tree.Expr.member memberSpan called selector).node.ref type
      typed (Tree.Expr.call span (.member memberSpan called selector) expressions).node.ref
        type).run before := by
    unfold member
    rw [infer, StateT.run_bind, inferredArguments, pure_bind, StateT.run_bind, inferredReceiver,
      pure_bind]
  rw [entered]
  exact run_resolveMemberCall sound found only known

theorem infer_call_value
    (stays : (entry.instancesIn receiver).get?
      (Library.functionClass parameters.length).constructor = none)
    (sameLength : arguments.length = expressions.length) (span parenSpan memberSpan : Span) :
    let value := (infer demand scope
      (.call span (.paren parenSpan (.member memberSpan called selector)) expressions)).run start
    value.1 = result.substitute (entry.instancesIn receiver) ∧
      (before.hasNewMismatch value.2 = true ↔
        ¬ (entry.instancesIn receiver).Fits arguments parameters) := by
  intro value
  obtain ⟨after, selected, sameDiagnostics⟩ :=
    run_resolveSelector demand sound found only known
  rw [Library.substitute_functionType stays] at selected
  let type := Library.functionType (parameters.map (.substitute (entry.instancesIn receiver)))
    (result.substitute (entry.instancesIn receiver)) nullable
  let callee := Tree.Expr.paren parenSpan (.member memberSpan called selector)
  let seen := ((recordType callee.node.ref type).run
    ((recordType (Tree.Expr.member memberSpan called selector).node.ref type).run after).2).2
  have entered : value = (resolveValueCall (Tree.Expr.call span callee expressions).node.ref
      callee.node.ref type arguments expressions >>=
        typed (Tree.Expr.call span callee expressions).node.ref).run seen := by
    unfold value
    rw [infer, StateT.run_bind, inferredArguments, pure_bind, infer, infer]
    · simp only [StateT.run_bind, inferredReceiver, pure_bind, selected]
      rfl
    · exact fun _ same => nomatch same
    · exact fun _ _ _ same => nomatch same
  obtain ⟨hasResult, mismatch⟩ := run_resolveValueCall_functionType
    (Tree.Expr.call span callee expressions).node.ref callee.node.ref seen
    (result.substitute (entry.instancesIn receiver)) nullable
    (parameters.map (.substitute (entry.instancesIn receiver))) sameLength
  rw [Substitution.fits_empty_iff] at mismatch
  rw [entered]
  refine ⟨hasResult, Iff.trans ?_ mismatch⟩
  rw [ResolutionState.hasNewMismatch, ResolutionState.hasNewMismatch, ← sameDiagnostics]
  rfl

end Called

/-- Where the only member with a name is a property of function type, a call of the member has
the result of that type, and what does not fit its parameters is reported as a mismatch.  A call
of the member's value has the result, and compares the arguments with the parameters, as they
are seen in the receiver.  So the two calls agree for each list of arguments where the function
type mentions no type parameter that the receiver has an argument for. -/
theorem infer_call_member_eq_infer_call_value (demand : Demand) (scope : Nat)
    (span memberSpan otherSpan parenSpan otherMemberSpan : Span) (called : Tree.Expr)
    (selector : Tree.SimpleName) (expressions : List Tree.Expr)
    {start middle before : ResolutionState} {entry : ClassEntry} {property : PropertyDescriptor}
    {receiver result : NominalType} {arguments parameters : List NominalType} {nullable : Bool}
    (inferredArguments : (inferAll demand scope expressions).run start = (arguments, middle))
    (inferredReceiver : (infer demand scope called).run middle = (receiver, before))
    (sound : receiver.isError = false)
    (found : before.class? receiver.constructor = some entry)
    (proper : ∀ parameter ∈ entry.descriptor.typeParameters,
      parameter.constructor.kind = .typeParameter)
    (only : entry.membersNamed selector.text = [.variable (.property property)])
    (known : (VariableDescriptor.property property).type? before.inferred =
      some (Library.functionType parameters result nullable)) :
    let instances := entry.instancesIn receiver
    let member := (infer demand scope
      (.call span (.member memberSpan called selector) expressions)).run start
    let value := (infer demand scope (.call otherSpan
      (.paren parenSpan (.member otherMemberSpan called selector)) expressions)).run start
    (member.1 = result ∧ value.1 = result.substitute instances) ∧
      ((before.hasNewMismatch member.2 = true ↔ ¬ Substitution.Fits .empty arguments parameters) ∧
        (before.hasNewMismatch value.2 = true ↔ ¬ instances.Fits arguments parameters)) ∧
        ((∀ constructor ∈ (Library.functionType parameters result nullable).constructors,
            instances.get? constructor = none) →
          member.1 = value.1 ∧ before.hasNewMismatch member.2 = before.hasNewMismatch value.2) := by
  intro instances member value
  have sameLength : arguments.length = expressions.length := by
    rw [← length_inferAll scope expressions start, inferredArguments]
  have stays : instances.get? (Library.functionClass parameters.length).constructor = none :=
    get?_instancesIn_of_isClass proper receiver rfl
  obtain ⟨memberType, memberMismatch⟩ :=
    infer_call_member inferredArguments inferredReceiver sound found only known span memberSpan
  obtain ⟨valueType, valueMismatch⟩ :=
    infer_call_value inferredArguments inferredReceiver sound found only known stays sameLength
      otherSpan parenSpan otherMemberSpan
  refine ⟨⟨memberType, valueType⟩, ⟨memberMismatch, valueMismatch⟩, fun unbound => ?_⟩
  have sameResult : result.substitute instances = result :=
    result.substitute_of_unbound fun constructor occurs => unbound constructor
      (NominalType.mem_constructors_of_argument (List.mem_append_right _ List.mem_cons_self) occurs)
  have sameParameters : parameters.map (.substitute instances) = parameters := by
    have each : ∀ parameter ∈ parameters, parameter.substitute instances = parameter :=
      fun parameter isParameter => parameter.substitute_of_unbound fun constructor occurs =>
        unbound constructor (NominalType.mem_constructors_of_argument
          (List.mem_append_left _ isParameter) occurs)
    exact (List.map_congr_left each).trans (List.map_id' _)
  have sameFit : Substitution.Fits .empty arguments parameters ↔
      instances.Fits arguments parameters := by
    rw [Substitution.fits_empty_iff, Substitution.Fits, sameParameters]
  refine ⟨memberType.trans (sameResult.symm.trans valueType.symm), ?_⟩
  rw [Bool.eq_iff_iff, memberMismatch, valueMismatch, sameFit]

/-- A list of numbers is called with a member that takes numbers: the argument does not fit,
however the member is called. -/
theorem infer_call_member_eq_infer_call_value_of_strings :
    let item := Library.typeParameter "Box" (some "Box") "T"
    let box : ClassDescriptor :=
      { name := "Box", declaration := some ⟨.class, ⟨0, 1⟩⟩, typeParameters := [item]
        constructor := { origin := .declared ⟨.class, ⟨0, 1⟩⟩, name := "Box", kind := .class } }
    let type := Library.functionType [Library.int] Library.string false
    let property : PropertyDescriptor :=
      { name := "f", declaration := none, container := some "Box", type, binding := .val }
    let entry : ClassEntry := { descriptor := box, members := [.variable (.property property)] }
    let receiver : NominalType :=
      { constructor := box.constructor, arguments := [Library.list Library.int] }
    let symbol : Symbol Descriptor :=
      { name := "b", kind := .variable
        descriptor := .variable
          (.local { name := "b", declaration := none, type := receiver, binding := .val }) }
    let start : ResolutionState :=
      { ResolutionState.initial with
        classes := .ofList [(box.constructor, entry)]
        scopes := ResolutionState.initial.scopes.define ResolutionState.fileScope symbol }
    let called := Tree.Expr.name ⟨⟨10, 11⟩, "b"⟩
    let selector : Tree.SimpleName := ⟨⟨12, 13⟩, "f"⟩
    let expressions := [Tree.Expr.text ⟨14, 17⟩ "x"]
    let middle := ((inferAll Resolver.demand ResolutionState.fileScope expressions).run start).2
    let before := ((infer Resolver.demand ResolutionState.fileScope called).run middle).2
    let member := (infer Resolver.demand ResolutionState.fileScope
      (.call ⟨10, 18⟩ (.member ⟨10, 13⟩ called selector) expressions)).run start
    let value := (infer Resolver.demand ResolutionState.fileScope
      (.call ⟨20, 30⟩ (.paren ⟨20, 25⟩ (.member ⟨21, 24⟩ called selector)) expressions)).run start
    (inferAll Resolver.demand ResolutionState.fileScope expressions).run start =
        ([Library.string], middle) ∧
      (infer Resolver.demand ResolutionState.fileScope called).run middle = (receiver, before) ∧
        before.class? receiver.constructor = some entry ∧
          entry.membersNamed selector.text = [.variable (.property property)] ∧
            member.1 = Library.string ∧ member.1 = value.1 ∧
              before.hasNewMismatch member.2 = true ∧
                before.hasNewMismatch member.2 = before.hasNewMismatch value.2 := by
  intro item box type property entry receiver symbol start called selector expressions middle
    before member value
  have inferredArguments : (inferAll Resolver.demand ResolutionState.fileScope expressions).run
      start = ([Library.string], middle) := rfl
  have inferredReceiver : (infer Resolver.demand ResolutionState.fileScope called).run middle =
      (receiver, before) := rfl
  have found : before.class? receiver.constructor = some entry := rfl
  have only : entry.membersNamed selector.text = [.variable (.property property)] := rfl
  have proper : ∀ parameter ∈ entry.descriptor.typeParameters,
      parameter.constructor.kind = .typeParameter := by decide
  obtain ⟨⟨memberType, -⟩, ⟨memberMismatch, -⟩, agree⟩ :=
    infer_call_member_eq_infer_call_value Resolver.demand ResolutionState.fileScope ⟨10, 18⟩
      ⟨10, 13⟩ ⟨20, 30⟩ ⟨20, 25⟩ ⟨21, 24⟩ called selector expressions inferredArguments
      inferredReceiver rfl found proper only rfl
  obtain ⟨sameType, sameMismatch⟩ := agree (by decide)
  have notFitting : ¬ Substitution.Fits .empty [Library.string] [Library.int] := by
    rw [Substitution.fits_iff]
    decide
  exact ⟨inferredArguments, inferredReceiver, found, only, memberType, sameType,
    memberMismatch.mpr notFitting, sameMismatch⟩

end Members

end Resolver

/-- In a box of numbers, a function of its elements takes numbers as a value, and is given none
as a member: there its type is the one that it has in any box. -/
theorem Resolution.call_member_ne_call_value_in_box :
    ∃ resolution,
      read "sample" ("class Box<T>(val f: (T) -> T)\nfun g(b: Box<Int>) = b.f(1)\n" ++
          "fun h(b: Box<Int>) = (b.f)(1)").toList = .ok resolution ∧
        (resolution.type? ⟨.call, ⟨51, 57⟩⟩).any NominalType.isTypeParameter = true ∧
          resolution.type? ⟨.call, ⟨79, 87⟩⟩ = some Library.int ∧
            resolution.diagnostics.map (fun found => (found.problem.label, found.node)) =
              [("argument-mismatch", ⟨.name, ⟨53, 54⟩⟩)] := by
  apply exists_of_read
  decide +kernel

end Gloss
