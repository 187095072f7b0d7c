import Gloss.Proofs.Order
import Gloss.Proofs.Resolution.Outcomes
import Gloss.Proofs.Typing.FunctionMembers

/-!
# Operators and calls of members

An operator calls the member that it is named after.  It looks for functions only, where a call
of a member looks for whatever can be called; as long as the member is no property the two find
the same candidates, and so come to the same.
-/

namespace Gloss

open Gloss.Tree ResolutionState

/-! ### What a call comes to -/

/-- What a reference that is called comes to, wherever it stands. -/
structure CallResult where
  meaning : Meaning Descriptor
  problems : List Problem
  type : NominalType

namespace CallResult

/-- A member of something that has no meaning itself. -/
def error (name : String) : CallResult where
  meaning := .target (.error name)
  problems := []
  type := .error

/-- What a choice among candidates comes to. -/
def ofChoice (inferred : InferredTypes) (name : String) (count : Nat)
    (arguments : List NominalType) : Choice → CallResult
  | .none =>
      { meaning := .unresolved, problems := [.unresolvedReference name], type := .error }
  | .mismatch only =>
      { meaning := .target only.candidate
        problems := [.argumentMismatch arguments (only.candidate.render inferred)]
        type := only.result }
  | .inapplicable =>
      { meaning := .unresolved, problems := [.noneApplicable count name arguments]
        type := .error }
  | .ambiguous winners =>
      { meaning := .ambiguous (winners.map Applicable.candidate)
        problems := [.overloadAmbiguity name winners.length], type := .error }
  | .chosen best =>
      { meaning := .target (Resolver.callTarget inferred best), problems := []
        type := best.result }

/-- What is written down about a reference. -/
def remarks (result : CallResult) (reference : NodeRef) : List Remark :=
  .meaning reference result.meaning ::
    result.problems.map fun problem => .problem { problem, node := reference }

end CallResult

namespace Resolver

variable {demand : Demand} {members : List Descriptor}

/-- A call comes to the choice among the judged candidates. -/
theorem run_resolveCall {candidates : List Descriptor} {receiver : Substitution}
    {before after : ResolutionState} {judged : List Signature}
    (runs : (signatures demand receiver candidates).run before = pure (judged, after))
    (name : String) (arguments : List NominalType) (reference : NodeRef) :
    let result := CallResult.ofChoice after.inferred name candidates.length arguments
      (Choice.among judged arguments)
    (resolveCall demand reference name candidates arguments receiver).run before =
      pure (result.type, after.remarkAll (result.remarks reference)) := by
  intro result
  rw [resolveCall, StateT.run_bind, runs, pure_bind, StateT.run_bind, StateT.run_get, pure_bind]
  unfold result
  cases Choice.among judged arguments <;> rfl

/-- What belongs to no class has the members of the top class. -/
theorem run_membersOf_of_noClass {receiver : NominalType} {state : ResolutionState}
    (found : state.class? receiver.constructor = none) (name : String) :
    (membersOf receiver name).run state =
      pure ((Library.anyClass.membersNamed name, .empty), state) := by
  rw [membersOf, StateT.run_bind, StateT.run_get, pure_bind, found]
  rfl

/-- The members of a class hide those of the top class. -/
theorem run_membersOf_of_class {receiver : NominalType} {state : ResolutionState}
    {entry : ClassEntry} (found : state.class? receiver.constructor = some entry) (name : String) :
    (membersOf receiver name).run state =
      pure ((if (entry.membersNamed name).isEmpty then Library.anyClass.membersNamed name
        else entry.membersNamed name, entry.instancesIn receiver), state) := by
  rw [membersOf, StateT.run_bind, StateT.run_get, pure_bind, found]
  rfl

theorem asCallable_of_isFunction {member : Descriptor} (function : isFunction member = true) :
    asCallable demand member = pure (some member) := by
  cases member with
  | function | specialized => rfl
  | _ => cases function

/-- All functions among some members can be called, and no type is asked for. -/
theorem callables_of_isFunction (functions : ∀ member ∈ members, isFunction member = true) :
    callables demand members = pure members := by
  induction members with
  | nil => rfl
  | cons first rest ih =>
      obtain ⟨isFirst, areRest⟩ := List.forall_mem_cons.mp functions
      rw [callables, asCallable_of_isFunction isFirst, ih areRest]
      rfl

end Resolver

/-! ### Members of a file's classes -/

namespace ResolutionState

variable {contents : List TopLevel} {base state : ResolutionState} {name : String}

/-- A member of a class is a function or a property. -/
theorem Laid.isFunction_or_isProperty (laid : base.Laid contents)
    {constructor : TypeConstructor} {entry : ClassEntry}
    (found : base.class? constructor = some entry) {member : Descriptor}
    (isMember : member ∈ entry.members) :
    Resolver.isFunction member = true ∨ (Resolver.asProperty? member).isSome := by
  have library : ∀ entry ∈ Library.classes, ∀ member ∈ entry.members,
      Resolver.isFunction member = true ∨ (Resolver.asProperty? member).isSome := by
    decide
  rcases laid.declared_or_provided found isMember with
    ⟨declaration, -, introduction, isIntroduced, rfl⟩ | ⟨provided, isClass, isMember⟩
  · rcases List.mem_append.mp isIntroduced with isProperty | isMember
    · obtain ⟨parameter, -, declared⟩ := List.mem_flatMap.mp isProperty
      obtain ⟨binding, -, rfl⟩ := Option.map_eq_some_iff.mp (Option.mem_toList.mp declared)
      exact .inr rfl
    · obtain ⟨inner, -, rfl⟩ := List.mem_map.mp isMember
      cases inner with
      | function declared => exact .inl rfl
      | property declared => exact .inr rfl
  · exact library provided isClass member isMember

/-- What a type has under a name are functions only, unless its class has a property. -/
theorem Laid.isFunction_of_mem_membersOf (laid : base.Laid contents)
    (classes : state.classes = base.classes) (receiver : NominalType)
    (noProperty : ∀ entry, state.class? receiver.constructor = some entry →
      ∀ member ∈ entry.membersNamed name, Resolver.asProperty? member = none) :
    ∃ members substitution,
      (Resolver.membersOf receiver name).run state = pure ((members, substitution), state) ∧
        ∀ member ∈ members, Resolver.isFunction member = true := by
  have library : ∀ member ∈ Library.anyClass.members, Resolver.isFunction member = true := by
    decide
  have ofAny (member : Descriptor) (isNamed : member ∈ Library.anyClass.membersNamed name) :=
    library member (List.mem_of_mem_filter isNamed)
  have same : state.class? receiver.constructor = base.class? receiver.constructor := by
    rw [class?, class?, classes]
  cases found : state.class? receiver.constructor with
  | none => exact ⟨_, _, Resolver.run_membersOf_of_noClass found name, ofAny⟩
  | some entry =>
      refine ⟨_, _, Resolver.run_membersOf_of_class found name, fun member isMember => ?_⟩
      split at isMember
      · exact ofAny member isMember
      · have inClass := List.mem_of_mem_filter isMember
        rcases laid.isFunction_or_isProperty (same ▸ found) inClass with isFunction | isProperty
        · exact isFunction
        · rw [noProperty entry found member isMember] at isProperty
          cases isProperty

end ResolutionState

/-! ### Operators -/

namespace Resolver

variable {name : String} {text : List Char} {resolution : Resolution}

/-- An operator and a call of the member that it is named after come to the same in every state
of a file whose class for the receiver has no property of that name: they mean the same, or are
ambiguous between the same candidates, or are both unresolved, and the same problems are
reported, each at its own reference.  What has no meaning has members without one.  The operators
that calculate have the type of the call, and those that compare have a truth value. -/
theorem operator_eq_member_call (readable : Resolution.read name text = .ok resolution)
    (demand : Demand) (before : ResolutionState)
    (classes : before.classes = resolution.state.classes) (left right : NominalType)
    (use : OperatorRef) (selector : SimpleName) (isNamed : selector.text = use.operator.memberName)
    (noProperty : ∀ entry, before.class? left.constructor = some entry →
      ∀ member ∈ entry.membersNamed use.operator.memberName, asProperty? member = none) :
    ∃ (middle : ResolutionState) (result : CallResult),
      (resolveMemberCall demand left selector [right]).run before =
          pure (result.type, middle.remarkAll
            (result.remarks selector.node.ref ++ [.typed selector.node.ref result.type])) ∧
        (resolveOperator demand left right use).run before =
            pure (if use.operator ∈ [.plus, .minus, .times, .divide, .remainder] then result.type
                else Library.boolean,
              middle.remarkAll (result.remarks (Node.operator use).ref)) ∧
          (left.isError = true → result = .error use.operator.memberName) := by
  obtain ⟨file, parsed, rfl⟩ := Resolution.eq_ofFile_of_read readable
  obtain ⟨base, laid, -, continues⟩ :=
    exists_played file (Grammar.wellPlaced_of_read parsed).fillsOnce
  obtain ⟨members, substitution, looked, functions⟩ :=
    laid.isFunction_of_mem_membersOf (classes.trans continues.classes) left noProperty
  have arithmetic (type : NominalType) :
      (if use.operator.isComparison then Library.boolean else type) =
        if use.operator ∈ [.plus, .minus, .times, .divide, .remainder] then type
        else Library.boolean := by
    cases use.operator <;> rfl
  by_cases isError : left.isError = true
  · refine ⟨before, .error use.operator.memberName, ?_, ?_, fun _ => rfl⟩
    · rw [resolveMemberCall, if_pos isError, isNamed]
      rfl
    · rw [resolveOperator, if_pos isError, ← arithmetic]
      rfl
  · obtain ⟨judged, middle, judges⟩ : ∃ judged middle,
        (signatures demand substitution members).run before = pure (judged, middle) := ⟨_, _, rfl⟩
    have resolved := run_resolveCall judges use.operator.memberName [right]
    refine ⟨middle, .ofChoice middle.inferred use.operator.memberName members.length [right]
      (Choice.among judged [right]), ?_, ?_, fun isError' => absurd isError' isError⟩
    · rw [resolveMemberCall, if_neg isError, isNamed, StateT.run_bind, looked, pure_bind]
      simp only [callables_of_isFunction functions, pure_bind, StateT.run_bind, resolved]
      rw [remarkAll_append]
      rfl
    · have kept : members.filter isFunction = members := List.filter_eq_self.mpr functions
      rw [resolveOperator, if_neg isError, ← arithmetic, StateT.run_bind, looked, pure_bind]
      simp only [kept, StateT.run_bind, resolved]
      rfl

/-- A pair adds a value of any type, or a number, so the sum with a truth value is a call of the
generic function. -/
theorem operator_eq_member_call_in_pair :
    ∃ (resolution : Resolution) (left : NominalType),
      Resolution.read "sample" ("class Pair<T>(val v: T) \x7b\nfun <U> plus(o: U): T = v\n" ++
          "fun plus(o: Int): Int = o\n\x7d\nfun f(p: Pair<String>) = p + true").toList =
          .ok resolution ∧
        resolution.type? ⟨.name, ⟨105, 106⟩⟩ = some left ∧
          (∀ entry, resolution.state.class? left.constructor = some entry →
            ∀ member ∈ entry.membersNamed "plus", asProperty? member = none) ∧
            ∃ (middle : ResolutionState) (result : CallResult),
              (resolveMemberCall Resolver.demand left ⟨⟨120, 124⟩, "plus"⟩
                  [Library.boolean]).run resolution.state =
                  pure (result.type, middle.remarkAll
                    (result.remarks ⟨.name, ⟨120, 124⟩⟩ ++
                      [.typed ⟨.name, ⟨120, 124⟩⟩ result.type])) ∧
                (resolveOperator Resolver.demand left Library.boolean ⟨⟨107, 108⟩, .plus⟩).run
                    resolution.state =
                    pure (result.type,
                      middle.remarkAll (result.remarks ⟨.operator, ⟨107, 108⟩⟩)) ∧
                  result.type = Library.string := by
  have checked :
      ((Resolution.read "sample" ("class Pair<T>(val v: T) \x7b\nfun <U> plus(o: U): T = v\n" ++
          "fun plus(o: Int): Int = o\n\x7d\nfun f(p: Pair<String>) = p + true").toList).toOption.any
        fun resolution => decide (∃ left ∈ resolution.type? ⟨.name, ⟨105, 106⟩⟩,
          (∀ entry ∈ resolution.state.class? left.constructor,
            ∀ member ∈ entry.membersNamed "plus", asProperty? member = none) ∧
            ((resolveOperator Resolver.demand left Library.boolean ⟨⟨107, 108⟩, .plus⟩).run
              resolution.state).1 = Library.string)) = true := by
    decide +kernel
  obtain ⟨resolution, readable, left, isLeft, noProperty, isString⟩ :=
    Resolution.exists_of_read checked
  obtain ⟨middle, result, called, operated, -⟩ := operator_eq_member_call readable
    Resolver.demand resolution.state rfl left Library.boolean ⟨⟨107, 108⟩, .plus⟩
    ⟨⟨120, 124⟩, "plus"⟩ rfl noProperty
  rw [operated] at isString
  exact ⟨resolution, left, readable, isLeft, noProperty, middle, result, called, operated, isString⟩

end Resolver

end Gloss
