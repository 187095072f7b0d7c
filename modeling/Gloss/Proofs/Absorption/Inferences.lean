import Gloss.Proofs.Absorption.Calls

/-!
# Inferences beside each other

An expression in which a name that means nothing stands for another one gets a type that absorbs
what it was, one case for each form of expression.  No mismatch is reported on the way: what
fitted before still fits, and what is an error now fits everywhere.
-/

namespace Gloss

open Gloss.Tree ResolutionState Script

/-- The classes of the library have members that are declarations. -/
theorem Library.isPlain_of_mem_classes {entry : ClassEntry} (isClass : entry ∈ Library.classes) :
    entry.IsPlain := by
  have members : ∀ entry ∈ Library.classes, ∀ member ∈ entry.members,
      member.original = member ∧ member.callParameters = [] ∧ member.typeConstructor? = none := by
    decide
  have proper : ∀ entry ∈ Library.classes, ∀ parameter ∈ entry.descriptor.typeParameters,
      parameter.constructor.kind = .typeParameter := by
    decide
  refine ⟨fun member isMember => ?_, fun owner isMember => ?_, proper entry isClass⟩
  · obtain ⟨declared, noParameters, -⟩ := members entry isClass member isMember
    refine ⟨declared, ?_⟩
    rw [noParameters]
    exact List.forall_mem_nil _
  · cases (members entry isClass _ isMember).2.2

namespace Surroundings

variable {comparison : Comparison} {now before around : Surroundings} {transcript : Transcript}

/-! ### Names -/

section Names

variable (sees : comparison.Sees now before)

include sees

/-- A name means the same symbols, as they are seen now. -/
theorem lookup_fades (accept : SymbolKind → Bool) (name : String) :
    List.Forall₂ Symbol.Fades (now.lookup accept name) (before.lookup accept name) := by
  have levels := sees.levels
  unfold lookup
  dsimp only
  revert levels
  generalize now.levels = levels
  generalize before.levels = originals
  intro levels
  induction levels with
  | nil => exact .nil
  | @cons level original _ _ fades _ ih =>
      have named : List.Forall₂ Symbol.Fades
          ((level.filter fun symbol => symbol.name = name).filter fun symbol => accept symbol.kind)
          ((original.filter fun symbol => symbol.name = name).filter fun symbol =>
            accept symbol.kind) := by
        refine List.rel_filter (fun first second same => ?_)
          (List.rel_filter (fun first second same => ?_) fades)
        · change accept first.kind = true ↔ accept second.kind = true
          rw [same.kind_eq]
        · simp only [same.name_eq]
      simp only [List.map_cons, List.find?_cons]
      revert named
      generalize (level.filter _).filter _ = found
      generalize (original.filter _).filter _ = other
      intro named
      cases named with
      | nil => exact ih
      | cons first rest => exact .cons first rest

/-- Local variables are no types, so the names of types mean what they meant. -/
theorem classifiers_eq :
    now.classifiers = before.classifiers := by
  funext name
  have fades := lookup_fades sees SymbolKind.isClassifier name
  have accepted := fun symbol (isFound : symbol ∈ now.lookup SymbolKind.isClassifier name) =>
    (mem_levels_of_mem_lookup isFound).2.2
  rw [classifiers, classifiers]
  revert fades accepted
  generalize now.lookup _ _ = found
  generalize before.lookup _ _ = other
  intro fades accepted
  cases fades with
  | nil => rfl
  | cons first rest =>
      cases first with
      | same plain => rfl
      | «local» => cases accepted _ List.mem_cons_self

theorem echoes_resolveValue (name : SimpleName) :
    (now.resolveValue name).Echoes comparison NominalType.Absorbs (before.resolveValue name) := by
  have fades := lookup_fades sees SymbolKind.isValue name.text
  unfold resolveValue
  revert fades
  generalize now.lookup _ _ = found
  generalize before.lookup _ _ = other
  intro fades
  cases fades with
  | nil => exact (Excluded.of_unresolved _ _).bind.echoes
  | @cons symbol original _ _ first _ =>
      refine ((Yields.of_tell (Remark.quiet_meaning _ _)).echoes _).bind fun _ _ _ => ?_
      have means := first.descriptor
      revert means
      generalize symbol.descriptor = descriptor
      generalize original.descriptor = descriptorBefore
      intro means
      cases means with
      | «local» absorbs => exact .of_pure absorbs
      | same plain =>
          cases descriptor with
          | «variable» holder => exact echoes_variableType sees (.same plain)
          | _ => exact .of_pure (.refl _)

theorem echoes_resolveCallableRef (name : SimpleName) :
    (now.resolveCallableRef name).Echoes comparison NominalType.Absorbs
      (before.resolveCallableRef name) := by
  have fades := lookup_fades sees (fun kind => kind = .function) name.text
  unfold resolveCallableRef
  dsimp only
  revert fades
  generalize now.lookup _ _ = found
  generalize before.lookup _ _ = other
  intro fades
  cases fades with
  | nil => exact (Excluded.of_unresolved _ _).bind.echoes
  | cons first rest =>
      cases rest with
      | nil =>
          refine ((Yields.of_tell (Remark.quiet_meaning _ _)).echoes _).bind fun _ _ _ => ?_
          exact (echoes_valueType sees first.descriptor).bind fun _ _ => echoes_typed _ _
      | cons second rest =>
          exact (Excluded.after fun _ => (Excluded.of_report _ _).bind).echoes

end Names

/-! ### The name that means nothing -/

/-- Nothing is known of what the name stands for. -/
theorem yields_infer_unknown (now : Surroundings) :
    (now.infer (.name ⟨comparison.place.span, comparison.unknown⟩)).Yields comparison
      fun type => type.isError = true := by
  rw [infer]
  have resolved : (now.resolveValue ⟨comparison.place.span, comparison.unknown⟩).Yields comparison
      fun type => type.isError = true := by
    unfold resolveValue
    split
    · exact (yields_unresolved _ _).bind fun _ _ => .of_pure rfl
    · intro remarks type runs
      obtain ⟨_, _, _, runsRecord, -⟩ := runsIn_bind_iff.mp runs
      exact (comparison.undefined _ (RunsIn.of_tell runsRecord).2).elim
  exact resolved.andTyped _

/-- Nothing is known of a call that goes by the name. -/
theorem yields_resolveNameCall_unknown (now : Surroundings) (arguments : List NominalType) :
    (now.resolveNameCall ⟨comparison.place.span, comparison.unknown⟩ arguments).Yields comparison
      fun type => type.isError = true := by
  refine (Yields.of_silent (silent_callablesAt _ _)).bind fun candidates _ => ?_
  refine Yields.andTyped (fun remarks type runs => ?_) _
  obtain ⟨judged, -, called⟩ := calls_of_resolveCall runs
  cases called with
  | chosen _ _ written | mismatch _ _ written _ => exact (comparison.undefined _ written).elim
  | failed quiet _ => exact ⟨rfl, quiet⟩

/-! ### Members -/

/-- What may be called as a member. -/
def Offered (member : Descriptor) : Prop := member.IsPlain ∧ ∀ owner, member ≠ .class owner

theorem offered_of_mem_membersNamed {entry : ClassEntry} (plain : entry.IsPlain) (name : String) :
    ∀ member ∈ entry.membersNamed name, Offered member := by
  intro member isNamed
  have isMember := List.mem_of_mem_filter isNamed
  refine ⟨plain.members member isMember, ?_⟩
  rintro owner rfl
  exact plain.noClass owner isMember

theorem echoes_callables {offers : Descriptor → Prop}
    (plain : ∀ descriptor, offers descriptor → descriptor.IsPlain) {members : List Descriptor}
    (offered : ∀ member ∈ members, offers member) :
    (now.callables members).Echoes comparison (fun found other =>
        (∀ candidate ∈ found, CanBeCalled offers candidate) ∧
          ∀ candidate ∈ other, CanBeCalled offers candidate)
      (before.callables members) := by
  intro earlier other ran remarks found runs
  refine ⟨⟨callable_of_callables plain offered runs.runs,
    callable_of_callables plain offered ran.runs⟩, ?_⟩
  rw [silent_callables _ _ _ runs.runs]
  exact List.forall_mem_nil _

section Members

variable (sees : comparison.Sees now before)

include sees

/-- A receiver has the same members as before, as long as something is known of it. -/
theorem exists_membersOf {receiver original : NominalType} (absorbs : receiver.Absorbs original)
    (sound : receiver.isError = false) (name : String) :
    ∃ members instances instancesBefore, now.membersOf receiver name = (members, instances) ∧
      before.membersOf original name = (members, instancesBefore) ∧
        instances.Absorbs instancesBefore ∧ ∀ member ∈ members, Offered member := by
  obtain ⟨sameConstructor, -, arguments⟩ := absorbs.parts sound
  have anyMembers := offered_of_mem_membersNamed
    (Library.isPlain_of_mem_classes (show Library.anyClass ∈ Library.classes from
      List.mem_cons_self)) name
  unfold membersOf
  rw [sees.class?, sees.classBefore?, sameConstructor]
  cases found : comparison.base.class? original.constructor with
  | none => exact ⟨_, _, _, rfl, rfl, .empty, anyMembers⟩
  | some entry =>
      have plain := comparison.plain _ entry found
      refine ⟨_, _, _, rfl, rfl, .of_zip (List.forall_mem_map.mpr plain.proper) arguments, ?_⟩
      split
      · exact anyMembers
      · exact offered_of_mem_membersNamed plain name

theorem echoes_resolveSelector {receiver original : NominalType}
    (absorbs : receiver.Absorbs original) (selector : SimpleName) :
    (now.resolveSelector receiver selector).Echoes comparison NominalType.Absorbs
      (before.resolveSelector original selector) := by
  unfold resolveSelector
  dsimp only
  cases sound : receiver.isError with
  | true =>
      exact (((yields_recordError _ _).andTyped _).echoes _).weaken fun _ _ => .of_isError
  | false =>
      obtain ⟨members, instances, instancesBefore, isNow, wasBefore, instancesAbsorb, -⟩ :=
        exists_membersOf sees absorbs sound selector.text
      rw [absorbs.isError_eq sound, isNow, wasBefore]
      dsimp only
      cases members.filterMap Resolver.asProperty? with
      | nil => exact (Excluded.of_unresolved _ _).bind.echoes
      | cons property rest =>
          refine ((Yields.of_tell (Remark.quiet_meaning _ _)).echoes _).bind fun _ _ _ => ?_
          refine (echoes_variableType sees (.same (Descriptor.isPlain_variable _))).bind fun _ _ same => ?_
          exact echoes_typed _ _ (instancesAbsorb.substitute _ _ same)

theorem echoes_resolveMemberCall {receiver original : NominalType}
    (absorbs : receiver.Absorbs original) (selector : SimpleName)
    {arguments originals : List NominalType}
    (given : List.Forall₂ NominalType.Absorbs arguments originals) :
    (now.resolveMemberCall receiver selector arguments).Echoes comparison NominalType.Absorbs
      (before.resolveMemberCall original selector originals) := by
  unfold resolveMemberCall
  dsimp only
  cases sound : receiver.isError with
  | true =>
      exact (((yields_recordError _ _).andTyped _).echoes _).weaken fun _ _ => .of_isError
  | false =>
      obtain ⟨members, instances, instancesBefore, isNow, wasBefore, instancesAbsorb, offered⟩ :=
        exists_membersOf sees absorbs sound selector.text
      rw [absorbs.isError_eq sound, isNow, wasBefore]
      dsimp only
      refine (echoes_callables (fun _ isOffered => isOffered.1) offered).bind
        fun candidates candidatesBefore ⟨callable, callableBefore⟩ => ?_
      refine (echoes_resolveCall sees (fun _ isOffered => isOffered.1) callable callableBefore
        instancesAbsorb ?_ given selector.text).bind fun _ _ => echoes_typed _ _
      exact fun owner isOffered => absurd rfl (isOffered.2 owner)

theorem echoes_resolveOperator {left original right originalRight : NominalType}
    (absorbs : left.Absorbs original) (absorbsRight : right.Absorbs originalRight)
    (reference : OperatorRef) :
    (now.resolveOperator left right reference).Echoes comparison NominalType.Absorbs
      (before.resolveOperator original originalRight reference) := by
  have resolved (around : Surroundings) (left right : NominalType) :
      around.resolveOperator left right reference =
        (if left.isError then
            Script.recordError (Node.operator reference).ref reference.operator.memberName
          else around.resolveCall (Node.operator reference).ref reference.operator.memberName
            ((around.membersOf left reference.operator.memberName).1.filter Resolver.isFunction)
            [right] (around.membersOf left reference.operator.memberName).2) >>= fun type =>
          pure (if reference.operator.isComparison then Library.boolean else type) := by
    unfold resolveOperator
    dsimp only
    split <;> rfl
  rw [resolved, resolved]
  refine Echoes.bind (show Echoes comparison NominalType.Absorbs _ _ from ?_)
    fun type other absorbs => .of_pure ?_
  · cases sound : left.isError with
    | true =>
        exact ((yields_recordError _ _).echoes _).weaken fun _ _ => .of_isError
    | false =>
        obtain ⟨members, instances, instancesBefore, isNow, wasBefore, instancesAbsorb, offered⟩ :=
          exists_membersOf sees absorbs sound reference.operator.memberName
        rw [absorbs.isError_eq sound, isNow, wasBefore]
        have callable : ∀ candidate ∈ members.filter Resolver.isFunction,
            CanBeCalled Offered candidate := by
          intro candidate isFunction
          have isOffered := offered candidate (List.mem_of_mem_filter isFunction)
          have isFunction := List.of_mem_filter isFunction
          cases candidate with
          | function declared => exact .function isOffered
          | specialized declared => cases isOffered.1.declared
          | _ => cases isFunction
        exact echoes_resolveCall sees (fun _ isOffered => isOffered.1) callable callable
          instancesAbsorb (fun owner isOffered => absurd rfl (isOffered.2 owner))
          (.cons absorbsRight .nil) _
  · split
    · exact .refl _
    · exact absorbs

/-- A name that is called goes to what it went to, or to nothing. -/
theorem echoes_resolveNameCall (name : SimpleName) {arguments originals : List NominalType}
    (given : List.Forall₂ NominalType.Absorbs arguments originals)
    (decides : ∀ owner,
      comparison.now.written (.meaning name.node.ref (.target (.class owner))) →
        comparison.before.written (.meaning name.node.ref (.target (.class owner))) →
          (comparison.base.constructorSignature owner).inferred arguments =
            (comparison.base.constructorSignature owner).inferred originals) :
    (now.resolveNameCall name arguments).Echoes comparison NominalType.Absorbs
      (before.resolveNameCall name originals) := by
  obtain ⟨plain, plainBefore⟩ := sees.plain
  have candidates : (now.callablesAt name.text now.levels).Echoes comparison
      (fun found other => (∀ candidate ∈ found, CanBeCalled Descriptor.IsPlain candidate) ∧
        ∀ candidate ∈ other, CanBeCalled Descriptor.IsPlain candidate)
      (before.callablesAt name.text before.levels) := by
    intro earlier other ran remarks found runs
    refine ⟨⟨callable_of_callablesAt (fun _ => id) plain runs.runs,
      callable_of_callablesAt (fun _ => id) plainBefore ran.runs⟩, ?_⟩
    rw [silent_callablesAt _ _ _ _ runs.runs]
    exact List.forall_mem_nil _
  refine candidates.bind fun found other ⟨callable, callableBefore⟩ => ?_
  refine (echoes_resolveCall sees (fun _ => id) callable callableBefore .empty
    (fun owner _ => decides owner) given name.text).bind fun _ _ => echoes_typed _ _

end Members

/-! ### Values that are called -/

theorem echoes_expect {actual original expected other : NominalType}
    (absorbs : actual.Absorbs original) (absorbsExpected : expected.Absorbs other)
    (node nodeBefore : NodeRef) :
    (Script.expect actual expected node : Script now.isOpen Unit).Echoes comparison
      (fun _ _ => True)
      (Script.expect original other nodeBefore : Script before.isOpen Unit) := by
  unfold Script.expect
  by_cases fits : original.isSubtype other = true
  · rw [if_pos fits, if_pos (absorbs.isSubtype absorbsExpected fits)]
    exact .of_pure trivial
  · rw [if_neg fits]
    exact (Excluded.of_report _ _).echoes

theorem echoes_expectArguments {arguments originals parameters others : List NominalType}
    (given : List.Forall₂ NominalType.Absorbs arguments originals)
    (expected : List.Forall₂ NominalType.Absorbs parameters others) (expressions : List Expr) :
    (Script.expectArguments arguments parameters
        (Expr.replacingAll comparison.place comparison.unknown expressions) :
      Script now.isOpen Unit).Echoes comparison (fun _ _ => True)
      (Script.expectArguments originals others expressions : Script before.isOpen Unit) := by
  induction given generalizing parameters others expressions with
  | nil => exact .of_pure trivial
  | cons first _ ih =>
      cases expected with
      | nil => exact .of_pure trivial
      | cons firstExpected restExpected =>
          cases expressions with
          | nil =>
              rw [Expr.replacingAll]
              exact .of_pure trivial
          | cons expression rest =>
              rw [Expr.replacingAll]
              exact (echoes_expect first firstExpected _ _).bind fun _ _ _ => ih restExpected rest

theorem echoes_resolveValueCall {calleeType original : NominalType}
    (absorbs : calleeType.Absorbs original) {types originals : List NominalType}
    (given : List.Forall₂ NominalType.Absorbs types originals)
    (call callee calleeBefore : NodeRef) (arguments : List Expr) :
    (Script.resolveValueCall call callee calleeType types
        (Expr.replacingAll comparison.place comparison.unknown arguments) :
      Script now.isOpen NominalType).Echoes comparison NominalType.Absorbs
      (Script.resolveValueCall call calleeBefore original originals arguments :
        Script before.isOpen NominalType) := by
  unfold Script.resolveValueCall
  cases sound : calleeType.isError with
  | true =>
      rw [if_pos rfl]
      have failed : (pure NominalType.error : Script now.isOpen NominalType).Yields comparison
          fun type => type.isError = true := .of_pure rfl
      exact (failed.echoes _).weaken fun _ _ => .of_isError
  | false =>
      rw [if_neg Bool.false_ne_true, absorbs.isError_eq sound, if_neg Bool.false_ne_true]
      have parts := absorbs.functionParts? sound
      revert parts
      generalize Library.functionParts? calleeType = found
      generalize Library.functionParts? original = other
      intro parts
      cases parts with
      | none => exact (Excluded.of_report _ _).bind.echoes
      | @some found other parts =>
          obtain ⟨parameters, result⟩ := found
          obtain ⟨others, resultBefore⟩ := other
          have goesOn : (do
              Script.expectArguments types parameters
                (Expr.replacingAll comparison.place comparison.unknown arguments)
              return result : Script now.isOpen NominalType).Echoes comparison NominalType.Absorbs
              (do
                Script.expectArguments originals others arguments
                return resultBefore : Script before.isOpen NominalType) :=
            (echoes_expectArguments given parts.1 arguments).bind fun _ _ _ => .of_pure parts.2
          dsimp only
          by_cases fits : others.length = originals.length
          · rw [if_neg (not_not_intro fits), if_neg (not_not_intro ?_)]
            · exact goesOn
            · rw [parts.1.length_eq, given.length_eq, fits]
          · rw [if_pos fits]
            exact (Excluded.of_report _ _).bind.echoes

/-! ### Expressions -/

/-- A call infers its arguments first. -/
theorem exists_infer_call_eq (around : Surroundings) (span : Span) (callee : Expr)
    (arguments : List Expr) :
    ∃ next, around.infer (.call span callee arguments) = around.inferAll arguments >>= next := by
  cases callee <;> exact ⟨_, by rw [infer] <;> simp⟩

/-- The type of an expression is written down for it, whatever came before. -/
theorem written_of_infer {value : Expr} {remarks : List Remark} {type : NominalType}
    (runs : (around.infer value).RunsIn transcript remarks type) :
    transcript.written (.typed value.node.ref type) := by
  suffices types : (around.infer value).Types transcript value.node.ref from types _ _ runs
  cases value with
  | integer | text | boolean | null =>
      rw [infer]
      exact .of_typed _ _
  | name | callableRef | paren =>
      rw [infer]
      exact .after fun _ => .of_typed _ _
  | member =>
      rw [infer]
      exact .after fun _ => .after fun _ => .of_typed _ _
  | ifThen | binary =>
      rw [infer]
      exact .after fun _ => .after fun _ => .after fun _ => .of_typed _ _
  | ifElse =>
      rw [infer]
      exact .after fun _ => .after fun _ => .after fun _ => .after fun _ => .of_typed _ _
  | call span callee arguments =>
      cases callee with
      | name =>
          rw [infer]
          exact .after fun _ => .after fun _ => .of_typed _ _
      | member =>
          rw [infer]
          exact .after fun _ => .after fun _ => .after fun _ => .after fun _ => .of_typed _ _
      | _ =>
          rw [infer_call]
          · exact .after fun _ => .after fun _ => .after fun _ => .of_typed _ _
          all_goals simp

theorem typed_of_inferAll {values : List Expr} {remarks : List Remark} {types : List NominalType}
    (runs : (around.inferAll values).RunsIn transcript remarks types) :
    List.Forall₂ (fun (value : Expr) type => transcript.written (.typed value.node.ref type))
      values types := by
  induction values generalizing remarks types with
  | nil =>
      rw [inferAll] at runs
      rw [(runsIn_pure_iff.mp runs).2]
      exact .nil
  | cons value rest ih =>
      rw [inferAll] at runs
      obtain ⟨type, _, _, runsFirst, runsRest, -⟩ := runsIn_bind_iff.mp runs
      obtain ⟨later, _, _, runsLater, runsPure, -⟩ := runsIn_bind_iff.mp runsRest
      rw [(runsIn_pure_iff.mp runsPure).2]
      exact .cons (written_of_infer runsFirst) (ih runsLater)

/-- At its place the expression has become the name. -/
theorem echoes_orName {changed original : Expr}
    (echoes : (now.infer changed).Echoes comparison NominalType.Absorbs (before.infer original)) :
    (now.infer (original.orName comparison.place comparison.unknown changed)).Echoes comparison
      NominalType.Absorbs (before.infer original) := by
  rw [Expr.orName]
  split
  · next isReplaced =>
    have same : original.span = comparison.place.span := by
      rw [← isReplaced]
      rfl
    rw [same]
    exact ((yields_infer_unknown now).echoes _).weaken fun _ _ => .of_isError
  · exact echoes

section Children

attribute [local simp] Node.children Node.parts Node.expressionParts Part.children
  Tree.Expr.node Tree.SimpleName.node

mutual

/-- One case for each form of expression: all below it has types that absorb what they were. -/
theorem echoes_infer (sees : comparison.Sees now before) : (value : Expr) →
    comparison.inside value.node →
      (now.infer (value.replacing comparison.place comparison.unknown)).Echoes comparison
        NominalType.Absorbs (before.infer value)
  | .name name, inside => by
      rw [Expr.replacing]
      refine echoes_orName ?_
      rw [infer, infer]
      exact (echoes_resolveValue sees name).bind fun _ _ => echoes_typed _ _
  | .integer span value, inside | .text span value, inside | .boolean span value, inside
  | .null span, inside => by
      rw [Expr.replacing]
      refine echoes_orName ?_
      rw [infer, infer]
      exact echoes_typed _ _ (.refl _)
  | .callableRef span target, inside => by
      rw [Expr.replacing]
      refine echoes_orName ?_
      rw [infer, infer]
      exact (echoes_resolveCallableRef sees target).bind fun _ _ => echoes_typed _ _
  | .paren span inner, inside => by
      rw [Expr.replacing]
      refine echoes_orName ?_
      rw [infer, infer]
      exact (echoes_infer sees inner (comparison.child _ inside _ (by simp))).bind fun _ _ =>
        echoes_typed _ _
  | .ifThen span condition thenBranch, inside => by
      rw [Expr.replacing]
      refine echoes_orName ?_
      rw [infer, infer]
      refine (echoes_infer sees condition (comparison.child _ inside _ (by simp))).bind
        fun _ _ first => ?_
      refine (echoes_expect first (.refl _) _ _).bind fun _ _ _ => ?_
      refine (echoes_infer sees thenBranch (comparison.child _ inside _ (by simp))).bind
        fun _ _ _ => ?_
      exact echoes_typed _ _ (.refl _)
  | .ifElse span condition thenBranch elseBranch, inside => by
      rw [Expr.replacing]
      refine echoes_orName ?_
      rw [infer, infer]
      refine (echoes_infer sees condition (comparison.child _ inside _ (by simp))).bind
        fun _ _ first => ?_
      refine (echoes_expect first (.refl _) _ _).bind fun _ _ _ => ?_
      refine (echoes_infer sees thenBranch (comparison.child _ inside _ (by simp))).bind
        fun _ _ second => ?_
      refine (echoes_infer sees elseBranch (comparison.child _ inside _ (by simp))).bind
        fun _ _ third => ?_
      exact echoes_typed _ _ (second.join third _)
  | .member span receiver selector, inside => by
      rw [Expr.replacing]
      refine echoes_orName ?_
      rw [infer, infer]
      refine (echoes_infer sees receiver (comparison.child _ inside _ (by simp))).bind
        fun _ _ absorbs => ?_
      exact (echoes_resolveSelector sees absorbs selector).bind fun _ _ => echoes_typed _ _
  | .binary span left operator right, inside => by
      rw [Expr.replacing]
      refine echoes_orName ?_
      rw [infer, infer]
      refine (echoes_infer sees left (comparison.child _ inside _ (by simp))).bind
        fun _ _ first => ?_
      refine (echoes_infer sees right (comparison.child _ inside _ (by simp))).bind
        fun _ _ second => ?_
      exact (echoes_resolveOperator sees first second operator).bind fun _ _ => echoes_typed _ _
  | .call span callee arguments, inside => by
      rw [Expr.replacing]
      refine echoes_orName ?_
      have insideCallee : comparison.inside callee.node :=
        comparison.child _ inside _ (by simp)
      have insideArguments : ∀ argument ∈ arguments, comparison.inside argument.node :=
        fun argument isArgument => comparison.child _ inside _ (by
          simp only [Node.children, Node.parts, Node.expressionParts, Tree.Expr.node,
            Part.children, List.flatMap_cons, List.flatMap_nil, List.append_nil]
          exact List.mem_append_right _ (List.mem_map_of_mem isArgument))
      have inferred := echoes_inferAll sees arguments insideArguments
      by_cases isReplaced : callee.node.ref = comparison.place
      · obtain ⟨next, isNext⟩ := exists_infer_call_eq before span callee arguments
        rw [Expr.replacing_of_ref_eq isReplaced, infer, isNext]
        refine inferred.bind fun types _ _ => ?_
        exact (((yields_resolveNameCall_unknown now types).andTyped _).echoes _).weaken
          fun _ _ => .of_isError
      · cases callee with
        | name name =>
            rw [Expr.replacing, Expr.orName, if_neg isReplaced, infer, infer]
            refine (inferred.and_of_runsIn (fun _ _ => typed_of_inferAll)
              fun _ _ => typed_of_inferAll).bind fun types originals ⟨given, typed, wasTyped⟩ => ?_
            refine (echoes_resolveNameCall sees name given fun owner written wasWritten => ?_).bind
              fun _ _ => echoes_typed _ _
            exact comparison.decides span name arguments types originals owner inside written
              wasWritten typed wasTyped
        | member memberSpan receiver selector =>
            rw [Expr.replacing, Expr.orName, if_neg isReplaced, infer, infer]
            have insideReceiver := comparison.child _ insideCallee receiver.node (by simp)
            refine inferred.bind fun types originals given => ?_
            refine (echoes_infer sees receiver insideReceiver).bind fun _ _ absorbs => ?_
            refine (echoes_resolveMemberCall sees absorbs selector given).bind
              fun type original same => ?_
            refine ((Yields.of_tell (Remark.quiet_typed _ _)).echoes _).bind fun _ _ _ => ?_
            exact echoes_typed _ _ same
        | _ =>
            rw [infer_call, infer_call]
            · refine inferred.bind fun types originals given => ?_
              refine (echoes_infer sees _ insideCallee).bind fun _ _ absorbs => ?_
              exact (echoes_resolveValueCall absorbs given _ _ _ arguments).bind fun _ _ =>
                echoes_typed _ _
            all_goals simp [-Tree.Expr.node, Expr.replacing, Expr.orName, isReplaced]

theorem echoes_inferAll (sees : comparison.Sees now before) : (values : List Expr) →
    (∀ value ∈ values, comparison.inside value.node) →
      (now.inferAll (Expr.replacingAll comparison.place comparison.unknown values)).Echoes
        comparison (List.Forall₂ NominalType.Absorbs) (before.inferAll values)
  | [], _ => by
      rw [Expr.replacingAll, inferAll, inferAll]
      exact .of_pure .nil
  | value :: rest, inside => by
      obtain ⟨insideFirst, insideRest⟩ := List.forall_mem_cons.mp inside
      rw [Expr.replacingAll, inferAll, inferAll]
      refine (echoes_infer sees value insideFirst).bind fun type _ absorbs => ?_
      exact (echoes_inferAll sees rest insideRest).bind fun later _ absorbsLater =>
        .of_pure (.cons absorbs absorbsLater)

end

end Children

end Surroundings

end Gloss
