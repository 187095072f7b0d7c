import Gloss.Proofs.Confinement.Settings

/-!
# Inferences assure held types

Where all that can be seen has held types, every inference comes to a held type.  Members are
taken over to their receiver, and a call puts in what it infers.  What is left then is left open
by the target of the call.  A function that is referred to without being called leaves all its
type parameters open.
-/

namespace Gloss

namespace Setting

/-- All that can be seen is described in the setting. -/
structure Sees (setting : Setting) (around : Surroundings) : Prop where
  class? : around.class? = setting.base.class?
  levels : ∀ level ∈ around.levels, ∀ symbol ∈ level, setting.Introduces setting.known symbol

theorem Sees.inside {setting : Setting} {around : Surroundings} (sees : setting.Sees around)
    {block : List (Symbol Descriptor)}
    (introduces : ∀ symbol ∈ block, setting.Introduces setting.known symbol) :
    setting.Sees (around.inside block) :=
  ⟨sees.class?, List.forall_mem_cons.mpr ⟨introduces, sees.levels⟩⟩

variable {setting : Setting} {around : Surroundings} (sees : setting.Sees around)

include sees

theorem Sees.introduces_of_mem_lookup {accept : SymbolKind → Bool} {word : String}
    {symbol : Symbol Descriptor} (found : symbol ∈ around.lookup accept word) :
    setting.Introduces setting.known symbol := by
  obtain ⟨⟨level, isLevel, isSymbol⟩, -, -⟩ := Surroundings.mem_levels_of_mem_lookup found
  exact sees.levels level isLevel symbol isSymbol

/-- The members of a held receiver, with what the type parameters of its class stand for. -/
theorem Sees.membersOf {receiver : NominalType} (holds : setting.Holds receiver) (name : String) :
    ∃ parameters, setting.Carries (around.membersOf receiver name).2 parameters ∧
      ∀ member ∈ (around.membersOf receiver name).1,
        (setting.within parameters).Describes setting.known member ∧
          (Resolver.isFunction member = true ∨ (Resolver.asProperty? member).isSome) := by
  have universal := setting.provides Library.any.constructor Library.anyClass rfl
  have describesUniversal (parameters : List TypeConstructor) :
      ∀ member ∈ Library.anyClass.membersNamed name,
        (setting.within parameters).Describes setting.known member ∧
          (Resolver.isFunction member = true ∨ (Resolver.asProperty? member).isSome) := by
    intro member isMember
    have inClass := List.mem_of_mem_filter isMember
    exact ⟨(universal.members member inClass).mono (List.nil_subset _),
      universal.ordinary member inClass⟩
  rw [Surroundings.membersOf, sees.class?]
  cases found : setting.base.class? receiver.constructor with
  | none => exact ⟨_, Realm.Carries.empty _, describesUniversal _⟩
  | some entry =>
      refine ⟨_, holds.carries found, ?_⟩
      have own := setting.provides _ entry found
      dsimp only
      split
      · exact describesUniversal _
      · intro member isMember
        have inClass := List.mem_of_mem_filter isMember
        exact ⟨own.members member inClass, own.ordinary member inClass⟩

end Setting

/-- The types that are given for some arguments. -/
theorem Setting.holds_of_gives (setting : Setting) {expressions : List Tree.Expr}
    {types : List NominalType}
    (gives : List.Forall₂ (fun expression type => setting.Gives expression.node.ref type)
      expressions types) : ∀ type ∈ types, setting.Holds type := by
  induction gives with
  | nil => exact List.forall_mem_nil _
  | cons given _ ih => exact List.forall_mem_cons.mpr ⟨given.1, ih⟩

namespace Surroundings

open Script

variable {setting : Setting} {around : Surroundings} {parameters : List TypeConstructor}

/-! ### Types of declarations -/

theorem assures_settle (written : Option NominalType) (declaration : Option NodeRef)
    {realm : Realm} (holds : ∀ type,
      written.or (declaration.bind setting.known.get?) = some type → realm.Holds type) :
    (around.settle written declaration).Assures setting realm.Holds := by
  cases written with
  | some type => exact .of_pure (holds type rfl)
  | none =>
      cases declaration with
      | none => exact .of_pure realm.holds_error
      | some node =>
          unfold settle
          dsimp only
          split
          · next asked => exact .of_ask asked holds
          · exact .of_pure realm.holds_error

theorem assures_variableType {realm : Realm} {holder : VariableDescriptor}
    (describes : realm.Describes setting.known (.variable holder)) :
    (around.variableType holder).Assures setting realm.Holds := by
  cases holder with
  | parameter owner parameter => exact .of_pure (describes _ rfl)
  | «local» declared => exact .of_pure (describes _ rfl)
  | property property =>
      refine assures_settle _ _ fun type isKnown => describes type ?_
      rw [← isKnown, VariableDescriptor.type?]
      cases property.type <;> rfl

theorem assures_returnType {realm : Realm} {function : FunctionDescriptor}
    (describes : realm.Describes setting.known (.function function)) :
    (around.returnType function).Assures setting
      (realm.declaring function.typeParameters).Holds := by
  refine assures_settle _ _ fun type isKnown => describes.2 type ?_
  rw [← isKnown, FunctionDescriptor.returnType?]
  cases function.returnType <;> rfl

/-- A function as a value is held where its type parameters may be mentioned. -/
theorem assures_functionValueType {function : FunctionDescriptor}
    (describes : setting.Describes setting.known (.function function))
    (isLeft : ∀ parameter ∈ function.typeParameters, setting.leftOpen parameter.constructor) :
    (around.functionValueType function).Assures setting setting.Holds := by
  refine (assures_returnType describes).bind fun result holds => ?_
  refine (assures_write _ rfl).bind fun _ _ => .of_pure ?_
  have whole : (setting.declaring function.typeParameters).Holds
      (Library.functionType (function.parameters.map ParameterDescriptor.type) result false) :=
    Realm.holds_functionType (List.forall_mem_map.mpr describes.1) holds false
  exact whole.of_declaring fun parameter isParameter =>
    .inr (.inr (.inr (isLeft parameter isParameter)))

/-! ### Candidates -/

/-- What can be called, and where it comes from. -/
inductive Callable (setting : Setting) (realm : Realm) (descriptors : List Descriptor) :
    Descriptor → Prop
  | itself {descriptor : Descriptor} (isGiven : descriptor ∈ descriptors)
      (describes : realm.Describes setting.known descriptor)
      (notInvoked : ∀ called type, descriptor ≠ .invoke called type) :
      Callable setting realm descriptors descriptor
  | invoke {called : VariableDescriptor} {type : NominalType}
      (isGiven : .variable called ∈ descriptors)
      (describes : realm.Describes setting.known (.invoke called type)) :
      Callable setting realm descriptors (.invoke called type)

theorem Callable.mono {realm : Realm} {descriptors more : List Descriptor} {candidate : Descriptor}
    (callable : Callable setting realm descriptors candidate) (subset : descriptors ⊆ more) :
    Callable setting realm more candidate := by
  cases callable with
  | itself isGiven describes notInvoked => exact .itself (subset isGiven) describes notInvoked
  | invoke isGiven describes => exact .invoke (subset isGiven) describes

theorem Callable.describes {realm : Realm} {descriptors : List Descriptor} {candidate : Descriptor}
    (callable : Callable setting realm descriptors candidate) :
    realm.Describes setting.known candidate := by
  cases callable with
  | itself _ describes _ => exact describes
  | invoke _ describes => exact describes

theorem assures_asCallable {realm : Realm} {descriptor : Descriptor}
    (describes : realm.Describes setting.known descriptor) :
    (around.asCallable descriptor).Assures setting fun callable =>
      ∀ candidate ∈ callable, Callable setting realm [descriptor] candidate := by
  have itself (notInvoked : ∀ called type, descriptor ≠ .invoke called type) :
      ∀ candidate ∈ some descriptor, Callable setting realm [descriptor] candidate := by
    intro candidate isItself
    cases Option.mem_some_iff.mp isItself
    exact .itself (List.mem_singleton_self _) describes notInvoked
  cases descriptor with
  | «class» | function | specialized => exact .of_pure (itself (by simp))
  | typeParameter | invoke | error => exact .of_pure fun _ isNone => absurd isNone (by simp)
  | «variable» holder =>
      refine (assures_variableType describes).bind fun type holds => .of_pure ?_
      intro candidate isCallable
      obtain ⟨arity, -, rfl⟩ := Option.map_eq_some_iff.mp isCallable
      exact .invoke (List.mem_singleton_self _) ⟨describes, holds⟩

theorem assures_callables {realm : Realm} {descriptors : List Descriptor}
    (describes : ∀ descriptor ∈ descriptors, realm.Describes setting.known descriptor) :
    (around.callables descriptors).Assures setting fun found =>
      ∀ candidate ∈ found, Callable setting realm descriptors candidate := by
  induction descriptors with
  | nil => exact .of_pure (List.forall_mem_nil _)
  | cons first rest ih =>
      obtain ⟨describesFirst, describesRest⟩ := List.forall_mem_cons.mp describes
      refine (assures_asCallable describesFirst).bind fun callable areFirst => ?_
      refine (ih describesRest).bind fun later areLater => .of_pure ?_
      refine List.forall_mem_append.mpr ⟨fun candidate isFirst => ?_, fun candidate isLater => ?_⟩
      · exact (areFirst candidate (Option.mem_toList.mp isFirst)).mono (by simp)
      · exact (areLater candidate isLater).mono (List.subset_cons_self _ _)

theorem assures_callablesAt (name : String) {levels : List (List (Symbol Descriptor))}
    (introduces : ∀ level ∈ levels, ∀ symbol ∈ level, setting.Introduces setting.known symbol) :
    (around.callablesAt name levels).Assures setting fun found =>
      ∀ candidate ∈ found, setting.Describes setting.known candidate := by
  induction levels with
  | nil => exact .of_pure (List.forall_mem_nil _)
  | cons level outer ih =>
      obtain ⟨introducesLevel, introducesOuter⟩ := List.forall_mem_cons.mp introduces
      have describes : ∀ descriptor ∈ ((level.filter fun symbol => symbol.name = name).filter
          fun symbol => symbol.kind ≠ .typeParameter).map Symbol.descriptor,
            setting.Describes setting.known descriptor := by
        refine List.forall_mem_map.mpr fun symbol isSymbol => ?_
        have isNamed := List.mem_of_mem_filter isSymbol
        exact (introducesLevel symbol (List.mem_of_mem_filter isNamed)).describes
      refine (assures_callables describes).bind fun found callable => ?_
      cases found with
      | nil => exact ih introducesOuter
      | cons first rest =>
          exact .of_pure fun candidate isFound => (callable candidate isFound).describes

/-! ### Calls -/

/-- A signature with a held result, where the type parameters of its candidate are in scope. -/
def Judged (setting : Setting) (signature : Signature) : Prop :=
  match signature.candidate with
  | .invoke _ type =>
      signature.result = ((Library.functionParts? type).getD ([], .error)).2 ∧
        signature.unknowns = []
  | .class owner => signature = setting.base.constructorSignature owner
  | .function declared =>
      signature.unknowns = declared.typeParameters.map TypeParameterDescriptor.constructor ∧
        (setting.declaring declared.typeParameters).Holds signature.result
  | _ => signature.result = .error

theorem assures_signature (sees : setting.Sees around) {receiver : Substitution}
    (carries : setting.Carries receiver parameters) {candidate : Descriptor}
    (describes : (setting.within parameters).Describes setting.known candidate) :
    (around.signature receiver candidate).Assures setting fun signature =>
      signature.candidate = candidate ∧ Judged setting signature := by
  cases candidate with
  | invoke called type => exact .of_pure ⟨rfl, rfl, rfl⟩
  | «class» owner =>
      refine .of_pure ⟨rfl, ?_⟩
      rw [Judged, sees.class?]
      rfl
  | function declared =>
      refine (assures_returnType describes).bind fun result holds => .of_pure ⟨rfl, rfl, ?_⟩
      exact (carries.declaring declared.typeParameters).holds holds
  | specialized | «variable» | typeParameter | error => exact .of_pure ⟨rfl, rfl⟩

theorem assures_signatures (sees : setting.Sees around) {receiver : Substitution}
    (carries : setting.Carries receiver parameters) {candidates : List Descriptor}
    (describes : ∀ candidate ∈ candidates,
      (setting.within parameters).Describes setting.known candidate) :
    (around.signatures receiver candidates).Assures setting fun judged =>
      ∀ signature ∈ judged, signature.candidate ∈ candidates ∧ Judged setting signature := by
  induction candidates with
  | nil => exact .of_pure (List.forall_mem_nil _)
  | cons first rest ih =>
      obtain ⟨describesFirst, describesRest⟩ := List.forall_mem_cons.mp describes
      refine (assures_signature sees carries describesFirst).bind fun signature isFirst => ?_
      refine (ih describesRest).bind fun later areLater => .of_pure ?_
      refine List.forall_mem_cons.mpr ⟨⟨?_, isFirst.2⟩, fun other isLater => ?_⟩
      · exact List.mem_cons.mpr (.inl isFirst.1)
      · exact ⟨List.mem_cons_of_mem _ (areLater other isLater).1, (areLater other isLater).2⟩

theorem assures_shown (descriptor : Descriptor) :
    (around.shown descriptor).Assures setting fun _ => True := by
  unfold shown
  split
  · exact .of_pure trivial
  · next node _ =>
    split
    · exact .of_pure trivial
    · split
      · next asked =>
          have answered : (ask node asked done : Script around.isOpen NominalType).Assures setting
              fun _ => True := .of_ask asked fun _ _ => trivial
          exact answered.bind fun _ _ => .of_pure trivial
      · exact .of_pure trivial

/-- What a call leaves open apart from the type parameters of a function: what a constructor
does not decide, and all that the type of a called value mentions if it is not held. -/
structure LeavesRest (setting : Setting) (reference : NodeRef) (candidates : List Descriptor)
    (arguments : List NominalType) : Prop where
  constructed : ∀ owner, .class owner ∈ candidates →
    setting.written (.meaning reference (.target (.class owner))) →
      ∀ parameter ∈ owner.typeParameters,
        ((setting.base.constructorSignature owner).inferred arguments).get?
          parameter.constructor = none → setting.leftOpen parameter.constructor
  invoked : ∀ called type, .invoke called type ∈ candidates →
    setting.written (.meaning reference (.target (.invoke called type))) → setting.Holds type

/-- The type of a call is held: whatever candidate is chosen, what remains of its type
parameters is left open by the target. -/
theorem holds_of_chosen {reference : NodeRef} {candidates : List Descriptor}
    {arguments : List NominalType} (leaves : LeavesRest setting reference candidates arguments)
    (describes : ∀ candidate ∈ candidates,
      (setting.within parameters).Describes setting.known candidate)
    (holds : ∀ argument ∈ arguments, setting.Holds argument) {signature : Signature}
    {best : Applicable} (isCandidate : signature.candidate ∈ candidates)
    (judged : Judged setting signature) (accepted : signature.accept? arguments = some best)
    {inferred : InferredTypes}
    (written : setting.written
      (.meaning reference (.target (Resolver.callTarget inferred best)))) :
    setting.Holds best.result := by
  obtain ⟨sameCandidate, sameSubstitution, -⟩ := Choice.of_accept? accepted
  rw [Resolver.callTarget, sameCandidate] at written
  have described := describes _ isCandidate
  unfold Judged at judged
  cases isThis : signature.candidate with
  | invoke called type =>
      rw [isThis] at judged isCandidate written
      have holdsType := leaves.invoked called type isCandidate written
      have holdsResult : setting.Holds signature.result := by
        rw [judged.1]
        cases parts : Library.functionParts? type with
        | none => exact setting.holds_error
        | some found => exact Realm.holds_of_functionParts? holdsType parts
      exact Realm.holds_of_accept? accepted holds (holdsResult.declaring []) (List.forall_mem_nil _)
  | «class» owner =>
      rw [isThis] at judged isCandidate written described
      subst judged
      have holdsDefault : (setting.declaring owner.typeParameters).Holds owner.defaultType :=
        (show setting.Describes setting.known (.class owner) from described).holds_defaultType
      refine Realm.holds_of_accept? accepted holds holdsDefault fun parameter isParameter unbound =>
        .inr (.inr (.inr ?_))
      exact leaves.constructed owner isCandidate written parameter isParameter unbound
  | function declared =>
      rw [isThis] at judged isCandidate written
      refine Realm.holds_of_accept? accepted holds judged.2 fun parameter isParameter unbound => ?_
      rw [← sameSubstitution] at unbound
      have generic : declared.typeParameters.isEmpty = false := by
        rw [List.isEmpty_eq_false_iff]
        exact List.ne_nil_of_mem isParameter
      simp only [generic] at written
      exact .inr (.inr (.inr (setting.specialized _ _ written parameter isParameter unbound)))
  | _ =>
      rw [isThis] at judged
      have holdsResult : setting.Holds signature.result := judged ▸ setting.holds_error
      exact Realm.holds_of_accept? accepted holds (holdsResult.declaring []) (List.forall_mem_nil _)

/-- A call comes to a held type, or something is reported. -/
theorem assures_resolveCall (sees : setting.Sees around) {reference : NodeRef} (name : String)
    {receiver : Substitution} (carries : setting.Carries receiver parameters)
    {candidates : List Descriptor} (describes : ∀ candidate ∈ candidates,
      (setting.within parameters).Describes setting.known candidate)
    {arguments : List NominalType} (holds : ∀ argument ∈ arguments, setting.Holds argument)
    (leaves : LeavesRest setting reference candidates arguments) :
    (around.resolveCall reference name candidates arguments receiver).Assures setting
      setting.Holds := by
  refine (assures_signatures sees carries describes).bind fun judged areJudged => ?_
  cases choice : Choice.among judged arguments with
  | none => exact (assures_unresolved _ _).absurd
  | mismatch only =>
      refine (assures_record _ _).bind fun _ _ => (assures_shown _).bind fun inferred _ => ?_
      refine (assures_write _ rfl).bind fun _ isReported => ?_
      exact (setting.noProblem _ isReported).elim
  | inapplicable => exact (assures_report _ _).absurd
  | ambiguous winners =>
      refine (assures_write (fun _ => .meaning _ (.ambiguous _)) rfl).bind fun _ _ => ?_
      exact (assures_report _ _).absurd
  | chosen best =>
      refine (assures_shown _).bind fun inferred _ => ?_
      refine (assures_write _ rfl).bind fun _ written => .of_pure ?_
      obtain ⟨signature, isSignature, accepted⟩ := Choice.exists_accept?_of_among_eq_chosen choice
      obtain ⟨isCandidate, isJudged⟩ := areJudged signature isSignature
      exact holds_of_chosen leaves describes holds isCandidate isJudged accepted written

/-! ### References -/

theorem assures_resolveValue (sees : setting.Sees around) (name : Tree.SimpleName) :
    (around.resolveValue name).Assures setting setting.Holds := by
  unfold resolveValue
  cases found : around.lookup SymbolKind.isValue name.text with
  | nil => exact (assures_unresolved _ _).absurd
  | cons symbol rest =>
      have introduced := sees.introduces_of_mem_lookup (found ▸ List.mem_cons_self)
      refine (assures_record _ _).bind fun _ _ => ?_
      have describes := introduced.describes
      cases meant : symbol.descriptor with
      | «variable» holder => exact assures_variableType (meant ▸ describes)
      | _ => exact .of_pure setting.holds_error

/-- A function that is referred to leaves its type parameters open. -/
theorem assures_resolveCallableRef (sees : setting.Sees around) {span : Span}
    {target : Tree.SimpleName} (inside : setting.inside (Tree.Expr.callableRef span target).node)
    (insideTarget : setting.inside target.node) :
    (around.resolveCallableRef target).Assures setting setting.Holds := by
  unfold resolveCallableRef
  cases found : around.lookup (fun kind => kind = .function) target.text with
  | nil => exact (assures_unresolved _ _).absurd
  | cons symbol rest =>
      have introduced := sees.introduces_of_mem_lookup (found ▸ List.mem_cons_self)
      cases rest with
      | cons other rest =>
          refine (assures_write (fun _ => .meaning _ (.ambiguous _)) rfl).bind fun _ _ => ?_
          exact (assures_report _ _).absurd
      | nil =>
          refine (assures_record _ _).bind fun _ written => ?_
          have describes := introduced.describes
          have value : (around.valueType symbol.descriptor).Assures setting setting.Holds := by
            cases meant : symbol.descriptor with
            | «variable» holder => exact assures_variableType (meant ▸ describes)
            | invoke called type =>
                rw [meant] at describes
                exact assures_variableType describes.1
            | function function =>
                rw [meant] at describes written
                exact assures_functionValueType describes
                  (setting.callableRef span target function inside written)
            | specialized => exact (meant ▸ describes : setting.Describes _ (.specialized _)).elim
            | _ => exact .of_pure setting.holds_error
          exact value.bind fun _ => assures_typed_holds insideTarget

theorem assures_resolveSelector (sees : setting.Sees around) {receiver : NominalType}
    (holds : setting.Holds receiver) {selector : Tree.SimpleName}
    (inside : setting.inside selector.node) :
    (around.resolveSelector receiver selector).Assures setting setting.Holds := by
  unfold resolveSelector
  dsimp only
  split
  · exact (assures_recordError _ _).bind fun _ => assures_typed_holds inside
  · obtain ⟨parameters, carries, members⟩ := sees.membersOf holds selector.text
    generalize around.membersOf receiver selector.text = found at carries members
    obtain ⟨descriptors, substitution⟩ := found
    dsimp only at carries members ⊢
    cases isProperty : descriptors.filterMap Resolver.asProperty? with
    | nil => exact (assures_unresolved _ _).absurd
    | cons property rest =>
        refine (assures_record _ _).bind fun _ _ => ?_
        have isMember : property ∈ descriptors.filterMap Resolver.asProperty? :=
          isProperty ▸ List.mem_cons_self
        obtain ⟨member, inMembers, same⟩ := List.mem_filterMap.mp isMember
        have describes : (setting.within parameters).Describes setting.known
            (.variable (.property property)) := by
          unfold Resolver.asProperty? at same
          split at same
          · cases same
            exact (members _ inMembers).1
          · cases same
        refine (assures_variableType describes).bind fun type holdsType => ?_
        exact assures_typed_holds inside (carries.holds holdsType)

/-- Members are functions and properties, so only the direct call of a property may come to
more than what the receiver holds. -/
theorem assures_resolveMemberCall (sees : setting.Sees around) {receiver : NominalType}
    (holds : setting.Holds receiver) {span memberSpan : Span} {value : Tree.Expr}
    {selector : Tree.SimpleName} {expressions : List Tree.Expr}
    (inside : setting.inside
      (Tree.Expr.call span (.member memberSpan value selector) expressions).node)
    (insideSelector : setting.inside selector.node) {arguments : List NominalType}
    (holdsArguments : ∀ argument ∈ arguments, setting.Holds argument) :
    (around.resolveMemberCall receiver selector arguments).Assures setting setting.Holds := by
  unfold resolveMemberCall
  dsimp only
  split
  · exact (assures_recordError _ _).bind fun _ => assures_typed_holds insideSelector
  · obtain ⟨parameters, carries, members⟩ := sees.membersOf holds selector.text
    generalize around.membersOf receiver selector.text = found at carries members
    obtain ⟨descriptors, substitution⟩ := found
    dsimp only at carries members ⊢
    refine (assures_callables fun member isMember => (members member isMember).1).bind
      fun candidates callable => ?_
    have leaves : LeavesRest setting selector.node.ref candidates arguments := by
      constructor
      · intro owner isCandidate
        cases callable _ isCandidate with
        | itself isMember =>
            have ordinary := (members _ isMember).2
            simp [Resolver.isFunction, Resolver.asProperty?] at ordinary
      · intro called type isCandidate written
        cases callable _ isCandidate with
        | itself _ _ notInvoked => exact absurd rfl (notInvoked called type)
        | invoke isMember described =>
            have ordinary := (members _ isMember).2
            cases called with
            | property property =>
                refine Realm.Holds.of_allows described.2 fun constructor occurs => ?_
                exact .inr (.inr (.inr (setting.invoked span memberSpan value selector expressions
                  property type inside written constructor occurs)))
            | _ => simp [Resolver.isFunction, Resolver.asProperty?] at ordinary
    have called := assures_resolveCall sees selector.text carries (fun candidate isCandidate =>
      (callable candidate isCandidate).describes) holdsArguments leaves
    exact called.bind fun _ => assures_typed_holds insideSelector

/-- A name that is called means something that is seen, or a class whose constructor decides
its type parameters or leaves them open. -/
theorem assures_resolveNameCall (sees : setting.Sees around) {span : Span}
    {name : Tree.SimpleName} {expressions : List Tree.Expr}
    (inside : setting.inside (Tree.Expr.call span (.name name) expressions).node)
    (insideName : setting.inside name.node) {arguments : List NominalType}
    (gives : List.Forall₂ (fun expression type => setting.Gives expression.node.ref type)
      expressions arguments) :
    (around.resolveNameCall name arguments).Assures setting setting.Holds := by
  refine (assures_callablesAt _ sees.levels).bind fun candidates describes => ?_
  have leaves : LeavesRest setting name.node.ref candidates arguments := by
    refine ⟨fun owner _ written => ?_, fun called type isCandidate _ =>
      (describes (.invoke called type) isCandidate).2⟩
    exact setting.constructed span name expressions arguments owner inside written
      (gives.imp fun _ _ given => given.2)
  have called := assures_resolveCall sees name.text (Realm.Carries.empty _) describes
    (setting.holds_of_gives gives) leaves
  exact called.bind fun _ => assures_typed_holds insideName

theorem assures_resolveOperator (sees : setting.Sees around) {left right : NominalType}
    (holds : setting.Holds left) (holdsRight : setting.Holds right)
    (reference : Tree.OperatorRef) :
    (around.resolveOperator left right reference).Assures setting setting.Holds := by
  have compared {type : NominalType} (holdsType : setting.Holds type) :
      (pure (if reference.operator.isComparison then Library.boolean else type) :
        Script around.isOpen NominalType).Assures setting setting.Holds := by
    split
    · exact .of_pure setting.holds_boolean
    · exact .of_pure holdsType
  unfold resolveOperator
  dsimp only
  split
  · exact (assures_recordError _ _).bind fun _ => compared
  · obtain ⟨parameters, carries, members⟩ := sees.membersOf holds reference.operator.memberName
    generalize around.membersOf left reference.operator.memberName = found at carries members
    obtain ⟨descriptors, substitution⟩ := found
    refine (assures_resolveCall sees _ carries (fun candidate isCandidate =>
      (members candidate (List.mem_of_mem_filter isCandidate)).1)
      (List.forall_mem_singleton.mpr holdsRight) ⟨fun owner isCandidate => ?_,
        fun called type isCandidate => ?_⟩).bind fun _ => compared
    · exact absurd (List.of_mem_filter isCandidate) Bool.false_ne_true
    · exact absurd (List.of_mem_filter isCandidate) Bool.false_ne_true

/-! ### Expressions -/

section Children

attribute [local simp] Node.children Node.parts Node.expressionParts Part.children
  Tree.Expr.node Tree.SimpleName.node

mutual

/-- An expression of the declaration is given a held type, one case for each form of it. -/
theorem assures_infer (sees : setting.Sees around) : (value : Tree.Expr) →
    setting.inside value.node → (around.infer value).Assures setting
      (setting.Gives value.node.ref)
  | .name name, inside => by
      rw [infer]
      exact (assures_resolveValue sees name).bind fun _ => assures_typed inside
  | .integer span value, inside => by
      rw [infer]
      exact assures_typed inside setting.holds_int
  | .text span value, inside => by
      rw [infer]
      exact assures_typed inside setting.holds_string
  | .boolean span value, inside => by
      rw [infer]
      exact assures_typed inside setting.holds_boolean
  | .null span, inside => by
      rw [infer]
      exact assures_typed inside (Realm.holds_withNullable setting.holds_nothing true)
  | .callableRef span target, inside => by
      rw [infer]
      have insideTarget := setting.child _ inside target.node (by simp)
      exact (assures_resolveCallableRef sees inside insideTarget).bind fun _ =>
        assures_typed inside
  | .paren span inner, inside => by
      rw [infer]
      have below := assures_infer sees inner (setting.child _ inside _ (by simp))
      exact below.bind fun _ given => assures_typed inside given.1
  | .ifThen span condition thenBranch, inside => by
      rw [infer]
      refine (assures_infer sees condition (setting.child _ inside _ (by simp))).bind fun _ _ => ?_
      refine (assures_expect _ _ _).bind fun _ _ => ?_
      refine (assures_infer sees thenBranch (setting.child _ inside _ (by simp))).bind fun _ _ => ?_
      exact assures_typed inside setting.holds_unit
  | .ifElse span condition thenBranch elseBranch, inside => by
      rw [infer]
      refine (assures_infer sees condition (setting.child _ inside _ (by simp))).bind fun _ _ => ?_
      refine (assures_expect _ _ _).bind fun _ _ => ?_
      refine (assures_infer sees thenBranch (setting.child _ inside _ (by simp))).bind
        fun _ first => ?_
      refine (assures_infer sees elseBranch (setting.child _ inside _ (by simp))).bind
        fun _ second => ?_
      exact assures_typed inside (Realm.holds_join first.1 second.1 setting.holds_any)
  | .member span receiver selector, inside => by
      rw [infer]
      refine (assures_infer sees receiver (setting.child _ inside _ (by simp))).bind
        fun _ given => ?_
      have insideSelector := setting.child _ inside selector.node (by simp)
      exact (assures_resolveSelector sees given.1 insideSelector).bind fun _ =>
        assures_typed inside
  | .binary span left operator right, inside => by
      rw [infer]
      refine (assures_infer sees left (setting.child _ inside _ (by simp))).bind fun _ first => ?_
      refine (assures_infer sees right (setting.child _ inside _ (by simp))).bind fun _ second => ?_
      exact (assures_resolveOperator sees first.1 second.1 operator).bind fun _ =>
        assures_typed inside
  | .call span callee arguments, inside => by
      have insideCallee : setting.inside callee.node := setting.child _ inside _ (by simp)
      have insideArguments : ∀ argument ∈ arguments, setting.inside argument.node :=
        fun argument isArgument => setting.child _ inside _ (by
          simp only [Node.children, Node.parts, Node.expressionParts, Tree.Expr.node,
            Part.children, List.flatMap_cons, List.flatMap_nil, List.append_nil]
          exact List.mem_append_right _ (List.mem_map_of_mem isArgument))
      have inferred := assures_inferAll sees arguments insideArguments
      cases callee with
      | name name =>
          rw [infer]
          refine inferred.bind fun _ given => ?_
          exact (assures_resolveNameCall sees inside insideCallee given).bind fun _ =>
            assures_typed inside
      | member memberSpan receiver selector =>
          rw [infer]
          refine inferred.bind fun _ given => ?_
          have insideReceiver := setting.child _ insideCallee receiver.node (by simp)
          have insideSelector := setting.child _ insideCallee selector.node (by simp)
          refine (assures_infer sees receiver insideReceiver).bind fun _ givenReceiver => ?_
          refine (assures_resolveMemberCall sees givenReceiver.1 inside insideSelector
            (setting.holds_of_gives given)).bind fun type holds => ?_
          exact (assures_tell_typed insideCallee holds).bind fun _ _ => assures_typed inside holds
      | _ =>
          rw [infer_call]
          · refine inferred.bind fun _ _ => ?_
            refine (assures_infer sees _ insideCallee).bind fun _ given => ?_
            exact (assures_resolveValueCall _ _ given.1 _ _).bind fun _ => assures_typed inside
          all_goals simp

theorem assures_inferAll (sees : setting.Sees around) : (values : List Tree.Expr) →
    (∀ value ∈ values, setting.inside value.node) → (around.inferAll values).Assures setting
      (List.Forall₂ (fun value type => setting.Gives value.node.ref type) values)
  | [], _ => by
      rw [inferAll]
      exact .of_pure .nil
  | value :: rest, inside => by
      obtain ⟨insideFirst, insideRest⟩ := List.forall_mem_cons.mp inside
      rw [inferAll]
      refine (assures_infer sees value insideFirst).bind fun type given => ?_
      exact (assures_inferAll sees rest insideRest).bind fun later givenLater =>
        .of_pure (.cons given givenLater)

end

end Children

end Surroundings

end Gloss
