import Gloss.Proofs.Addition.Twins
import Gloss.Proofs.Recursion.Questions
import Gloss.Proofs.Tree.Placement

/-!
# Inferences that do not see a new name

Of what is declared in addition, an expression could only see something under the new name.  An
expression that does not use the name is inferred by a twin script: the levels around it have the
same symbols under all other names, the types in it come from the old nodes, and for these the
classes have the same members and the same types are open.
-/

namespace Gloss

namespace Node

/-- The name that a node declares or uses, unless it is the symbol of an operator. -/
def identifier? : Node → Option String
  | .operator _ => none
  | node => node.name?.map Prod.fst

/-- The word is no name at the node or below it. -/
def Avoids (word : String) (node : Node) : Prop :=
  ∀ below ∈ node.subtree, below.identifier? ≠ some word

variable {word : String} {node : Node}

theorem Avoids.child (avoids : node.Avoids word) {below : Node} (isChild : below ∈ node.children) :
    below.Avoids word :=
  fun below isBelow => avoids below (mem_subtree_of_child isChild isBelow)

theorem Avoids.self (avoids : node.Avoids word) {name : String}
    (isName : node.identifier? = some name) : name ≠ word := by
  rintro rfl
  exact avoids node node.mem_subtree_self isName

end Node

/-- Two levels with the same symbols under all names but one. -/
def SameApart (word : String) (first second : List (Symbol Descriptor)) : Prop :=
  ∀ name, name ≠ word →
    (first.filter fun symbol => symbol.name = name) = second.filter fun symbol => symbol.name = name

theorem SameApart.refl (word : String) (level : List (Symbol Descriptor)) :
    SameApart word level level :=
  fun _ _ => rfl

theorem SameApart.append {word : String} {first second others more : List (Symbol Descriptor)}
    (same : SameApart word first second) (sameMore : SameApart word others more) :
    SameApart word (first ++ others) (second ++ more) := by
  intro name isOther
  rw [List.filter_append, List.filter_append, same name isOther, sameMore name isOther]

namespace Surroundings

/-- From both places the same is seen under all names but one, and of the first place all that is
seen comes from some nodes.  For what comes from these nodes the classes have the same members,
and the same types are open. -/
structure Resembles (word : String) (home : NodeRef → Prop) (first second : Surroundings) :
    Prop where
  levels : List.Forall₂ (SameApart word) first.levels second.levels
  class? : ∀ constructor, (∀ node ∈ constructor.declaration?, home node) →
    first.class? constructor = second.class? constructor
  isOpen : ∀ node, home node → first.isOpen node = second.isOpen node
  own : first.own = second.own
  symbols : ∀ level ∈ first.levels, ∀ symbol ∈ level, symbol.descriptor.From home
  members : ∀ constructor entry, first.class? constructor = some entry →
    ∀ member ∈ entry.members, member.From home

theorem Resembles.inside {word : String} {home : NodeRef → Prop} {first second : Surroundings}
    (resembles : first.Resembles word home second) {block : List (Symbol Descriptor)}
    (comes : ∀ symbol ∈ block, symbol.descriptor.From home) :
    (first.inside block).Resembles word home (second.inside block) where
  levels := .cons (.refl word block) resembles.levels
  class? := resembles.class?
  isOpen := resembles.isOpen
  own := resembles.own
  symbols := List.forall_mem_cons.mpr ⟨comes, resembles.symbols⟩
  members := resembles.members

end Surroundings

open Script NominalType

variable {word name : String} {home : NodeRef → Prop} {isOpen isOpenLater : NodeRef → Bool}

/-! ### What scripts write down -/

namespace Script

theorem twin_report (problem : Problem) (node : NodeRef) :
    Twin home (fun _ => True) (report problem node : Script isOpen Unit)
      (report problem node : Script isOpenLater Unit) :=
  .of_tell trivial

theorem twin_record (reference : NodeRef) {target : Descriptor}
    (shows : ∀ node ∈ target.shownOpen?, home node) :
    Twin home (fun _ => True) (record reference target : Script isOpen Unit)
      (record reference target : Script isOpenLater Unit) :=
  .of_tell shows

theorem twin_unresolved (reference : NodeRef) (name : String) :
    Twin home (fun _ => True) (unresolved reference name : Script isOpen Unit)
      (unresolved reference name : Script isOpenLater Unit) :=
  Twin.bind (.of_tell trivial) fun _ _ => twin_report _ _

theorem twin_typed (node : NodeRef) {type : NominalType} (comes : type.From home) :
    Twin home (NominalType.From home) (typed node type : Script isOpen NominalType)
      (typed node type : Script isOpenLater NominalType) :=
  Twin.bind (.of_tell trivial) fun _ _ => .of_pure comes

theorem twin_expect (actual expected : NominalType) (node : NodeRef) :
    Twin home (fun _ => True) (expect actual expected node : Script isOpen Unit)
      (expect actual expected node : Script isOpenLater Unit) := by
  unfold expect
  split
  · exact .of_pure trivial
  · exact twin_report _ _

theorem twin_recordError (reference : NodeRef) (name : String) :
    Twin home (NominalType.From home) (recordError reference name : Script isOpen NominalType)
      (recordError reference name : Script isOpenLater NominalType) :=
  (twin_record reference (by simp [Descriptor.shownOpen?])).bind fun _ _ => .of_pure from_error

theorem twin_expectArguments :
    ∀ (types parameters : List NominalType) (arguments : List Tree.Expr),
      Twin home (fun _ => True) (expectArguments types parameters arguments : Script isOpen Unit)
        (expectArguments types parameters arguments : Script isOpenLater Unit)
  | type :: types, parameter :: parameters, argument :: arguments => by
      rw [expectArguments, expectArguments]
      exact (twin_expect _ _ _).bind fun _ _ => twin_expectArguments _ _ _
  | [], _, _ => .of_pure trivial
  | _ :: _, [], _ => .of_pure trivial
  | _ :: _, _ :: _, [] => .of_pure trivial

theorem twin_resolveValueCall (call callee : NodeRef) {calleeType : NominalType}
    (comes : calleeType.From home) (types : List NominalType) (arguments : List Tree.Expr) :
    Twin home (NominalType.From home)
      (resolveValueCall call callee calleeType types arguments : Script isOpen NominalType)
      (resolveValueCall call callee calleeType types arguments :
        Script isOpenLater NominalType) := by
  unfold resolveValueCall
  split
  · exact .of_pure from_error
  · cases parts : Library.functionParts? calleeType with
    | none => exact (twin_report _ _).bind fun _ _ => .of_pure from_error
    | some found =>
        obtain ⟨parameters, result⟩ := found
        have comesResult := comes.of_functionParts? parts
        have called : Twin home (NominalType.From home)
            (do expectArguments types parameters arguments; return result :
              Script isOpen NominalType)
            (do expectArguments types parameters arguments; return result :
              Script isOpenLater NominalType) :=
          (twin_expectArguments _ _ _).bind fun _ _ => .of_pure comesResult
        dsimp only
        split
        · exact (twin_report _ _).bind fun _ _ => called
        · exact called

end Script

namespace Surroundings.Resembles

variable {first second : Surroundings} (resembles : first.Resembles word home second)

include resembles

/-! ### Types of declarations -/

theorem settle {known : Option NominalType} {declaration : Option NodeRef}
    (comes : ∀ type ∈ known, type.From home) (declared : ∀ node ∈ declaration, home node) :
    Twin home (NominalType.From home) (first.settle known declaration)
      (second.settle known declaration) := by
  cases known with
  | some type => exact .of_pure (comes type rfl)
  | none =>
      cases declaration with
      | none => exact .of_pure from_error
      | some node =>
          have same := resembles.isOpen node (declared node rfl)
          unfold Surroundings.settle
          dsimp only
          by_cases asked : first.isOpen node = true
          · rw [dif_pos asked, dif_pos (same ▸ asked)]
            exact .of_ask asked _
          · rw [dif_neg asked, dif_neg (same ▸ asked)]
            exact .of_pure from_error

theorem variableType {holder : VariableDescriptor}
    (comes : (Descriptor.variable holder).From home) :
    Twin home (NominalType.From home) (first.variableType holder)
      (second.variableType holder) := by
  cases holder with
  | parameter owner parameter => exact .of_pure (Descriptor.from_parameter_iff.mp comes).2
  | «local» declared => exact .of_pure comes
  | property property =>
      obtain ⟨declared, known⟩ := Descriptor.from_property_iff.mp comes
      exact resembles.settle known declared

theorem returnType {function : FunctionDescriptor}
    (comes : (Descriptor.function function).From home) :
    Twin home (NominalType.From home) (first.returnType function)
      (second.returnType function) := by
  obtain ⟨declared, -, known⟩ := Descriptor.from_function_iff.mp comes
  exact resembles.settle known declared

theorem valueType {descriptor : Descriptor} (comes : descriptor.From home) :
    Twin home (NominalType.From home) (first.valueType descriptor)
      (second.valueType descriptor) := by
  cases descriptor with
  | «variable» holder => exact resembles.variableType comes
  | invoke called type => exact resembles.variableType (Descriptor.from_invoke_iff.mp comes).1
  | function function =>
      obtain ⟨-, parameters, -⟩ := Descriptor.from_function_iff.mp comes
      refine (resembles.returnType comes).bind fun result comesResult => ?_
      refine Twin.bind (.of_tell trivial) fun _ _ => .of_pure ?_
      exact from_functionType (List.forall_mem_map.mpr parameters) comesResult false
  | specialized function =>
      refine .of_pure ?_
      cases returned : function.returnType with
      | none => exact from_error
      | some type =>
          change ∀ node ∈ (function.returnType.map NominalType.nodes).getD [], home node at comes
          rw [returned] at comes
          exact comes
  | «class» | typeParameter | error => exact .of_pure from_error

/-! ### Candidates -/

theorem asCallable {descriptor : Descriptor} (comes : descriptor.From home) :
    Twin home (fun callable => ∀ candidate ∈ callable, candidate.From home)
      (first.asCallable descriptor) (second.asCallable descriptor) := by
  have itself : ∀ candidate ∈ some descriptor, candidate.From home := by
    simpa using comes
  cases descriptor with
  | «class» | function | specialized => exact .of_pure itself
  | typeParameter | invoke | error => exact .of_pure (by simp)
  | «variable» holder =>
      refine (resembles.variableType comes).bind fun type comesType => .of_pure ?_
      intro candidate isCallable
      obtain ⟨arity, -, rfl⟩ := Option.map_eq_some_iff.mp isCallable
      exact Descriptor.from_invoke_iff.mpr ⟨comes, comesType⟩

theorem callables {descriptors : List Descriptor}
    (comes : ∀ descriptor ∈ descriptors, descriptor.From home) :
    Twin home (fun found => ∀ candidate ∈ found, candidate.From home)
      (first.callables descriptors) (second.callables descriptors) := by
  induction descriptors with
  | nil => exact .of_pure (List.forall_mem_nil _)
  | cons descriptor rest ih =>
      obtain ⟨comesFirst, comesRest⟩ := List.forall_mem_cons.mp comes
      refine (resembles.asCallable comesFirst).bind fun callable areFirst => ?_
      refine (ih comesRest).bind fun later areLater => .of_pure ?_
      refine List.forall_mem_append.mpr ⟨fun candidate isFirst => ?_, areLater⟩
      exact areFirst candidate (Option.mem_toList.mp isFirst)

theorem callablesAt (isOther : name ≠ word) {levels others : List (List (Symbol Descriptor))}
    (same : List.Forall₂ (SameApart word) levels others)
    (comes : ∀ level ∈ levels, ∀ symbol ∈ level, symbol.descriptor.From home) :
    Twin home (fun found => ∀ candidate ∈ found, candidate.From home)
      (first.callablesAt name levels) (second.callablesAt name others) := by
  induction same with
  | nil => exact .of_pure (List.forall_mem_nil _)
  | @cons level another _ _ sameLevel _ ih =>
      obtain ⟨comesLevel, comesOuter⟩ := List.forall_mem_cons.mp comes
      rw [Surroundings.callablesAt, Surroundings.callablesAt, sameLevel name isOther]
      have comesNamed : ∀ descriptor ∈ ((another.filter fun symbol => symbol.name = name).filter
          fun symbol => symbol.kind ≠ .typeParameter).map Symbol.descriptor,
            descriptor.From home := by
        refine List.forall_mem_map.mpr fun symbol isSymbol => ?_
        have isNamed := List.mem_of_mem_filter isSymbol
        rw [← sameLevel name isOther] at isNamed
        exact comesLevel symbol (List.mem_of_mem_filter isNamed)
      refine (resembles.callables comesNamed).bind fun found comesFound => ?_
      cases found with
      | nil => exact ih comesOuter
      | cons candidate rest => exact .of_pure comesFound

/-- The members of a receiver, with what the type parameters of its class stand for. -/
theorem membersOf {receiver : NominalType} (comes : receiver.From home) (name : String) :
    first.membersOf receiver name = second.membersOf receiver name ∧
      (∀ member ∈ (first.membersOf receiver name).1, member.From home) ∧
        Substitution.From home (first.membersOf receiver name).2 := by
  have universal : ∀ member ∈ Library.anyClass.membersNamed name, member.From home := by
    have library : ∀ member ∈ Library.anyClass.members, member.nodes = [] := by decide
    exact fun member isMember =>
      Descriptor.from_of_nodes (library member (List.mem_of_mem_filter isMember))
  have same := resembles.class? receiver.constructor (from_iff.mp comes).1
  rw [Surroundings.membersOf, Surroundings.membersOf, same]
  refine ⟨rfl, ?_⟩
  cases found : second.class? receiver.constructor with
  | none => exact ⟨universal, Substitution.from_empty⟩
  | some entry =>
      refine ⟨?_, Substitution.from_ofList_zip _ comes.arguments⟩
      dsimp only
      split
      · exact universal
      · intro member isMember
        exact resembles.members _ entry (same.trans found) member (List.mem_of_mem_filter isMember)

/-! ### Calls -/

theorem signature {receiver : Substitution} (puts : Substitution.From home receiver)
    {candidate : Descriptor} (comes : candidate.From home) :
    Twin home (fun signature => signature.candidate.From home ∧ signature.result.From home)
      (first.signature receiver candidate) (second.signature receiver candidate) := by
  cases candidate with
  | invoke called type =>
      refine .of_pure ⟨comes, ?_⟩
      cases parts : Library.functionParts? type with
      | none => exact from_error
      | some found => exact (Descriptor.from_invoke_iff.mp comes).2.of_functionParts? parts
  | «class» declared =>
      have own : ∀ node ∈ declared.constructor.declaration?, home node :=
        (from_iff.mp (Descriptor.From.defaultType comes)).1
      rw [Surroundings.signature, Surroundings.signature, resembles.class? _ own]
      exact .of_pure ⟨comes, Descriptor.From.defaultType comes⟩
  | function declared =>
      exact (resembles.returnType comes).bind fun result comesResult =>
        .of_pure ⟨comes, puts.substitute comesResult⟩
  | specialized | «variable» | typeParameter | error => exact .of_pure ⟨comes, from_error⟩

theorem signatures {receiver : Substitution} (puts : Substitution.From home receiver)
    {candidates : List Descriptor} (comes : ∀ candidate ∈ candidates, candidate.From home) :
    Twin home
      (fun judged => ∀ signature ∈ judged,
        signature.candidate.From home ∧ signature.result.From home)
      (first.signatures receiver candidates) (second.signatures receiver candidates) := by
  induction candidates with
  | nil => exact .of_pure (List.forall_mem_nil _)
  | cons candidate rest ih =>
      obtain ⟨comesFirst, comesRest⟩ := List.forall_mem_cons.mp comes
      refine (resembles.signature puts comesFirst).bind fun signature isFirst => ?_
      exact (ih comesRest).bind fun later areLater =>
        .of_pure (List.forall_mem_cons.mpr ⟨isFirst, areLater⟩)

theorem shown {descriptor : Descriptor} (comes : descriptor.From home) :
    Twin home (fun _ => True) (first.shown descriptor) (second.shown descriptor) := by
  unfold Surroundings.shown
  cases isShown : descriptor.shownOpen? with
  | none => exact .of_pure trivial
  | some node =>
      have same := resembles.isOpen node (comes.shownOpen? node isShown)
      dsimp only
      rw [resembles.own]
      split
      · exact .of_pure trivial
      · by_cases asked : first.isOpen node = true
        · rw [dif_pos asked, dif_pos (same ▸ asked)]
          exact (Twin.of_ask asked _).bind fun _ _ => .of_pure trivial
        · rw [dif_neg asked, dif_neg (same ▸ asked)]
          exact .of_pure trivial

theorem resolveCall (reference : NodeRef) (name : String) {candidates : List Descriptor}
    (comes : ∀ candidate ∈ candidates, candidate.From home) {arguments : List NominalType}
    (comesArguments : ∀ argument ∈ arguments, argument.From home) {receiver : Substitution}
    (puts : Substitution.From home receiver) :
    Twin home (NominalType.From home)
      (first.resolveCall reference name candidates arguments receiver)
      (second.resolveCall reference name candidates arguments receiver) := by
  refine (resembles.signatures puts comes).bind fun judged areJudged => ?_
  cases chosen : Choice.among judged arguments with
  | none => exact (twin_unresolved _ _).bind fun _ _ => .of_pure from_error
  | inapplicable =>
      exact (twin_report _ _).bind fun _ _ => Twin.bind (.of_tell trivial) fun _ _ =>
        .of_pure from_error
  | mismatch only =>
      obtain ⟨comesOnly, comesResult⟩ := areJudged only (Choice.mem_of_among_eq_mismatch chosen)
      refine (twin_record _ comesOnly.shownOpen?).bind fun _ _ => ?_
      refine (resembles.shown comesOnly).bind fun inferred _ => ?_
      exact Twin.bind (.of_write fun _ => trivial) fun _ _ => .of_pure comesResult
  | ambiguous winners =>
      refine Twin.bind (.of_tell (List.forall_mem_map.mpr fun winner isWinner => ?_)) fun _ _ =>
        (twin_report _ _).bind fun _ _ => .of_pure from_error
      obtain ⟨signature, isJudged, isCandidate⟩ :=
        Choice.exists_of_among_eq_ambiguous chosen winner isWinner
      exact isCandidate ▸ (areJudged signature isJudged).1.shownOpen?
  | chosen best =>
      obtain ⟨comesResult, signature, isJudged, isCandidate⟩ :=
        Choice.from_of_among_eq_chosen chosen comesArguments fun signature isJudged =>
          (areJudged signature isJudged).2
      have comesBest : best.candidate.From home := isCandidate ▸ (areJudged signature isJudged).1
      refine (resembles.shown comesBest).bind fun inferred _ => ?_
      exact Twin.bind (.of_write fun own => comesBest.shownOpen?_callTarget (inferred own))
        fun _ _ => .of_pure comesResult

/-! ### Names -/

theorem lookup_eq (isOther : name ≠ word) (accept : SymbolKind → Bool) :
    first.lookup accept name = second.lookup accept name := by
  apply find?_rel Eq rfl
  · rintro one _ rfl
    rfl
  · rw [List.forall₂_map_left_iff, List.forall₂_map_right_iff]
    refine resembles.levels.imp fun level another same => ?_
    rw [same name isOther]

theorem from_of_mem_lookup {accept : SymbolKind → Bool} {symbol : Symbol Descriptor}
    (found : symbol ∈ first.lookup accept name) : symbol.descriptor.From home := by
  obtain ⟨⟨level, isLevel, isSymbol⟩, -, -⟩ := mem_levels_of_mem_lookup found
  exact resembles.symbols level isLevel symbol isSymbol

theorem classifiers_eq (isOther : name ≠ word) :
    first.classifiers name = second.classifiers name := by
  rw [classifiers, classifiers, resembles.lookup_eq isOther]

theorem resolveValue {used : Tree.SimpleName} (isOther : used.text ≠ word) :
    Twin home (NominalType.From home) (first.resolveValue used) (second.resolveValue used) := by
  unfold Surroundings.resolveValue
  rw [← resembles.lookup_eq isOther]
  cases found : first.lookup SymbolKind.isValue used.text with
  | nil => exact (twin_unresolved _ _).bind fun _ _ => .of_pure from_error
  | cons symbol rest =>
      have comes : symbol.descriptor.From home :=
        resembles.from_of_mem_lookup (found ▸ List.mem_cons_self)
      refine (twin_record _ comes.shownOpen?).bind fun _ _ => ?_
      cases meant : symbol.descriptor with
      | «variable» holder => exact resembles.variableType (meant ▸ comes)
      | _ => exact .of_pure from_error

theorem resolveCallableRef {used : Tree.SimpleName} (isOther : used.text ≠ word) :
    Twin home (NominalType.From home) (first.resolveCallableRef used)
      (second.resolveCallableRef used) := by
  have comes : ∀ symbol ∈ first.lookup (fun kind => kind = .function) used.text,
      symbol.descriptor.From home := fun symbol => resembles.from_of_mem_lookup
  unfold Surroundings.resolveCallableRef
  rw [← resembles.lookup_eq isOther]
  generalize first.lookup (fun kind => kind = .function) used.text = found at comes
  cases found with
  | nil => exact (twin_unresolved _ _).bind fun _ _ => twin_typed _ from_error
  | cons symbol rest =>
      have comesFirst := comes symbol List.mem_cons_self
      cases rest with
      | nil =>
          refine (twin_record _ comesFirst.shownOpen?).bind fun _ _ => ?_
          exact (resembles.valueType comesFirst).bind fun type comesType => twin_typed _ comesType
      | cons another rest =>
          refine Twin.bind (.of_tell ?_) fun _ _ =>
            (twin_report _ _).bind fun _ _ => twin_typed _ from_error
          exact List.forall_mem_map.mpr fun symbol isSymbol => (comes symbol isSymbol).shownOpen?

theorem resolveNameCall {used : Tree.SimpleName} (isOther : used.text ≠ word)
    {arguments : List NominalType} (comesArguments : ∀ argument ∈ arguments, argument.From home) :
    Twin home (NominalType.From home) (first.resolveNameCall used arguments)
      (second.resolveNameCall used arguments) := by
  refine (resembles.callablesAt isOther resembles.levels resembles.symbols).bind
    fun candidates comes => ?_
  refine (resembles.resolveCall _ _ comes comesArguments Substitution.from_empty).bind
    fun type comesType => ?_
  exact twin_typed _ comesType

/-! ### Members -/

theorem resolveSelector {receiver : NominalType} (comes : receiver.From home)
    (selector : Tree.SimpleName) :
    Twin home (NominalType.From home) (first.resolveSelector receiver selector)
      (second.resolveSelector receiver selector) := by
  unfold Surroundings.resolveSelector
  dsimp only
  split
  · exact (twin_recordError _ _).bind fun _ comesType => twin_typed _ comesType
  · obtain ⟨same, comesMembers, puts⟩ := resembles.membersOf comes selector.text
    rw [← same]
    cases found : (first.membersOf receiver selector.text).1.filterMap Resolver.asProperty? with
    | nil => exact (twin_unresolved _ _).bind fun _ _ => twin_typed _ from_error
    | cons property rest =>
        have isProperty : property ∈
            (first.membersOf receiver selector.text).1.filterMap Resolver.asProperty? :=
          found ▸ List.mem_cons_self
        obtain ⟨member, isMember, asProperty⟩ := List.mem_filterMap.mp isProperty
        have comesProperty : (Descriptor.variable (.property property)).From home := by
          have comesMember := comesMembers member isMember
          unfold Resolver.asProperty? at asProperty
          split at asProperty
          · cases asProperty
            exact comesMember
          · cases asProperty
        refine (twin_record _ comesProperty.shownOpen?).bind fun _ _ => ?_
        exact (resembles.variableType comesProperty).bind fun type comesType =>
          twin_typed _ (puts.substitute comesType)

theorem resolveMemberCall {receiver : NominalType} (comes : receiver.From home)
    (selector : Tree.SimpleName) {arguments : List NominalType}
    (comesArguments : ∀ argument ∈ arguments, argument.From home) :
    Twin home (NominalType.From home) (first.resolveMemberCall receiver selector arguments)
      (second.resolveMemberCall receiver selector arguments) := by
  unfold Surroundings.resolveMemberCall
  dsimp only
  split
  · exact (twin_recordError _ _).bind fun _ comesType => twin_typed _ comesType
  · obtain ⟨same, comesMembers, puts⟩ := resembles.membersOf comes selector.text
    rw [← same]
    refine (resembles.callables comesMembers).bind fun candidates comesCandidates => ?_
    refine (resembles.resolveCall _ _ comesCandidates comesArguments puts).bind
      fun type comesType => ?_
    exact twin_typed _ comesType

theorem resolveOperator {left right : NominalType} (comes : left.From home)
    (comesRight : right.From home) (reference : Tree.OperatorRef) :
    Twin home (NominalType.From home) (first.resolveOperator left right reference)
      (second.resolveOperator left right reference) := by
  have last (type : NominalType) (comesType : type.From home) :
      Twin home (NominalType.From home)
        (pure (if reference.operator.isComparison then Library.boolean else type) :
          Script first.isOpen NominalType)
        (pure (if reference.operator.isComparison then Library.boolean else type) :
          Script second.isOpen NominalType) := by
    refine .of_pure ?_
    split
    · exact from_of_nodes rfl
    · exact comesType
  unfold Surroundings.resolveOperator
  dsimp only
  split
  · exact (twin_recordError _ _).bind last
  · obtain ⟨same, comesMembers, puts⟩ :=
      resembles.membersOf comes reference.operator.memberName
    rw [← same]
    refine Twin.bind (resembles.resolveCall _ _ (fun candidate isCandidate => ?_)
      (List.forall_mem_singleton.mpr comesRight) puts) last
    exact comesMembers candidate (List.mem_of_mem_filter isCandidate)

end Surroundings.Resembles

/-! ### Expressions -/

namespace Surroundings.Resembles

attribute [local simp] Node.children Node.parts Node.expressionParts Part.children
  Tree.Expr.node Tree.SimpleName.node

variable {first second : Surroundings}

mutual

/-- An expression that does not use the word, one case for each form of it. -/
theorem infer (resembles : first.Resembles word home second) : (value : Tree.Expr) →
    value.node.Avoids word →
      Twin home (NominalType.From home) (first.infer value) (second.infer value)
  | .name name, avoids => by
      rw [Surroundings.infer, Surroundings.infer]
      exact (resembles.resolveValue (avoids.self rfl)).bind fun _ comes => twin_typed _ comes
  | .integer span value, _ | .text span value, _ | .boolean span value, _ | .null span, _ => by
      rw [Surroundings.infer, Surroundings.infer]
      exact twin_typed _ (from_of_nodes rfl)
  | .callableRef span target, avoids => by
      rw [Surroundings.infer, Surroundings.infer]
      have avoidsTarget : target.node.Avoids word := avoids.child (by simp)
      exact (resembles.resolveCallableRef (avoidsTarget.self rfl)).bind fun _ comes =>
        twin_typed _ comes
  | .paren span inner, avoids => by
      rw [Surroundings.infer, Surroundings.infer]
      exact (infer resembles inner (avoids.child (by simp))).bind fun _ comes => twin_typed _ comes
  | .ifThen span condition thenBranch, avoids => by
      rw [Surroundings.infer, Surroundings.infer]
      refine (infer resembles condition (avoids.child (by simp))).bind fun _ _ => ?_
      refine (twin_expect _ _ _).bind fun _ _ => ?_
      refine (infer resembles thenBranch (avoids.child (by simp))).bind fun _ _ => ?_
      exact twin_typed _ (from_of_nodes rfl)
  | .ifElse span condition thenBranch elseBranch, avoids => by
      rw [Surroundings.infer, Surroundings.infer]
      refine (infer resembles condition (avoids.child (by simp))).bind fun _ _ => ?_
      refine (twin_expect _ _ _).bind fun _ _ => ?_
      refine (infer resembles thenBranch (avoids.child (by simp))).bind fun _ comesThen => ?_
      refine (infer resembles elseBranch (avoids.child (by simp))).bind fun _ comesElse => ?_
      exact twin_typed _ (comesThen.join comesElse (from_of_nodes rfl))
  | .member span receiver selector, avoids => by
      rw [Surroundings.infer, Surroundings.infer]
      refine (infer resembles receiver (avoids.child (by simp))).bind fun _ comes => ?_
      exact (resembles.resolveSelector comes selector).bind fun _ comesType =>
        twin_typed _ comesType
  | .binary span left operator right, avoids => by
      rw [Surroundings.infer, Surroundings.infer]
      refine (infer resembles left (avoids.child (by simp))).bind fun _ comesLeft => ?_
      refine (infer resembles right (avoids.child (by simp))).bind fun _ comesRight => ?_
      exact (resembles.resolveOperator comesLeft comesRight operator).bind fun _ comes =>
        twin_typed _ comes
  | .call span callee arguments, avoids => by
      have inferred := inferAll resembles arguments fun argument isArgument =>
        avoids.child (by
          simp only [Node.children, Node.parts, Node.expressionParts, Tree.Expr.node,
            Part.children, List.flatMap_cons, List.flatMap_nil, List.append_nil]
          exact List.mem_append_right _ (List.mem_map_of_mem isArgument))
      have avoidsCallee : callee.node.Avoids word := avoids.child (by simp)
      cases callee with
      | name name =>
          rw [Surroundings.infer, Surroundings.infer]
          refine inferred.bind fun _ comesArguments => ?_
          exact (resembles.resolveNameCall (avoidsCallee.self rfl) comesArguments).bind
            fun _ comes => twin_typed _ comes
      | member memberSpan receiver selector =>
          rw [Surroundings.infer, Surroundings.infer]
          refine inferred.bind fun _ comesArguments => ?_
          refine (infer resembles receiver (avoidsCallee.child (by simp))).bind fun _ comes => ?_
          refine (resembles.resolveMemberCall comes selector comesArguments).bind
            fun _ comesType => ?_
          exact Twin.bind (.of_tell trivial) fun _ _ => twin_typed _ comesType
      | _ =>
          rw [infer_call first, infer_call second]
          · refine inferred.bind fun _ _ => ?_
            refine (infer resembles _ avoidsCallee).bind fun _ comes => ?_
            exact (twin_resolveValueCall _ _ comes _ _).bind fun _ comesType =>
              twin_typed _ comesType
          all_goals simp

theorem inferAll (resembles : first.Resembles word home second) : (values : List Tree.Expr) →
    (∀ value ∈ values, value.node.Avoids word) →
      Twin home (fun types => ∀ type ∈ types, type.From home) (first.inferAll values)
        (second.inferAll values)
  | [], _ => by
      rw [Surroundings.inferAll, Surroundings.inferAll]
      exact .of_pure (List.forall_mem_nil _)
  | value :: rest, avoids => by
      obtain ⟨avoidsFirst, avoidsRest⟩ := List.forall_mem_cons.mp avoids
      rw [Surroundings.inferAll, Surroundings.inferAll]
      refine (infer resembles value avoidsFirst).bind fun _ comes => ?_
      exact (inferAll resembles rest avoidsRest).bind fun _ comesLater =>
        .of_pure (List.forall_mem_cons.mpr ⟨comes, comesLater⟩)

end

end Surroundings.Resembles

end Gloss
