import Gloss.Proofs.Order.Likeness
import Mathlib.Algebra.BigOperators.Pi
import Mathlib.Tactic.Abel

/-!
# Inferences in alike surroundings

In alike surroundings an expression is inferred by alike scripts.  Each of them gives a
type to every expression in it and a meaning to every reference, once.
-/

namespace Gloss

open Script

variable {first second : Surroundings} {around : Surroundings}

section Silent

namespace Surroundings

theorem silent_settle (known : Option NominalType) (declaration : Option NodeRef) :
    (around.settle known declaration).Silent := by
  cases known with
  | some type => exact .of_pure type
  | none =>
      cases declaration with
      | none => exact .of_pure _
      | some node =>
          rw [settle]
          split
          · next asked => exact .of_ask asked
          · exact .of_pure _

theorem value?_settle (table : InferredTypes) (known : Option NominalType)
    (declaration : Option NodeRef) :
    (around.settle known declaration).value? table =
      match known, declaration with
      | some type, _ => some type
      | none, none => some .error
      | none, some node => if around.isOpen node then table.get? node else some .error := by
  cases known with
  | some type => rfl
  | none =>
      cases declaration with
      | none => rfl
      | some node =>
          rw [settle]
          dsimp only
          split
          · rw [value?, outcome]
            cases table.get? node <;> rfl
          · rfl

theorem silent_variableType (holder : VariableDescriptor) :
    (around.variableType holder).Silent := by
  cases holder with
  | parameter owner parameter => exact .of_pure _
  | property property => exact silent_settle _ _
  | «local» declared => exact .of_pure _

theorem silent_asCallable (descriptor : Descriptor) : (around.asCallable descriptor).Silent := by
  cases descriptor with
  | «variable» holder => exact (silent_variableType holder).bind fun _ => .of_pure _
  | _ => exact .of_pure _

theorem silent_callables (descriptors : List Descriptor) :
    (around.callables descriptors).Silent := by
  induction descriptors with
  | nil => exact .of_pure _
  | cons descriptor rest ih =>
      exact (silent_asCallable descriptor).bind fun _ => ih.bind fun _ => .of_pure _

theorem value?_callables (known : InferredTypes) (descriptors : List Descriptor) :
    (around.callables descriptors).value? known =
      gather (fun descriptor => ((around.asCallable descriptor).value? known).map Option.toList)
        descriptors := by
  induction descriptors with
  | nil => rfl
  | cons descriptor rest ih =>
      rw [callables, value?_bind, gather]
      cases (around.asCallable descriptor).value? known with
      | none => rfl
      | some callable =>
          simp only [Option.bind_some, Option.map_some, value?_bind, ih, value?_pure]
          cases gather _ rest <;> rfl

theorem silent_signature (receiver : Substitution) (candidate : Descriptor) :
    (around.signature receiver candidate).Silent := by
  cases candidate with
  | function descriptor => exact (silent_settle _ _).bind fun _ => .of_pure _
  | _ => exact .of_pure _

theorem silent_signatures (receiver : Substitution) (candidates : List Descriptor) :
    (around.signatures receiver candidates).Silent := by
  induction candidates with
  | nil => exact .of_pure _
  | cons candidate rest ih =>
      exact (silent_signature receiver candidate).bind fun _ => ih.bind fun _ => .of_pure _

theorem value?_signatures (known : InferredTypes) (receiver : Substitution)
    (candidates : List Descriptor) :
    (around.signatures receiver candidates).value? known =
      gather (fun candidate =>
        ((around.signature receiver candidate).value? known).map fun found => [found])
        candidates := by
  induction candidates with
  | nil => rfl
  | cons candidate rest ih =>
      rw [signatures, value?_bind, gather]
      cases (around.signature receiver candidate).value? known with
      | none => rfl
      | some found =>
          simp only [Option.bind_some, Option.map_some, value?_bind, ih, value?_pure]
          cases gather _ rest <;> rfl

end Surroundings

end Silent

/-- Silent scripts with equal values are alike. -/
theorem Script.Silent.alike_of_eq {isOpen isOpenLater : NodeRef → Bool} {α : Type}
    {script : Script isOpen α} {other : Script isOpenLater α} (silent : script.Silent)
    (silentOther : other.Silent) (values : ∀ known, script.value? known = other.value? known) :
    Script.Alike 0 Eq script other := by
  apply silent.alike silentOther
  intro known
  rw [values known]
  cases other.value? known with
  | none => exact .none
  | some value => exact .some rfl

/-! ### What scripts are about -/

/-- The nodes for which something is written down: one node and one slot. -/
def Slot.only (slot : Slot) (node : NodeRef) : Slot → Multiset NodeRef :=
  fun other => if other = slot then {node} else 0

namespace Script

variable {isOpen isOpenLater : NodeRef → Bool}

theorem alike_report {problem another : Problem} (same : problem = another) (node : NodeRef) :
    Alike 0 (fun _ _ => True) (report problem node : Script isOpen Unit)
      (report another node : Script isOpenLater Unit) := by
  subst same
  exact (Alike.of_tell (.refl _)).cast (funext fun slot => by cases slot <;> rfl)

theorem alike_meaning {reference : NodeRef} {meant another : Meaning Descriptor}
    (alike : (Remark.meaning reference meant).Alike (.meaning reference another)) :
    Alike (Slot.meaning.only reference) (fun _ _ => True)
      (tell (.meaning reference meant) : Script isOpen Unit)
      (tell (.meaning reference another) : Script isOpenLater Unit) :=
  (Alike.of_tell alike).cast (funext fun slot => by cases slot <;> rfl)

theorem alike_record (reference : NodeRef) (target : Descriptor) :
    Alike (Slot.meaning.only reference) (fun _ _ => True)
      (record reference target : Script isOpen Unit)
      (record reference target : Script isOpenLater Unit) :=
  alike_meaning (.refl _)

theorem alike_unresolved (reference : NodeRef) (name : String) :
    Alike (Slot.meaning.only reference) (fun _ _ => True)
      (unresolved reference name : Script isOpen Unit)
      (unresolved reference name : Script isOpenLater Unit) :=
  (alike_meaning (.refl _)).andThen fun _ _ _ => alike_report rfl reference

theorem alike_tell_typed (node : NodeRef) (type : NominalType) :
    Alike (Slot.type.only node) (fun _ _ => True)
      (tell (.typed node type) : Script isOpen Unit)
      (tell (.typed node type) : Script isOpenLater Unit) :=
  (Alike.of_tell (.refl _)).cast (funext fun slot => by cases slot <;> rfl)

theorem alike_typed (node : NodeRef) (type : NominalType) :
    Alike (Slot.type.only node) Eq (typed node type : Script isOpen NominalType)
      (typed node type : Script isOpenLater NominalType) :=
  (alike_tell_typed node type).andThen fun _ _ _ => .of_pure rfl

theorem alike_arity (count : Nat) :
    Alike 0 (fun _ _ => True) (tell (.arity count) : Script isOpen Unit)
      (tell (.arity count) : Script isOpenLater Unit) :=
  (Alike.of_tell (.refl _)).cast (funext fun slot => by cases slot <;> rfl)

theorem alike_recordError (reference : NodeRef) (name : String) :
    Alike (Slot.meaning.only reference) Eq
      (recordError reference name : Script isOpen NominalType)
      (recordError reference name : Script isOpenLater NominalType) :=
  (alike_record _ _).andThen fun _ _ _ => .of_pure rfl

theorem alike_expect (actual expected : NominalType) (node : NodeRef) :
    Alike 0 (fun _ _ => True) (expect actual expected node : Script isOpen Unit)
      (expect actual expected node : Script isOpenLater Unit) := by
  unfold expect
  split
  · exact .of_pure trivial
  · exact alike_report rfl node

theorem alike_expectArguments :
    ∀ (arguments parameters : List NominalType) (expressions : List Tree.Expr),
      Alike 0 (fun _ _ => True)
        (expectArguments arguments parameters expressions : Script isOpen Unit)
        (expectArguments arguments parameters expressions : Script isOpenLater Unit)
  | argument :: arguments, parameter :: parameters, expression :: expressions => by
      rw [expectArguments, expectArguments]
      exact (alike_expect _ _ _).andThen fun _ _ _ => alike_expectArguments _ _ _
  | [], _, _ => .of_pure trivial
  | _ :: _, [], _ => .of_pure trivial
  | _ :: _, _ :: _, [] => .of_pure trivial

theorem alike_resolveValueCall (call callee : NodeRef) (calleeType : NominalType)
    (argumentTypes : List NominalType) (arguments : List Tree.Expr) :
    Alike 0 Eq
      (resolveValueCall call callee calleeType argumentTypes arguments :
        Script isOpen NominalType)
      (resolveValueCall call callee calleeType argumentTypes arguments :
        Script isOpenLater NominalType) := by
  unfold resolveValueCall
  split
  · exact .of_pure rfl
  · cases Library.functionParts? calleeType with
    | none => exact (alike_report rfl _).andThen fun _ _ _ => .of_pure rfl
    | some parts =>
        obtain ⟨parameters, result⟩ := parts
        have goesOn : Alike 0 Eq
            (do expectArguments argumentTypes parameters arguments; return result :
              Script isOpen NominalType)
            (do expectArguments argumentTypes parameters arguments; return result :
              Script isOpenLater NominalType) :=
          (alike_expectArguments _ _ _).andThen fun _ _ _ => .of_pure rfl
        dsimp only
        split
        · exact (alike_report rfl _).andThen fun _ _ _ => goesOn
        · exact goesOn

end Script

namespace Surroundings.Alike

variable (alike : first.Alike second)

include alike

theorem value?_settle (table : InferredTypes) (known : Option NominalType)
    (declaration : Option NodeRef) :
    (first.settle known declaration).value? table =
      (second.settle known declaration).value? table := by
  rw [Surroundings.value?_settle, Surroundings.value?_settle, alike.isOpen]

theorem settle (known : Option NominalType) (declaration : Option NodeRef) :
    Script.Alike 0 Eq (first.settle known declaration) (second.settle known declaration) :=
  (silent_settle _ _).alike_of_eq (silent_settle _ _) fun _ => alike.value?_settle _ _ _

theorem value?_variableType (table : InferredTypes) (holder : VariableDescriptor) :
    (first.variableType holder).value? table = (second.variableType holder).value? table := by
  cases holder with
  | property property => exact alike.value?_settle _ _ _
  | _ => rfl

theorem variableType (holder : VariableDescriptor) :
    Script.Alike 0 Eq (first.variableType holder) (second.variableType holder) :=
  (silent_variableType _).alike_of_eq (silent_variableType _) fun _ =>
    alike.value?_variableType _ _

theorem valueType (descriptor : Descriptor) :
    Script.Alike 0 Eq (first.valueType descriptor) (second.valueType descriptor) := by
  cases descriptor with
  | «variable» holder => exact alike.variableType holder
  | invoke called type => exact alike.variableType called
  | function function =>
      apply (alike.settle _ _).andThen
      intro result _ same
      subst same
      exact (Script.alike_arity _).andThen fun _ _ _ => .of_pure rfl
  | _ => exact .of_pure rfl

theorem value?_asCallable (table : InferredTypes) (descriptor : Descriptor) :
    (first.asCallable descriptor).value? table = (second.asCallable descriptor).value? table := by
  cases descriptor with
  | «variable» holder =>
      rw [asCallable, asCallable, Script.value?_bind, Script.value?_bind,
        alike.value?_variableType]
      rfl
  | _ => rfl

/-- Candidates in another order give callables in another order. -/
theorem callables {descriptors others : List Descriptor} (perm : descriptors.Perm others) :
    Script.Alike 0 List.Perm (first.callables descriptors) (second.callables others) := by
  apply (silent_callables _).alike (silent_callables _)
  intro known
  simp only [value?_callables, alike.value?_asCallable]
  exact gather_perm _ perm

theorem value?_signature (table : InferredTypes) (receiver : Substitution)
    (candidate : Descriptor) :
    (first.signature receiver candidate).value? table =
      (second.signature receiver candidate).value? table := by
  cases candidate with
  | function descriptor =>
      rw [signature, signature, Script.value?_bind, Script.value?_bind, returnType, returnType,
        alike.value?_settle]
      rfl
  | «class» descriptor =>
      rw [signature, signature, alike.class?]
      rfl
  | _ => rfl

theorem signatures (receiver : Substitution) {candidates others : List Descriptor}
    (perm : candidates.Perm others) :
    Script.Alike 0 List.Perm (first.signatures receiver candidates)
      (second.signatures receiver others) := by
  apply (silent_signatures _ _).alike (silent_signatures _ _)
  intro known
  simp only [value?_signatures, alike.value?_signature]
  exact gather_perm _ perm

theorem callablesAt (name : String) {levels others : List (List (Symbol Descriptor))}
    (same : List.Forall₂ Interchangeable levels others) :
    Script.Alike 0 List.Perm (first.callablesAt name levels) (second.callablesAt name others) := by
  induction same with
  | nil => exact .of_pure (.refl [])
  | cons interchangeable _ ih =>
      apply (alike.callables ((interchangeable.filter_perm name _).map _)).andThen
      intro found callables perm
      cases found with
      | nil =>
          rw [← perm.nil_eq]
          exact ih
      | cons one rest =>
          cases callables with
          | nil => exact absurd perm.eq_nil (by simp)
          | cons other others => exact .of_pure perm

/-- What is shown with a descriptor, up to the declaration itself. -/
theorem shown (descriptor : Descriptor) :
    Script.Alike 0 (fun inferred others => inferred none = others none)
      (first.shown descriptor) (second.shown descriptor) := by
  unfold Surroundings.shown
  cases descriptor.shownOpen? with
  | none => exact .of_pure rfl
  | some node =>
      dsimp only
      rw [alike.own]
      split
      · exact .of_pure rfl
      · by_cases isOpen : first.isOpen node = true
        · have isOpenSecond : second.isOpen node = true := alike.isOpen ▸ isOpen
          rw [dif_pos isOpen, dif_pos isOpenSecond]
          apply (Script.Alike.of_ask isOpen isOpenSecond).andThen
          rintro type _ rfl
          exact .of_pure rfl
        · have notOpenSecond : ¬ second.isOpen node = true := alike.isOpen ▸ isOpen
          rw [dif_neg isOpen, dif_neg notOpenSecond]
          exact .of_pure rfl

/-- A call has the same outcome whatever the order of the candidates. -/
theorem resolveCall (reference : NodeRef) (name : String) {candidates others : List Descriptor}
    (perm : candidates.Perm others) (arguments : List NominalType) (receiver : Substitution) :
    Script.Alike (Slot.meaning.only reference) Eq
      (first.resolveCall reference name candidates arguments receiver)
      (second.resolveCall reference name others arguments receiver) := by
  apply (alike.signatures receiver perm).after
  intro judged judgedOther permJudged
  have choices := Choice.among_alike permJudged arguments
  revert choices
  generalize Choice.among judged arguments = choice
  generalize Choice.among judgedOther arguments = another
  intro choices
  cases choices with
  | refl =>
      cases choice with
      | none => exact (Script.alike_unresolved _ _).andThen fun _ _ _ => .of_pure rfl
      | inapplicable =>
          rw [perm.length_eq]
          apply (Script.alike_report rfl _).after
          intro _ _ _
          exact (Script.alike_meaning (.refl _)).andThen fun _ _ _ => .of_pure rfl
      | ambiguous winners =>
          apply (Script.alike_meaning (.refl _)).andThen
          intro _ _ _
          exact (Script.alike_report rfl _).andThen fun _ _ _ => .of_pure rfl
      | mismatch only =>
          apply (Script.alike_record _ _).andThen
          intro _ _ _
          apply (alike.shown _).andThen
          intro inferred others same
          refine Script.Alike.andThen ((Script.Alike.of_write ?_).cast
            (funext fun slot => by cases slot <;> rfl)) fun _ _ _ => .of_pure rfl
          rw [same]
          exact .refl _
      | chosen best =>
          apply (alike.shown _).after
          intro inferred others same
          refine Script.Alike.andThen ((Script.Alike.of_write ?_).cast
            (funext fun slot => by cases slot <;> rfl)) fun _ _ _ => .of_pure rfl
          rw [same]
          exact .refl _
  | ambiguous perm =>
      apply (Script.alike_meaning (.ambiguous _ (perm.map _))).andThen
      intro _ _ _
      exact (Script.alike_report (by rw [perm.length_eq]) _).andThen fun _ _ _ => .of_pure rfl

theorem resolveValue (name : Tree.SimpleName) :
    Script.Alike (Slot.meaning.only name.node.ref) Eq (first.resolveValue name)
      (second.resolveValue name) := by
  unfold Surroundings.resolveValue
  rw [alike.lookup_eq rfl]
  cases second.lookup SymbolKind.isValue name.text with
  | nil => exact (Script.alike_unresolved _ _).andThen fun _ _ _ => .of_pure rfl
  | cons symbol rest =>
      apply (Script.alike_record _ _).andThen
      intro _ _ _
      cases symbol.descriptor with
      | «variable» holder => exact alike.variableType holder
      | _ => exact .of_pure rfl

theorem resolveCallableRef (name : Tree.SimpleName) :
    Script.Alike (Slot.meaning.only name.node.ref + Slot.type.only name.node.ref) Eq
      (first.resolveCallableRef name) (second.resolveCallableRef name) := by
  unfold Surroundings.resolveCallableRef
  have perm := alike.lookup_perm (fun kind => kind = .function) name.text
  revert perm
  generalize first.lookup _ name.text = found
  generalize second.lookup _ name.text = others
  intro perm
  dsimp only
  match found, perm with
  | [], perm =>
      rw [← perm.nil_eq]
      exact (Script.alike_unresolved _ _).bind fun _ _ _ => Script.alike_typed _ _
  | [symbol], perm =>
      rw [← List.singleton_perm.mp perm]
      apply (Script.alike_record _ _).bind
      intro _ _ _
      apply (alike.valueType _).after
      rintro type _ rfl
      exact Script.alike_typed _ _
  | one :: another :: rest, perm =>
      have length := perm.length_eq
      match others, perm, length with
      | other :: others :: more, perm, length =>
          dsimp only
          rw [length]
          apply (Script.alike_meaning (.ambiguous _ (perm.map _))).bind
          intro _ _ _
          exact (Script.alike_report rfl _).after fun _ _ _ => Script.alike_typed _ _

theorem resolveSelector (receiver : NominalType) (selector : Tree.SimpleName) :
    Script.Alike (Slot.meaning.only selector.node.ref + Slot.type.only selector.node.ref) Eq
      (first.resolveSelector receiver selector) (second.resolveSelector receiver selector) := by
  unfold Surroundings.resolveSelector
  split
  · apply (Script.alike_recordError _ _).bind
    rintro type _ rfl
    exact Script.alike_typed _ _
  · rw [alike.membersOf_eq]
    obtain ⟨members, substitution⟩ := second.membersOf receiver selector.text
    dsimp only
    cases members.filterMap Resolver.asProperty? with
    | nil => exact (Script.alike_unresolved _ _).bind fun _ _ _ => Script.alike_typed _ _
    | cons property rest =>
        apply (Script.alike_record _ _).bind
        intro _ _ _
        apply (alike.variableType _).after
        rintro type _ rfl
        exact Script.alike_typed _ _

theorem resolveMemberCall (receiver : NominalType) (selector : Tree.SimpleName)
    (arguments : List NominalType) :
    Script.Alike (Slot.meaning.only selector.node.ref + Slot.type.only selector.node.ref) Eq
      (first.resolveMemberCall receiver selector arguments)
      (second.resolveMemberCall receiver selector arguments) := by
  unfold Surroundings.resolveMemberCall
  split
  · apply (Script.alike_recordError _ _).bind
    rintro type _ rfl
    exact Script.alike_typed _ _
  · rw [alike.membersOf_eq]
    obtain ⟨members, substitution⟩ := second.membersOf receiver selector.text
    apply (alike.callables (.refl members)).after
    intro candidates others perm
    apply (alike.resolveCall _ _ perm _ _).bind
    rintro type _ rfl
    exact Script.alike_typed _ _

theorem resolveNameCall (name : Tree.SimpleName) (arguments : List NominalType) :
    Script.Alike (Slot.meaning.only name.node.ref + Slot.type.only name.node.ref) Eq
      (first.resolveNameCall name arguments) (second.resolveNameCall name arguments) := by
  apply (alike.callablesAt name.text alike.levels).after
  intro candidates others perm
  apply (alike.resolveCall _ _ perm _ _).bind
  rintro type _ rfl
  exact Script.alike_typed _ _

theorem resolveOperator (left right : NominalType) (reference : Tree.OperatorRef) :
    Script.Alike (Slot.meaning.only (Node.operator reference).ref) Eq
      (first.resolveOperator left right reference)
      (second.resolveOperator left right reference) := by
  unfold Surroundings.resolveOperator
  dsimp only
  split
  · apply (Script.alike_recordError _ _).andThen
    rintro type _ rfl
    exact .of_pure rfl
  · rw [alike.membersOf_eq]
    obtain ⟨members, substitution⟩ := second.membersOf left reference.operator.memberName
    apply (alike.resolveCall _ _ (.refl _) _ _).andThen
    rintro type _ rfl
    exact .of_pure rfl

end Surroundings.Alike

/-! ### Expressions -/

/-- The kinds of the nodes for which a slot is filled. -/
def Slot.accept : Slot → NodeKind → Bool
  | .meaning, kind => kind.isReference
  | .type, kind => kind.isExpression || kind = .namedType || kind = .functionType
  | .declaration, kind => kind.isDeclaration

/-- The nodes from a node downwards for which each slot is filled. -/
def Node.filled (node : Node) : Slot → Multiset NodeRef := fun slot => node.refsOf slot.accept

theorem Node.filled_eq (node : Node) :
    node.filled =
      (fun slot => if slot.accept node.kind then {node.ref} else 0) +
        (node.children.map Node.filled).sum := by
  funext slot
  rw [filled, refsOf_eq, Pi.add_apply, Pi.list_sum_apply, List.map_map]
  rfl

section Filled

attribute [local simp] Node.children Node.parts Node.expressionParts Node.typeParts Part.children
  Tree.Expr.node Tree.SimpleName.node

theorem filled_name (name : Tree.SimpleName) :
    name.node.filled = Slot.meaning.only name.node.ref + Slot.type.only name.node.ref := by
  rw [Node.filled_eq]
  funext slot
  cases slot <;> rfl

theorem filled_operator (operator : Tree.OperatorRef) :
    (Node.operator operator).filled = Slot.meaning.only (Node.operator operator).ref := by
  rw [Node.filled_eq]
  funext slot
  cases slot <;> rfl

/-- The expressions that are no names fill the slot of their type, and their parts
fill the others. -/
theorem filled_expression {value : Tree.Expr} (noName : ∀ name, value ≠ .name name) :
    value.node.filled =
      (value.node.children.map Node.filled).sum + Slot.type.only value.node.ref := by
  have own : (fun slot : Slot =>
      if slot.accept value.node.kind then {value.node.ref} else 0) =
        Slot.type.only value.node.ref := by
    funext slot
    cases value with
    | name name => exact absurd rfl (noName name)
    | _ => cases slot <;> rfl
  rw [Node.filled_eq, own, add_comm]

theorem filled_member (span : Span) (receiver : Tree.Expr) (selector : Tree.SimpleName) :
    (Tree.Expr.member span receiver selector).node.filled =
      receiver.node.filled +
        (Slot.meaning.only selector.node.ref + Slot.type.only selector.node.ref) +
          Slot.type.only (Tree.Expr.member span receiver selector).node.ref := by
  rw [filled_expression (by simp), ← filled_name]
  simp

theorem filled_call (span : Span) (callee : Tree.Expr) (arguments : List Tree.Expr) :
    (Tree.Expr.call span callee arguments).node.filled =
      (arguments.map fun argument => argument.node.filled).sum + callee.node.filled +
        Slot.type.only (Tree.Expr.call span callee arguments).node.ref := by
  rw [filled_expression (by simp)]
  simp [Function.comp_def, add_comm]

theorem filled_leaf {value : Tree.Expr} (noName : ∀ name, value ≠ .name name)
    (leaf : value.node.children = []) : value.node.filled = Slot.type.only value.node.ref := by
  rw [filled_expression noName, leaf]
  exact zero_add _

theorem filled_callableRef (span : Span) (target : Tree.SimpleName) :
    (Tree.Expr.callableRef span target).node.filled =
      Slot.meaning.only target.node.ref + Slot.type.only target.node.ref +
        Slot.type.only (Tree.Expr.callableRef span target).node.ref := by
  rw [filled_expression (by simp), ← filled_name]
  simp

theorem filled_paren (span : Span) (inner : Tree.Expr) :
    (Tree.Expr.paren span inner).node.filled =
      inner.node.filled + Slot.type.only (Tree.Expr.paren span inner).node.ref := by
  rw [filled_expression (by simp)]
  simp

theorem filled_ifThen (span : Span) (condition thenBranch : Tree.Expr) :
    (Tree.Expr.ifThen span condition thenBranch).node.filled =
      condition.node.filled + (thenBranch.node.filled +
        Slot.type.only (Tree.Expr.ifThen span condition thenBranch).node.ref) := by
  rw [filled_expression (by simp)]
  simp [add_assoc]

theorem filled_ifElse (span : Span) (condition thenBranch elseBranch : Tree.Expr) :
    (Tree.Expr.ifElse span condition thenBranch elseBranch).node.filled =
      condition.node.filled + (thenBranch.node.filled + (elseBranch.node.filled +
        Slot.type.only (Tree.Expr.ifElse span condition thenBranch elseBranch).node.ref)) := by
  rw [filled_expression (by simp)]
  simp [add_assoc]

theorem filled_binary (span : Span) (left right : Tree.Expr) (operator : Tree.OperatorRef) :
    (Tree.Expr.binary span left operator right).node.filled =
      left.node.filled + (right.node.filled +
        (Slot.meaning.only (Node.operator operator).ref +
          Slot.type.only (Tree.Expr.binary span left operator right).node.ref)) := by
  rw [filled_expression (by simp), ← filled_operator]
  simp only [Node.children, Node.parts, Node.expressionParts, Tree.Expr.node, Part.children,
    List.flatMap_cons, List.flatMap_nil, List.cons_append, List.nil_append, List.map_cons,
    List.map_nil, List.sum_cons, List.sum_nil]
  abel

end Filled

namespace Surroundings

/-- A call of a value that is neither a name nor selected by one. -/
theorem infer_call (around : Surroundings) (span : Span) (callee : Tree.Expr)
    (arguments : List Tree.Expr) (noName : ∀ name, callee ≠ .name name)
    (noMember : ∀ span receiver selector, callee ≠ .member span receiver selector) :
    around.infer (.call span callee arguments) = (do
      let call := (Tree.Expr.call span callee arguments).node.ref
      let argumentTypes ← around.inferAll arguments
      let calleeType ← around.infer callee
      let type ←
        Script.resolveValueCall call callee.node.ref calleeType argumentTypes arguments
      Script.typed call type) := by
  rw [infer]
  · exact noName
  · exact noMember

end Surroundings

namespace Surroundings.Alike

mutual

/-- An expression is inferred by alike scripts, one case for each form of it. -/
theorem infer (alike : first.Alike second) : (value : Tree.Expr) →
    Script.Alike value.node.filled Eq (first.infer value) (second.infer value)
  | .name name => by
      rw [Surroundings.infer, Surroundings.infer]
      refine Script.Alike.cast ?_ (filled_name name).symm
      apply (alike.resolveValue name).bind
      rintro type _ rfl
      exact Script.alike_typed _ _
  | .integer span value | .text span value | .boolean span value | .null span => by
      rw [Surroundings.infer, Surroundings.infer, filled_leaf (by simp) rfl]
      exact Script.alike_typed _ _
  | .callableRef span target => by
      rw [Surroundings.infer, Surroundings.infer, filled_callableRef]
      apply (alike.resolveCallableRef target).bind
      rintro type _ rfl
      exact Script.alike_typed _ _
  | .paren span inner => by
      rw [Surroundings.infer, Surroundings.infer, filled_paren]
      apply (alike.infer inner).bind
      rintro type _ rfl
      exact Script.alike_typed _ _
  | .ifThen span condition thenBranch => by
      rw [Surroundings.infer, Surroundings.infer, filled_ifThen]
      apply (alike.infer condition).bind
      rintro conditionType _ rfl
      apply (Script.alike_expect _ _ _).after
      intro _ _ _
      apply (alike.infer thenBranch).bind
      rintro type _ rfl
      exact Script.alike_typed _ _
  | .ifElse span condition thenBranch elseBranch => by
      rw [Surroundings.infer, Surroundings.infer, filled_ifElse]
      apply (alike.infer condition).bind
      rintro conditionType _ rfl
      apply (Script.alike_expect _ _ _).after
      intro _ _ _
      apply (alike.infer thenBranch).bind
      rintro thenType _ rfl
      apply (alike.infer elseBranch).bind
      rintro elseType _ rfl
      exact Script.alike_typed _ _
  | .member span receiver selector => by
      rw [Surroundings.infer, Surroundings.infer, filled_member, add_assoc]
      apply (alike.infer receiver).bind
      rintro receiverType _ rfl
      apply (alike.resolveSelector _ selector).bind
      rintro type _ rfl
      exact Script.alike_typed _ _
  | .binary span left operator right => by
      rw [Surroundings.infer, Surroundings.infer, filled_binary]
      apply (alike.infer left).bind
      rintro leftType _ rfl
      apply (alike.infer right).bind
      rintro rightType _ rfl
      apply (alike.resolveOperator _ _ operator).bind
      rintro type _ rfl
      exact Script.alike_typed _ _
  | .call span callee arguments => by
      have inferred := alike.inferAll arguments
      rw [filled_call, add_assoc]
      cases callee with
      | name name =>
          rw [Surroundings.infer, Surroundings.infer]
          apply inferred.bind
          rintro argumentTypes _ rfl
          change Script.Alike (name.node.filled + _) _ _ _
          rw [filled_name]
          apply (alike.resolveNameCall name _).bind
          rintro type _ rfl
          exact Script.alike_typed _ _
      | member memberSpan receiver selector =>
          rw [Surroundings.infer, Surroundings.infer]
          apply inferred.bind
          rintro argumentTypes _ rfl
          rw [filled_member, add_assoc, add_assoc]
          apply (alike.infer receiver).bind
          rintro receiverType _ rfl
          apply (alike.resolveMemberCall _ selector _).bind
          rintro type _ rfl
          exact (Script.alike_tell_typed _ _).bind fun _ _ _ => Script.alike_typed _ _
      | _ =>
          rw [infer_call first, infer_call second]
          · apply inferred.bind
            rintro argumentTypes _ rfl
            apply (alike.infer _).bind
            rintro calleeType _ rfl
            apply (Script.alike_resolveValueCall _ _ _ _ _).after
            rintro type _ rfl
            exact Script.alike_typed _ _
          all_goals simp

theorem inferAll (alike : first.Alike second) : (values : List Tree.Expr) →
    Script.Alike (values.map fun value => value.node.filled).sum Eq (first.inferAll values)
      (second.inferAll values)
  | [] => by
      rw [Surroundings.inferAll, Surroundings.inferAll]
      exact .of_pure rfl
  | value :: rest => by
      rw [Surroundings.inferAll, Surroundings.inferAll, List.map_cons, List.sum_cons]
      apply (alike.infer value).bind
      rintro type _ rfl
      apply (alike.inferAll rest).andThen
      rintro later _ rfl
      exact .of_pure rfl

end

end Surroundings.Alike

end Gloss
