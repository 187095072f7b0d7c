import Gloss.Proofs.Order.Heads
import Gloss.Proofs.References.Answers
import Gloss.Tree.Occurrence

/-!
# References in bodies

Inferring an expression answers each reference in it once.  A name that stands for an
expression means what is seen from around it; a name that is called or selected, and one
that refers to a function, is answered in one way or another.
-/

namespace Gloss

namespace Occurrence

/-- Whether the node is a name that stands for an expression.  A name does not where it
belongs to a package line, refers to a function, selects a member or is called. -/
def isValue (occurrence : Occurrence) : Bool :=
  match occurrence.node, occurrence.above with
  | .expression (.name _), .package _ :: _ => false
  | .expression (.name _), .expression (.callableRef _ _) :: _ => false
  | .expression (.name name), .expression (.member _ _ selector) :: _ => name ≠ selector
  | .expression (.name name), .expression (.call _ (.name callee) _) :: _ => name ≠ callee
  | .expression (.name _), _ => true
  | _, _ => false

end Occurrence

namespace Surroundings

open Script Remark

variable {around : Surroundings} {holds : List Remark → Prop} {node below : Node}
  {above : List Node}

/-- What is written down about a name has the property: as far as the name stands for an
expression, what it means from here, and otherwise any answer. -/
structure Permits (around : Surroundings) (holds : List Remark → Prop) (occurrence : Occurrence) :
    Prop where
  value : ∀ name : Tree.SimpleName, occurrence.node = name.node → holds (around.valueRemarks name)
  applied : ∀ name : Tree.SimpleName, occurrence.node = name.node → occurrence.isValue = false →
    ∀ remarks, Answers name.node.ref remarks → holds remarks

/-- What is written down about the names from a node downwards has the property. -/
def PermitsIn (around : Surroundings) (holds : List Remark → Prop) (node : Node)
    (above : List Node) : Prop :=
  ∀ occurrence ∈ node.occurrences above, around.Permits holds occurrence

theorem PermitsIn.child (permits : around.PermitsIn holds node above)
    (isChild : below ∈ node.children) : around.PermitsIn holds below (node :: above) :=
  fun occurrence occurs => permits occurrence (Node.mem_occurrences_of_child isChild occurs)

/-- A name right below a node that does not stand for an expression there. -/
theorem PermitsIn.applied (permits : around.PermitsIn holds node above) (name : Tree.SimpleName)
    (isChild : name.node ∈ node.children)
    (notValue : Occurrence.isValue ⟨name.node, node :: above⟩ = false) :
    ∀ remarks, Answers name.node.ref remarks → holds remarks :=
  (permits.child isChild _ (Node.mem_occurrences_self _ _)).applied name rfl notValue

theorem keeps_resolveValue {name : Tree.SimpleName} (held : holds (around.valueRemarks name)) :
    (around.resolveValue name).Keeps (Slot.meaning.only name.node.ref) holds := by
  intro remarks value runs
  rw [ensures_resolveValue name remarks value runs]
  exact ⟨(answers_valueRemarks around name).filled, held⟩

section Lenient

variable (lenient : Lenient holds)

include lenient

section Children

attribute [local simp] Node.children Node.parts Node.expressionParts Part.children
  Tree.Expr.node Tree.SimpleName.node Occurrence.isValue

mutual

/-- Inferring an expression keeps to what is permitted, one case for each form of it. -/
theorem keeps_infer : (value : Tree.Expr) → (above : List Node) →
    around.PermitsIn holds value.node above → (around.infer value).Keeps value.node.filled holds
  | .name name, above, permits => by
      rw [infer]
      refine Keeps.cast ?_ (filled_name name).symm
      have held := (permits _ (Node.mem_occurrences_self _ _)).value name rfl
      exact (keeps_resolveValue held).bind lenient fun _ => keeps_typed lenient _ _
  | .integer span value, above, permits | .text span value, above, permits
  | .boolean span value, above, permits | .null span, above, permits => by
      rw [infer, filled_leaf (by simp) rfl]
      exact keeps_typed lenient _ _
  | .callableRef span target, above, permits => by
      rw [infer, filled_callableRef]
      have applied := permits.applied target (by simp) (by simp)
      exact (keeps_resolveCallableRef lenient applied).bind lenient fun _ => keeps_typed lenient _ _
  | .paren span inner, above, permits => by
      rw [infer, filled_paren]
      exact (keeps_infer inner _ (permits.child (by simp))).bind lenient fun _ =>
        keeps_typed lenient _ _
  | .ifThen span condition thenBranch, above, permits => by
      rw [infer, filled_ifThen]
      refine (keeps_infer condition _ (permits.child (by simp))).bind lenient fun _ => ?_
      refine (keeps_expect lenient _ _ _).after lenient fun _ => ?_
      exact (keeps_infer thenBranch _ (permits.child (by simp))).bind lenient fun _ =>
        keeps_typed lenient _ _
  | .ifElse span condition thenBranch elseBranch, above, permits => by
      rw [infer, filled_ifElse]
      refine (keeps_infer condition _ (permits.child (by simp))).bind lenient fun _ => ?_
      refine (keeps_expect lenient _ _ _).after lenient fun _ => ?_
      refine (keeps_infer thenBranch _ (permits.child (by simp))).bind lenient fun _ => ?_
      exact (keeps_infer elseBranch _ (permits.child (by simp))).bind lenient fun _ =>
        keeps_typed lenient _ _
  | .member span receiver selector, above, permits => by
      rw [infer, filled_member, add_assoc]
      refine (keeps_infer receiver _ (permits.child (by simp))).bind lenient fun _ => ?_
      have applied := permits.applied selector (by simp) (by simp)
      exact (keeps_resolveSelector lenient applied _).bind lenient fun _ => keeps_typed lenient _ _
  | .binary span left operator right, above, permits => by
      rw [infer, filled_binary]
      refine (keeps_infer left _ (permits.child (by simp))).bind lenient fun _ => ?_
      refine (keeps_infer right _ (permits.child (by simp))).bind lenient fun _ => ?_
      exact (keeps_resolveOperator lenient _ _ operator).bind lenient fun _ =>
        keeps_typed lenient _ _
  | .call span callee arguments, above, permits => by
      have permitsArguments : ∀ argument ∈ arguments,
          around.PermitsIn holds argument.node
            (Node.expression (.call span callee arguments) :: above) :=
        fun argument isArgument => permits.child (by
          simp only [Node.children, Node.parts, Node.expressionParts, Tree.Expr.node,
            Part.children, List.flatMap_cons, List.flatMap_nil, List.append_nil]
          exact List.mem_append_right _ (List.mem_map_of_mem isArgument))
      have inferred := keeps_inferAll arguments _ permitsArguments
      rw [filled_call, add_assoc]
      cases callee with
      | name name =>
          rw [infer]
          refine inferred.bind lenient fun _ => ?_
          change Script.Keeps (name.node.filled + _) _ _
          rw [filled_name]
          have applied := permits.applied name (by simp) (by simp)
          exact (keeps_resolveNameCall lenient applied _).bind lenient fun _ =>
            keeps_typed lenient _ _
      | member memberSpan receiver selector =>
          rw [infer]
          refine inferred.bind lenient fun _ => ?_
          rw [filled_member, add_assoc, add_assoc]
          have permitsCallee : around.PermitsIn holds
              (Tree.Expr.member memberSpan receiver selector).node _ := permits.child (by simp)
          refine (keeps_infer receiver _ (permitsCallee.child (by simp))).bind lenient fun _ => ?_
          have applied := permitsCallee.applied selector (by simp) (by simp)
          refine (keeps_resolveMemberCall lenient applied _ _).bind lenient fun _ => ?_
          exact (keeps_tell_typed lenient _ _).bind lenient fun _ => keeps_typed lenient _ _
      | _ =>
          rw [infer_call]
          · refine inferred.bind lenient fun _ => ?_
            refine (keeps_infer _ _ (permits.child (by simp))).bind lenient fun _ => ?_
            exact (keeps_resolveValueCall lenient _ _ _ _ _).after lenient fun _ =>
              keeps_typed lenient _ _
          all_goals simp

theorem keeps_inferAll : (values : List Tree.Expr) → (above : List Node) →
    (∀ value ∈ values, around.PermitsIn holds value.node above) →
      (around.inferAll values).Keeps (values.map fun value => value.node.filled).sum holds
  | [], above, _ => by
      rw [inferAll]
      exact .of_pure lenient _
  | value :: rest, above, permits => by
      obtain ⟨permitsFirst, permitsRest⟩ := List.forall_mem_cons.mp permits
      rw [inferAll, List.map_cons, List.sum_cons]
      refine (keeps_infer value above permitsFirst).bind lenient fun _ => ?_
      exact (keeps_inferAll rest above permitsRest).andThen lenient fun _ => .of_pure lenient _

end

end Children

end Lenient

end Surroundings

/-! ### Written types -/

namespace Tree.TypeRef

open Remark

variable {holds : List Remark → Prop}

theorem answers_nameRemarks (classifiers : Classifiers) (node : NodeRef) (name : String)
    (arguments : Nat) : Answers node (nameRemarks classifiers node name arguments) := by
  unfold nameRemarks
  cases classifiers name with
  | none => exact .unresolved rfl
  | some symbol =>
      dsimp only
      cases Resolver.expectedArguments? symbol with
      | none => exact .target _
      | some expected =>
          dsimp only
          split
          · exact .target _
          · exact .misused _ ⟨rfl, rfl, rfl⟩

variable (lenient : Lenient holds) (classifiers : Classifiers)

include lenient

mutual

theorem holds_remarks : (type : TypeRef) → holds (type.remarks classifiers)
  | .named span nullable name nameSpan arguments => by
      rw [remarks]
      have answered := lenient.answers (show NodeKind.namedType ≠ .name from nofun)
        (answers_nameRemarks classifiers
          (TypeRef.named span nullable name nameSpan arguments).node name arguments.length)
      exact lenient.append (lenient.append (holds_remarksOfAll arguments) answered)
        (lenient.aside (.typed _ _) trivial)
  | .function span nullable parameters result => by
      rw [remarks]
      have noted := lenient.append (lenient.aside (.arity parameters.length) trivial)
        (lenient.aside (.typed (TypeRef.function span nullable parameters result).node
          ((TypeRef.function span nullable parameters result).denote classifiers)) trivial)
      exact lenient.append (lenient.append (holds_remarksOfAll parameters) (holds_remarks result))
        noted

theorem holds_remarksOfAll : (types : List TypeRef) → holds (remarksOfAll classifiers types)
  | [] => lenient.nil
  | type :: rest => lenient.append (holds_remarks type) (holds_remarksOfAll rest)

end

theorem holds_remarksOf? (type : Option TypeRef) : holds (remarksOf? classifiers type) := by
  cases type with
  | none => exact lenient.nil
  | some type => exact holds_remarks lenient classifiers type

end Tree.TypeRef

/-! ### Bodies -/

namespace Script

open Remark

variable {isOpen : NodeRef → Bool} {holds : List Remark → Prop} {remarks : List Remark}

theorem runs_tellAll {others : List Remark} {value : Unit}
    (runs : (tellAll remarks : Script isOpen Unit).Runs others value) : others = remarks := by
  induction remarks generalizing others with
  | nil => exact (runs_pure_iff.mp runs).1
  | cons remark rest ih =>
      cases runs with
      | write shown runs => rw [ih runs]

theorem keeps_tellAll (held : holds remarks) :
    (tellAll remarks : Script isOpen Unit).Keeps (filled remarks) holds := by
  intro others value runs
  rw [runs_tellAll runs]
  exact ⟨rfl, held⟩

variable (lenient : Lenient holds)

include lenient

theorem keeps_reportConflict (level : List (Symbol Descriptor)) (symbol : Symbol Descriptor)
    (node : NodeRef) :
    (reportConflict level symbol node : Script isOpen Unit).Keeps 0 holds := by
  unfold reportConflict
  split
  · exact keeps_report lenient ⟨rfl, rfl, rfl⟩ _
  · exact .of_pure lenient _

theorem keeps_localType (declaration : Tree.Property) (type : Option NominalType) :
    (localType declaration type : Script isOpen NominalType).Keeps 0 holds := by
  cases type with
  | some type => exact .of_pure lenient _
  | none =>
      exact (keeps_report lenient ⟨rfl, rfl, rfl⟩ _).andThen lenient fun _ => .of_pure lenient _

theorem keeps_tell_declared (node : NodeRef) (descriptor : Descriptor) :
    (tell (.declared node descriptor) : Script isOpen Unit).Keeps (Slot.declaration.only node)
      holds :=
  .of_tell (filled_declared node descriptor) (lenient.aside (.declared _ _) trivial)

end Script

/-- A local variable as the statements after it see it. -/
def Tree.Property.localSymbol (declaration : Tree.Property) (type : NominalType) :
    Symbol Descriptor where
  name := declaration.name
  kind := .variable
  descriptor := .variable (.local
    { name := declaration.name, declaration := some (Node.property declaration).ref, type
      binding := declaration.binding })

namespace Surroundings

open Script

variable {around : Surroundings} {holds : List Remark → Prop} {above : List Node}
  {fits : List (Symbol Descriptor) → List Tree.Statement → Prop}

/-- What is permitted in the statements of a block.  They are taken one after the other; it
may matter which local variables were declared before the statements that are left. -/
structure Follows (around : Surroundings) (holds : List Remark → Prop) (above : List Node)
    (fits : List (Symbol Descriptor) → List Tree.Statement → Prop) : Prop where
  permits : ∀ {block statement rest}, fits block (statement :: rest) →
    (around.inside block).PermitsIn holds statement.node above
  «variable» : ∀ {block declaration rest}, fits block (.variable declaration :: rest) →
    ∀ type, fits (block ++ [declaration.localSymbol type]) rest
  expression : ∀ {block value rest}, fits block (.expression value :: rest) → fits block rest

/-- What is permitted in the body or the initializer of a member. -/
def PermitsBody (around : Surroundings) (holds : List Remark → Prop) (above : List Node) :
    Tree.Member → Prop
  | .property declared =>
      ∀ value ∈ declared.initializer,
        around.PermitsIn holds (.expression value) (.property declared :: above)
  | .function declared =>
      match declared.body with
      | .expression value =>
          around.PermitsIn holds (.expression value) (.function declared :: above)
      | .block steps => ∃ fits, fits [] steps.statements ∧
          around.Follows holds (.block steps :: .function declared :: above) fits

theorem describeLocal_eq {declaration : Tree.Property} {remarks : List Remark}
    {descriptor : Descriptor}
    (runs : (around.describeLocal declaration).Runs remarks descriptor) :
    ∃ type, descriptor = (declaration.localSymbol type).descriptor := by
  obtain ⟨_, _, _, -, runsLater, -⟩ := runs_bind_iff.mp runs
  obtain ⟨_, _, _, -, runsTyped, -⟩ := runs_bind_iff.mp runsLater
  obtain ⟨type, _, _, -, runsPure, -⟩ := runs_bind_iff.mp runsTyped
  exact ⟨type, (runs_pure_iff.mp runsPure).2⟩

section Lenient

variable (lenient : Remark.Lenient holds)

include lenient

theorem keeps_writtenType? (type : Option Tree.TypeRef) :
    (around.writtenType? type).Keeps (Node.filledOf? (type.map Node.type)) holds := by
  cases type with
  | none => exact .of_pure lenient _
  | some type =>
      refine Keeps.cast ?_ (filled_remarks around.classifiers type)
      exact (keeps_tellAll (type.holds_remarks lenient _)).andThen lenient fun _ =>
        .of_pure lenient _

theorem keeps_check {expression : Tree.Expr} (expected : NominalType)
    (permits : around.PermitsIn holds expression.node above) :
    (around.check expression expected).Keeps expression.node.filled holds :=
  (keeps_infer lenient expression above permits).andThen lenient fun _ => keeps_expect lenient _ _ _

theorem keeps_checkInitializer (declared : Option NominalType) {initializer : Option Tree.Expr}
    (permits : ∀ value ∈ initializer, around.PermitsIn holds value.node above) :
    (around.checkInitializer declared initializer).Keeps
      (Node.filledOf? (initializer.map Node.expression)) holds := by
  cases initializer with
  | none => exact .of_pure lenient _
  | some initializer =>
      refine (keeps_infer lenient initializer above (permits initializer rfl)).andThen lenient
        fun type => ?_
      cases declared with
      | none => exact .of_pure lenient _
      | some expected =>
          exact (keeps_expect lenient _ _ _).andThen lenient fun _ => .of_pure lenient _

theorem keeps_describeLocal {declaration : Tree.Property}
    (permits : ∀ value ∈ declaration.initializer, around.PermitsIn holds value.node above) :
    (around.describeLocal declaration).Keeps
      (Node.filledOf? (declaration.type.map Node.type) +
        Node.filledOf? (declaration.initializer.map Node.expression)) holds := by
  refine (keeps_writtenType? lenient declaration.type).bind lenient fun declared => ?_
  refine (keeps_checkInitializer lenient declared permits).andThen lenient fun inferred => ?_
  exact (keeps_localType lenient _ _).andThen lenient fun _ => .of_pure lenient _

/-- The statements of a block keep to what is permitted. -/
theorem keeps_checkStatements (follows : around.Follows holds above fits)
    {statements : List Tree.Statement} {block : List (Symbol Descriptor)}
    (fit : fits block statements) :
    (around.checkStatements block statements).Keeps
      (statements.map fun statement => statement.node.filled).sum holds := by
  induction statements generalizing block with
  | nil => exact .of_pure lenient _
  | cons statement rest ih =>
      have permits := follows.permits fit
      rw [List.map_cons, List.sum_cons]
      cases statement with
      | «variable» declaration =>
          have permitsInitializer : ∀ value ∈ declaration.initializer,
              (around.inside block).PermitsIn holds value.node (.property declaration :: above) := by
            intro value isInitializer
            refine permits.child ?_
            rw [Option.mem_def] at isInitializer
            simp [Tree.Statement.node, Tree.Expr.node, Node.children, Node.parts, Part.children,
              Part.optional, isInitializer]
          have filled : (Tree.Statement.variable declaration).node.filled = _ :=
            filled_property declaration
          rw [filled, add_assoc]
          -- What the rest sees is a descriptor of this very local variable.
          intro remarks value runs
          obtain ⟨descriptor, described, others, runsFirst, runsRest, rfl⟩ := runs_bind_iff.mp runs
          obtain ⟨type, rfl⟩ := describeLocal_eq runsFirst
          obtain ⟨filledFirst, held⟩ :=
            keeps_describeLocal lenient permitsInitializer _ _ runsFirst
          have keepsRest := (keeps_reportConflict lenient block (declaration.localSymbol type)
            (Node.property declaration).ref).after lenient fun _ =>
              (keeps_tell_declared lenient (Node.property declaration).ref
                (declaration.localSymbol type).descriptor).bind lenient fun _ =>
                  ih (follows.variable fit type)
          obtain ⟨filledRest, heldRest⟩ := keepsRest _ _ runsRest
          rw [Remark.filled_append, filledFirst, filledRest]
          exact ⟨rfl, lenient.append held heldRest⟩
      | expression expression =>
          exact (keeps_infer lenient expression above permits).bind lenient fun _ =>
            ih (follows.expression fit)

theorem keeps_checkFunction {function : Tree.Function} (descriptor : FunctionDescriptor)
    (permits : around.PermitsBody holds above (.function function)) :
    (around.checkFunction function descriptor).Keeps
      (Node.filledOf? (Tree.Member.function function).checkedBody?) holds := by
  refine (Silent.keeps lenient (silent_settle _ _)).after lenient fun returned => ?_
  cases body : function.body with
  | block block =>
      have checked : (Tree.Member.function function).checkedBody? = some (.block block) := by
        cases returned : function.returnType <;>
          simp [Tree.Member.checkedBody?, returned, body, Tree.Body.node]
      simp only [PermitsBody, body] at permits
      obtain ⟨fits, fit, follows⟩ := permits
      rw [checked]
      exact (keeps_checkStatements lenient follows fit).cast (filled_block block).symm
  | expression value =>
      simp only [PermitsBody, body] at permits
      cases written : function.returnType with
      | none =>
          simp only [Tree.Member.checkedBody?, written, body]
          exact .of_pure lenient _
      | some type =>
          simp only [Tree.Member.checkedBody?, written, body]
          exact keeps_check lenient returned permits

theorem keeps_checkProperty {property : Tree.Property} (holder : VariableDescriptor)
    (permits : around.PermitsBody holds above (.property property)) :
    (around.checkProperty property holder).Keeps
      (Node.filledOf? (Tree.Member.property property).checkedBody?) holds := by
  refine (Silent.keeps lenient (silent_variableType _)).after lenient fun type => ?_
  cases initialized : property.initializer with
  | none =>
      have unchecked : (Tree.Member.property property).checkedBody? = none := by
        cases written : property.type <;> simp [Tree.Member.checkedBody?, written, initialized]
      rw [unchecked]
      exact .of_pure lenient _
  | some value =>
      cases written : property.type with
      | none =>
          simp only [Tree.Member.checkedBody?, written]
          exact .of_pure lenient _
      | some declared =>
          simp only [Tree.Member.checkedBody?, written, initialized, Option.map_some]
          exact keeps_check lenient type (permits value initialized)

/-- The body that decides the type of a member keeps to what is permitted. -/
theorem keeps_openBody {member : Tree.Member} {body : Tree.Expr}
    (permits : around.PermitsBody holds above member) (isOpen : member.openBody? = some body) :
    (around.infer body).Keeps body.node.filled holds := by
  cases member with
  | property declared =>
      cases written : declared.type with
      | some type => simp [Tree.Member.openBody?, written] at isOpen
      | none =>
          simp only [Tree.Member.openBody?, written] at isOpen
          exact keeps_infer lenient body _ (permits body isOpen)
  | function declared =>
      cases written : declared.returnType with
      | some type => simp [Tree.Member.openBody?, written] at isOpen
      | none =>
          cases isBody : declared.body with
          | block steps => simp [Tree.Member.openBody?, written, isBody] at isOpen
          | expression value =>
              simp only [Tree.Member.openBody?, written, isBody, Option.some.injEq] at isOpen
              simp only [PermitsBody, isBody] at permits
              exact keeps_infer lenient body _ (isOpen ▸ permits)

end Lenient

end Surroundings

end Gloss
