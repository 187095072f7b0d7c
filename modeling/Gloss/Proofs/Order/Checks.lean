import Gloss.Proofs.Order.Counterparts
import Gloss.Proofs.Tree.Members

/-!
# Checks as scripts

The check of a body or an initializer is a script too.  Inside of a block each local
variable is one more symbol of the innermost level for the statements after it.
-/

namespace Gloss

namespace Script

variable {isOpen : NodeRef → Bool}

/-- What is reported where a symbol is added to a level. -/
def reportConflict (level : List (Symbol Descriptor)) (symbol : Symbol Descriptor)
    (node : NodeRef) : Script isOpen Unit :=
  match (level.filter fun earlier => earlier.name = symbol.name).find? fun earlier =>
      !(symbol.kind = .function && earlier.kind = .function) with
  | some _ => report (.redeclaration symbol.name) node
  | none => return ()

/-- The type of a local variable: the declared one, else that of its initializer. -/
def localType (declaration : Tree.Property) : Option NominalType → Script isOpen NominalType
  | some type => return type
  | none => do
      report (.missingVariableType declaration.name) (Node.property declaration).ref
      return .error

end Script

namespace Surroundings

variable (around : Surroundings)

/-- What can be seen in a block with some local variables. -/
def inside (block : List (Symbol Descriptor)) : Surroundings :=
  { around with levels := block :: around.levels }

def check (expression : Tree.Expr) (expected : NominalType) : Script around.isOpen Unit := do
  let type ← around.infer expression
  Script.expect type expected expression.node.ref

def writtenType? : Option Tree.TypeRef → Script around.isOpen (Option NominalType)
  | none => return none
  | some type => do
      Script.tellAll (type.remarks around.classifiers)
      return some (type.denote around.classifiers)

def checkInitializer (declared : Option NominalType) :
    Option Tree.Expr → Script around.isOpen (Option NominalType)
  | none => return none
  | some initializer => do
      let type ← around.infer initializer
      match declared with
      | none => return some type
      | some expected => do
          Script.expect type expected initializer.node.ref
          return some type

def describeLocal (declaration : Tree.Property) : Script around.isOpen Descriptor := do
  let declared ← around.writtenType? declaration.type
  let inferred ← around.checkInitializer declared declaration.initializer
  let type ← Script.localType declaration (declared.or inferred)
  return .variable (.local
    { name := declaration.name, declaration := some (Node.property declaration).ref, type
      binding := declaration.binding })

/-- Checks the statements of a block with some local variables. -/
def checkStatements (block : List (Symbol Descriptor)) :
    List Tree.Statement → Script around.isOpen Unit
  | [] => return ()
  | .variable declaration :: rest => do
      let node := (Node.property declaration).ref
      let descriptor ← (around.inside block).describeLocal declaration
      let symbol : Symbol Descriptor := { name := declaration.name, kind := .variable, descriptor }
      Script.reportConflict block symbol node
      Script.tell (.declared node descriptor)
      checkStatements (block ++ [symbol]) rest
  | .expression expression :: rest => do
      let _ ← (around.inside block).infer expression
      checkStatements block rest

def checkFunction (function : Tree.Function) (descriptor : FunctionDescriptor) :
    Script around.isOpen Unit := do
  let returned ← around.returnType descriptor
  match function.body with
  | .block block => around.checkStatements [] block.statements
  | .expression body =>
      if function.returnType.isSome then around.check body returned else return ()

def checkProperty (property : Tree.Property) (holder : VariableDescriptor) :
    Script around.isOpen Unit := do
  let type ← around.variableType holder
  match property.initializer with
  | some initializer =>
      if property.type.isSome then around.check initializer type else return ()
  | none => return ()

end Surroundings

/-! ### Alike checks -/

variable {first second : Surroundings}

theorem Surroundings.Alike.inside (alike : first.Alike second)
    (block : List (Symbol Descriptor)) : (first.inside block).Alike (second.inside block) where
  levels := .cons (.refl block) alike.levels
  class? := alike.class?
  isOpen := alike.isOpen
  own := alike.own

section Filled

attribute [local simp] Node.children Node.parts Node.expressionParts Node.typeParts Part.children
  Tree.Expr.node Tree.SimpleName.node Tree.Statement.node

theorem filled_named (span : Span) (nullable : Bool) (name : String) (nameSpan : Span)
    (arguments : List Tree.TypeRef) :
    (Node.type (.named span nullable name nameSpan arguments)).filled =
      (arguments.map fun argument => (Node.type argument).filled).sum +
        (Slot.meaning.only (Node.type (.named span nullable name nameSpan arguments)).ref +
          Slot.type.only (Node.type (.named span nullable name nameSpan arguments)).ref) := by
  have own : (fun slot : Slot =>
      if slot.accept (Node.type (.named span nullable name nameSpan arguments)).kind then
        {(Node.type (.named span nullable name nameSpan arguments)).ref} else 0) =
        Slot.meaning.only (Node.type (.named span nullable name nameSpan arguments)).ref +
          Slot.type.only (Node.type (.named span nullable name nameSpan arguments)).ref := by
    funext slot
    cases slot <;> rfl
  rw [Node.filled_eq, own, add_comm]
  simp [Function.comp_def]

theorem filled_function (span : Span) (nullable : Bool) (parameters : List Tree.TypeRef)
    (result : Tree.TypeRef) :
    (Node.type (.function span nullable parameters result)).filled =
      (parameters.map fun parameter => (Node.type parameter).filled).sum +
        (Node.type result).filled +
          Slot.type.only (Node.type (.function span nullable parameters result)).ref := by
  have own : (fun slot : Slot =>
      if slot.accept (Node.type (.function span nullable parameters result)).kind then
        {(Node.type (.function span nullable parameters result)).ref} else 0) =
          Slot.type.only (Node.type (.function span nullable parameters result)).ref := by
    funext slot
    cases slot <;> rfl
  rw [Node.filled_eq, own, add_comm]
  simp [Function.comp_def]

end Filled

/-- The nodes for which remarks fill each slot. -/
def Remark.filled (remarks : List Remark) : Slot → Multiset NodeRef :=
  fun slot => (Remark.nodes slot remarks : Multiset NodeRef)

theorem Remark.filled_append (first second : List Remark) :
    filled (first ++ second) = filled first + filled second := by
  funext slot
  rw [filled, nodes_append, ← Multiset.coe_add]
  rfl

@[simp] theorem Remark.filled_nil : filled [] = 0 := rfl

theorem Remark.filled_meaning (reference : NodeRef) (meant : Meaning Descriptor) :
    filled [.meaning reference meant] = Slot.meaning.only reference :=
  funext fun slot => by cases slot <;> rfl

theorem Remark.filled_typed (node : NodeRef) (type : NominalType) :
    filled [.typed node type] = Slot.type.only node :=
  funext fun slot => by cases slot <;> rfl

theorem Remark.filled_declared (node : NodeRef) (descriptor : Descriptor) :
    filled [.declared node descriptor] = Slot.declaration.only node :=
  funext fun slot => by cases slot <;> rfl

theorem Remark.filled_problem (found : Diagnostic) : filled [.problem found] = 0 :=
  funext fun slot => by cases slot <;> rfl

theorem Remark.filled_arity (count : Nat) : filled [.arity count] = 0 :=
  funext fun slot => by cases slot <;> rfl

theorem filled_nameRemarks (classifiers : Classifiers) (node : NodeRef) (name : String)
    (arguments : Nat) :
    Remark.filled (Tree.TypeRef.nameRemarks classifiers node name arguments) =
      Slot.meaning.only node := by
  unfold Tree.TypeRef.nameRemarks
  cases classifiers name with
  | none =>
      rw [← List.singleton_append, Remark.filled_append, Remark.filled_meaning,
        Remark.filled_problem, add_zero]
  | some symbol =>
      dsimp only
      rw [← List.singleton_append, Remark.filled_append, Remark.filled_meaning]
      cases Resolver.expectedArguments? symbol with
      | none => exact add_zero _
      | some expected =>
          dsimp only
          split
          · exact add_zero _
          · rw [Remark.filled_problem, add_zero]

mutual

/-- Resolving a written type fills the slots of all its parts. -/
theorem filled_remarks (classifiers : Classifiers) : (type : Tree.TypeRef) →
    Remark.filled (type.remarks classifiers) = (Node.type type).filled
  | .named span nullable name nameSpan arguments => by
      rw [Tree.TypeRef.remarks, Remark.filled_append, Remark.filled_append,
        filled_remarksOfAll classifiers arguments, filled_nameRemarks, Remark.filled_typed,
        filled_named, add_assoc]
      rfl
  | .function span nullable parameters result => by
      rw [Tree.TypeRef.remarks, Remark.filled_append, Remark.filled_append,
        filled_remarksOfAll classifiers parameters, filled_remarks classifiers result,
        ← List.singleton_append, Remark.filled_append, Remark.filled_arity, zero_add,
        Remark.filled_typed, filled_function]
      rfl

theorem filled_remarksOfAll (classifiers : Classifiers) : (types : List Tree.TypeRef) →
    Remark.filled (Tree.TypeRef.remarksOfAll classifiers types) =
      (types.map fun type => (Node.type type).filled).sum
  | [] => rfl
  | type :: rest => by
      rw [Tree.TypeRef.remarksOfAll, Remark.filled_append, filled_remarks classifiers type,
        filled_remarksOfAll classifiers rest, List.map_cons, List.sum_cons]

end

/-- The slots that are filled for a node that may be missing. -/
def Node.filledOf? (node? : Option Node) : Slot → Multiset NodeRef := (node?.map filled).getD 0

namespace Script

variable {isOpen isOpenLater : NodeRef → Bool}

theorem outcome_tellAll (known : InferredTypes) (remarks : List Remark) :
    (tellAll remarks : Script isOpen Unit).outcome known = some ((), remarks) := by
  induction remarks with
  | nil => rfl
  | cons remark rest ih =>
      rw [tellAll, outcome, ih]
      rfl

theorem alike_tellAll (remarks : List Remark) :
    Alike (Remark.filled remarks) (fun _ _ => True) (tellAll remarks : Script isOpen Unit)
      (tellAll remarks : Script isOpenLater Unit) := by
  intro known
  rw [outcome_tellAll, outcome_tellAll]
  exact .some ⟨trivial, List.forall₂_same.mpr fun remark _ => .refl remark, fun _ => rfl⟩

theorem alike_reportConflict (level : List (Symbol Descriptor)) (symbol : Symbol Descriptor)
    (node : NodeRef) :
    Alike 0 (fun _ _ => True) (reportConflict level symbol node : Script isOpen Unit)
      (reportConflict level symbol node : Script isOpenLater Unit) := by
  unfold reportConflict
  cases (level.filter fun earlier => earlier.name = symbol.name).find? _ with
  | none => exact .of_pure trivial
  | some earlier => exact alike_report rfl node

theorem alike_localType (declaration : Tree.Property) (type : Option NominalType) :
    Alike 0 Eq (localType declaration type : Script isOpen NominalType)
      (localType declaration type : Script isOpenLater NominalType) := by
  cases type with
  | some type => exact .of_pure rfl
  | none => exact (alike_report rfl _).andThen fun _ _ _ => .of_pure rfl

theorem alike_tell_declared (node : NodeRef) (descriptor : Descriptor) :
    Alike (Slot.declaration.only node) (fun _ _ => True)
      (tell (.declared node descriptor) : Script isOpen Unit)
      (tell (.declared node descriptor) : Script isOpenLater Unit) :=
  (Alike.of_tell (.refl _)).cast (funext fun slot => by cases slot <;> rfl)

end Script

namespace Surroundings.Alike

theorem check (alike : first.Alike second) (expression : Tree.Expr) (expected : NominalType) :
    Script.Alike expression.node.filled (fun _ _ => True) (first.check expression expected)
      (second.check expression expected) := by
  apply (alike.infer expression).andThen
  rintro type _ rfl
  exact Script.alike_expect _ _ _

theorem writtenType? (alike : first.Alike second) (type : Option Tree.TypeRef) :
    Script.Alike (Node.filledOf? (type.map Node.type)) Eq (first.writtenType? type)
      (second.writtenType? type) := by
  cases type with
  | none => exact .of_pure rfl
  | some type =>
      rw [Surroundings.writtenType?, Surroundings.writtenType?, alike.classifiers_eq]
      refine Script.Alike.cast ?_ (filled_remarks second.classifiers type)
      exact (Script.alike_tellAll _).andThen fun _ _ _ => .of_pure rfl

theorem checkInitializer (alike : first.Alike second) (declared : Option NominalType)
    (initializer : Option Tree.Expr) :
    Script.Alike (Node.filledOf? (initializer.map Node.expression)) Eq
      (first.checkInitializer declared initializer)
      (second.checkInitializer declared initializer) := by
  cases initializer with
  | none => exact .of_pure rfl
  | some initializer =>
      apply (alike.infer initializer).andThen
      rintro type _ rfl
      cases declared with
      | none => exact .of_pure rfl
      | some expected => exact (Script.alike_expect _ _ _).andThen fun _ _ _ => .of_pure rfl

theorem describeLocal (alike : first.Alike second) (declaration : Tree.Property) :
    Script.Alike (Node.filledOf? (declaration.type.map Node.type) +
        Node.filledOf? (declaration.initializer.map Node.expression)) Eq
      (first.describeLocal declaration) (second.describeLocal declaration) := by
  apply (alike.writtenType? _).bind
  rintro declared _ rfl
  apply (alike.checkInitializer _ _).andThen
  rintro inferred _ rfl
  apply (Script.alike_localType _ _).andThen
  rintro type _ rfl
  exact .of_pure rfl

end Surroundings.Alike

section Filled

attribute [local simp] Node.children Node.parts Part.children Part.optional Node.filledOf?

theorem filled_property (declared : Tree.Property) :
    (Node.property declared).filled =
      Node.filledOf? (declared.type.map Node.type) +
        Node.filledOf? (declared.initializer.map Node.expression) +
          Slot.declaration.only (Node.property declared).ref := by
  have own : (fun slot : Slot => if slot.accept (Node.property declared).kind then
      {(Node.property declared).ref} else 0) =
        Slot.declaration.only (Node.property declared).ref := by
    funext slot
    cases slot <;> rfl
  rw [Node.filled_eq, own, add_comm]
  cases written : declared.type <;> cases initialized : declared.initializer <;>
    simp [written, initialized]

theorem filled_block (steps : Tree.Block) :
    (Node.block steps).filled =
      (steps.statements.map fun statement => statement.node.filled).sum := by
  have own : (fun slot : Slot => if slot.accept (Node.block steps).kind then
      {(Node.block steps).ref} else 0) = (0 : Slot → Multiset NodeRef) := by
    funext slot
    cases slot <;> rfl
  rw [Node.filled_eq, own, zero_add]
  simp [Function.comp_def]

end Filled

namespace Surroundings.Alike

theorem checkStatements (alike : first.Alike second) (statements : List Tree.Statement)
    (block : List (Symbol Descriptor)) :
    Script.Alike (statements.map fun statement => statement.node.filled).sum (fun _ _ => True)
      (first.checkStatements block statements) (second.checkStatements block statements) := by
  induction statements generalizing block with
  | nil => exact .of_pure trivial
  | cons statement rest ih =>
      rw [List.map_cons, List.sum_cons]
      cases statement with
      | «variable» declaration =>
          have filled : (Tree.Statement.variable declaration).node.filled = _ :=
            filled_property declaration
          rw [filled, add_assoc]
          apply ((alike.inside block).describeLocal declaration).bind
          rintro descriptor _ rfl
          apply (Script.alike_reportConflict _ _ _).after
          intro _ _ _
          exact (Script.alike_tell_declared _ _).bind fun _ _ _ => ih _
      | expression expression =>
          exact ((alike.inside block).infer expression).bind fun _ _ _ => ih _

theorem checkFunction (alike : first.Alike second) (function : Tree.Function)
    (descriptor : FunctionDescriptor) :
    Script.Alike (Node.filledOf? (Tree.Member.function function).checkedBody?) (fun _ _ => True)
      (first.checkFunction function descriptor) (second.checkFunction function descriptor) := by
  apply (alike.settle _ _).after
  rintro returned _ rfl
  cases body : function.body with
  | block block =>
      have checked : (Tree.Member.function function).checkedBody? = some (.block block) := by
        cases returned : function.returnType <;>
          simp [Tree.Member.checkedBody?, returned, body, Tree.Body.node]
      rw [checked]
      exact (alike.checkStatements block.statements []).cast (filled_block block).symm
  | expression value =>
      cases written : function.returnType with
      | none =>
          simp only [Tree.Member.checkedBody?, written, body]
          exact .of_pure trivial
      | some type =>
          simp only [Tree.Member.checkedBody?, written, body]
          exact alike.check value returned

theorem checkProperty (alike : first.Alike second) (property : Tree.Property)
    (holder : VariableDescriptor) :
    Script.Alike (Node.filledOf? (Tree.Member.property property).checkedBody?) (fun _ _ => True)
      (first.checkProperty property holder) (second.checkProperty property holder) := by
  apply (alike.variableType _).after
  rintro type _ rfl
  cases initialized : property.initializer with
  | none =>
      have unchecked : (Tree.Member.property property).checkedBody? = none := by
        cases written : property.type <;> simp [Tree.Member.checkedBody?, written, initialized]
      rw [unchecked]
      exact .of_pure trivial
  | some value =>
      cases written : property.type with
      | none =>
          simp only [Tree.Member.checkedBody?, written]
          exact .of_pure trivial
      | some declared =>
          simp only [Tree.Member.checkedBody?, written, initialized, Option.map_some]
          exact alike.check value type

end Surroundings.Alike

end Gloss
