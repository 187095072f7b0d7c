import Gloss.Proofs.Order.Checks
import Gloss.Proofs.Order.Heads

/-!
# What declarations fill

Each slot of a declaration is filled once: by its head, by the body that decides its
type, or by the body that is checked.
-/

namespace Gloss

open Gloss.Tree

/-- A declaration fills its own slot, and its parts fill theirs. -/
theorem Node.filled_of_isDeclaration {node : Node} (isDeclaration : node.kind.isDeclaration = true) :
    node.filled = (node.children.map Node.filled).sum + Slot.declaration.only node.ref := by
  have own : (fun slot : Slot => if slot.accept node.kind then {node.ref} else 0) =
      Slot.declaration.only node.ref := by
    revert isDeclaration
    generalize node.kind = kind
    intro isDeclaration
    funext slot
    cases kind with
    | typeParameter | constructorParameter | valueParameter | property | function | «class» =>
        cases slot <;> rfl
    | _ => exact absurd isDeclaration Bool.false_ne_true
  rw [Node.filled_eq, own, add_comm]

section Filled

attribute [local simp] Node.children Node.parts Part.children Part.optional Node.filledOf?

theorem filled_typeParameter (parameter : TypeParameter) :
    (Node.typeParameter parameter).filled =
      Slot.declaration.only (Node.typeParameter parameter).ref := by
  rw [Node.filled_of_isDeclaration rfl]
  simp

theorem filled_valueParameter (parameter : ValueParameter) :
    (Node.valueParameter parameter).filled =
      (Node.type parameter.type).filled +
        Slot.declaration.only (Node.valueParameter parameter).ref := by
  rw [Node.filled_of_isDeclaration rfl]
  simp

theorem filled_constructorParameter (parameter : ConstructorParameter) :
    (Node.constructorParameter parameter).filled =
      (Node.type parameter.type).filled +
        Slot.declaration.only (Node.constructorParameter parameter).ref := by
  rw [Node.filled_of_isDeclaration rfl]
  cases binding : parameter.binding <;> simp [binding]

theorem filled_functionDeclaration (function : Function) :
    (Node.function function).filled =
      (function.typeParameters.map fun parameter => (Node.typeParameter parameter).filled).sum +
        ((function.parameters.map fun parameter => (Node.valueParameter parameter).filled).sum +
          (Node.filledOf? (function.returnType.map Node.type) + function.body.node.filled)) +
            Slot.declaration.only (Node.function function).ref := by
  rw [Node.filled_of_isDeclaration rfl]
  cases written : function.returnType <;> simp [written, Function.comp_def]

theorem filled_class (declaration : Tree.Class) :
    (Node.class declaration).filled =
      (declaration.typeParameters.map fun parameter => (Node.typeParameter parameter).filled).sum +
        ((declaration.constructorParameters.map fun parameter =>
            (Node.constructorParameter parameter).filled).sum +
          (declaration.members.map fun member => member.node.filled).sum) +
            Slot.declaration.only (Node.class declaration).ref := by
  rw [Node.filled_of_isDeclaration rfl]
  simp [Function.comp_def]

end Filled

/-! ### Members -/

namespace Tree.Member

/-- The slots that are filled by the head of a member. -/
def headFilled : Member → Slot → Multiset NodeRef
  | .function declared =>
      (declared.typeParameters.map fun parameter => (Node.typeParameter parameter).filled).sum +
        ((declared.parameters.map fun parameter => (Node.valueParameter parameter).filled).sum +
          Node.filledOf? (declared.returnType.map Node.type)) +
            Slot.declaration.only (Node.function declared).ref
  | .property declared =>
      Node.filledOf? (declared.type.map Node.type) +
        Slot.declaration.only (Node.property declared).ref

/-- The slots that are filled by the body of a member, if any. -/
def bodyFilled (member : Member) : Slot → Multiset NodeRef :=
  Node.filledOf? (member.openBody?.map Node.expression) + Node.filledOf? member.checkedBody?

theorem filled_eq (member : Member) :
    member.node.filled = member.headFilled + member.bodyFilled := by
  cases member with
  | function declared =>
      obtain ⟨span, name, nameSpan, typeParameters, parameters, returnType, body⟩ := declared
      rw [node, filled_functionDeclaration]
      cases returnType <;> cases body <;>
        simp only [headFilled, bodyFilled, openBody?, checkedBody?, Node.filledOf?, Body.node,
          Option.map_none, Option.map_some, Option.getD_none, Option.getD_some] <;>
        abel
  | property declared =>
      obtain ⟨span, name, nameSpan, binding, type, initializer⟩ := declared
      rw [node, filled_property]
      cases type <;> cases initializer <;>
        simp only [headFilled, bodyFilled, openBody?, checkedBody?, Node.filledOf?,
          Option.map_none, Option.map_some, Option.getD_none, Option.getD_some] <;>
        abel

end Tree.Member

/-! ### Remarks about heads -/

theorem filled_clash (level : List (Symbol Descriptor)) (introduction : Introduction) :
    Remark.filled (introduction.clash level) = 0 := by
  unfold Introduction.clash
  cases (level.filter fun earlier => earlier.name = introduction.symbol.name).find? _ with
  | none => rfl
  | some earlier => exact Remark.filled_problem _

theorem Introduction.filled_remarksOfAll (level : List (Symbol Descriptor))
    (introductions : List Introduction) :
    Remark.filled (Introduction.remarksOfAll level introductions) =
      (introductions.map fun introduction =>
        Slot.declaration.only introduction.node).sum := by
  induction introductions generalizing level with
  | nil => rfl
  | cons first rest ih =>
      rw [Introduction.remarksOfAll, Remark.filled_append, filled_clash, zero_add,
        ← List.singleton_append, Remark.filled_append, ih, Introduction.declared,
        Remark.filled_declared, List.map_cons, List.sum_cons]

theorem filled_remarksOf? (classifiers : Classifiers) (type : Option TypeRef) :
    Remark.filled (TypeRef.remarksOf? classifiers type) =
      Node.filledOf? (type.map Node.type) := by
  cases type with
  | none => rfl
  | some type => exact filled_remarks classifiers type

theorem filled_typeParameterIntroductions (container : Option String)
    (level : List (Symbol Descriptor)) (parameters : List TypeParameter) :
    Remark.filled (Introduction.remarksOfAll level
        (parameters.map (TypeParameter.introduction container))) =
      (parameters.map fun parameter => (Node.typeParameter parameter).filled).sum := by
  rw [Introduction.filled_remarksOfAll, List.map_map]
  simp only [filled_typeParameter]
  rfl

theorem filled_parameterRemarks (classifiers : Classifiers) (function : FunctionDescriptor)
    (level : List (Symbol Descriptor)) (described : List (ValueParameter × ParameterDescriptor)) :
    Remark.filled (parameterRemarks classifiers function level described) =
      (described.map fun parameter => (Node.valueParameter parameter.1).filled).sum := by
  induction described generalizing level with
  | nil => rfl
  | cons first rest ih =>
      rw [parameterRemarks, Remark.filled_append, Remark.filled_append, filled_clash, zero_add,
        ← List.singleton_append, Remark.filled_append, ih, filled_remarks, Introduction.declared,
        Remark.filled_declared, List.map_cons, List.sum_cons, filled_valueParameter, add_assoc]
      rfl

namespace Tree

theorem Function.map_fst_described (owner : Option ClassDescriptor) (classifiers : Classifiers)
    (function : Function) :
    (function.described owner classifiers).map Prod.fst = function.parameters := by
  apply List.map_fst_zip
  simp [Function.describe, Resolver.describeParameters]

namespace Member

variable (owner : Option ClassDescriptor) (classifiers : Classifiers)

theorem filled_remarks (level : List (Symbol Descriptor)) (member : Member) :
    Remark.filled (member.remarks owner classifiers level) = member.headFilled := by
  rw [remarks, Remark.filled_append, Remark.filled_append, filled_clash, zero_add,
    Introduction.declared, Remark.filled_declared]
  cases member with
  | function declared =>
      have parameters := congrArg List.sum (congrArg
        (List.map fun parameter => (Node.valueParameter parameter).filled)
        (declared.map_fst_described owner classifiers))
      rw [List.map_map] at parameters
      rw [headRemarks, Function.headRemarks, Remark.filled_append, Remark.filled_append,
        Function.typeParameterIntroductions, filled_typeParameterIntroductions,
        filled_parameterRemarks, filled_remarksOf?, headFilled, ← parameters]
      rfl
  | property declared =>
      have missing : Remark.filled declared.missingType = 0 := by
        unfold Property.missingType
        split
        · exact Remark.filled_problem _
        · rfl
      rw [headRemarks, Property.headRemarks, Remark.filled_append, filled_remarksOf?, missing,
        add_zero, headFilled]
      rfl

theorem filled_remarksOfAll (level : List (Symbol Descriptor)) (members : List Member) :
    Remark.filled (remarksOfAll owner classifiers level members) =
      (members.map headFilled).sum := by
  induction members generalizing level with
  | nil => rfl
  | cons first rest ih =>
      rw [remarksOfAll, Remark.filled_append, filled_remarks, ih, List.map_cons, List.sum_cons]

end Member

namespace ConstructorParameter

variable (owner : ClassDescriptor) (classifiers : Classifiers)

theorem filled_remarks (index : Nat) (constructor members : List (Symbol Descriptor))
    (parameter : ConstructorParameter) :
    Remark.filled (parameter.remarks owner classifiers index constructor members) =
      (Node.constructorParameter parameter).filled := by
  have clashes : Remark.filled ((parameter.property owner classifiers).toList.flatMap
      (Introduction.clash members)) = 0 := by
    cases parameter.property owner classifiers with
    | none => rfl
    | some property =>
        rw [Option.toList_some, List.flatMap_singleton, filled_clash]
  have node : (parameter.declared owner classifiers index).node =
      (Node.constructorParameter parameter).ref := by
    rw [declared, property]
    cases parameter.binding <;> rfl
  rw [remarks, Remark.filled_append, Remark.filled_append, Remark.filled_append, filled_clash,
    zero_add, clashes, zero_add, Gloss.filled_remarks, Introduction.declared,
    Remark.filled_declared, node, filled_constructorParameter]

theorem filled_remarksOfAll (constructor members : List (Symbol Descriptor)) (index : Nat)
    (parameters : List ConstructorParameter) :
    Remark.filled (remarksOfAll owner classifiers constructor members index parameters) =
      (parameters.map fun parameter => (Node.constructorParameter parameter).filled).sum := by
  induction parameters generalizing constructor members index with
  | nil => rfl
  | cons first rest ih =>
      rw [remarksOfAll, Remark.filled_append, filled_remarks, ih, List.map_cons, List.sum_cons]

end ConstructorParameter

namespace Class

variable (classifiers : Classifiers) (declaration : Tree.Class)

/-- The slots that are filled when a class is declared, as yet without members. -/
def headFilled : Slot → Multiset NodeRef :=
  (declaration.typeParameters.map fun parameter => (Node.typeParameter parameter).filled).sum +
    Slot.declaration.only (Node.class declaration).ref

/-- The slots that are filled when the members of a class are declared. -/
def contentFilled : Slot → Multiset NodeRef :=
  (declaration.constructorParameters.map fun parameter =>
      (Node.constructorParameter parameter).filled).sum +
    (declaration.members.map Member.headFilled).sum

theorem filled_headRemarks (level : List (Symbol Descriptor)) :
    Remark.filled (declaration.headRemarks level) = declaration.headFilled := by
  rw [headRemarks, Remark.filled_append, Remark.filled_append, header,
    filled_typeParameterIntroductions, filled_clash, zero_add, Introduction.declared,
    Remark.filled_declared]
  rfl

theorem filled_contentRemarks :
    Remark.filled (declaration.contentRemarks classifiers) = declaration.contentFilled := by
  rw [contentRemarks, Remark.filled_append, ConstructorParameter.filled_remarksOfAll,
    Member.filled_remarksOfAll]
  rfl

end Class

namespace TopLevel

/-- The slots that are filled before all members are declared. -/
def headFilled : TopLevel → Slot → Multiset NodeRef
  | .class declared => declared.headFilled
  | .member _ => 0

/-- The slots that are filled when the members are declared. -/
def contentFilled : TopLevel → Slot → Multiset NodeRef
  | .class declared => declared.contentFilled
  | .member declared => declared.headFilled

theorem filled_eq (declared : TopLevel) :
    declared.node.filled = declared.headFilled + declared.contentFilled +
      (declared.members.map Member.bodyFilled).sum := by
  cases declared with
  | «class» declaration =>
      have split : (declaration.members.map fun member => member.node.filled).sum =
          (declaration.members.map Member.headFilled).sum +
            (declaration.members.map Member.bodyFilled).sum := by
        rw [← List.sum_map_add]
        exact congrArg List.sum (List.map_congr_left fun member _ => member.filled_eq)
      rw [node, filled_class, split, headFilled, contentFilled, Class.headFilled,
        Class.contentFilled, members]
      abel
  | member declaration =>
      rw [node, declaration.filled_eq, headFilled, contentFilled, zero_add, members,
        List.map_singleton, List.sum_singleton]

theorem filled_classRemarks (level : List (Symbol Descriptor)) (contents : List TopLevel) :
    Remark.filled (classRemarks level contents) = (contents.map headFilled).sum := by
  induction contents generalizing level with
  | nil => rfl
  | cons first rest ih =>
      rw [List.map_cons, List.sum_cons]
      cases first with
      | «class» declared =>
          rw [classRemarks, Remark.filled_append, Class.filled_headRemarks, ih]
          rfl
      | member declared => rw [classRemarks, ih, headFilled, zero_add]

theorem filled_contentRemarks (classifiers : Classifiers) (level : List (Symbol Descriptor))
    (contents : List TopLevel) :
    Remark.filled (contentRemarks classifiers level contents) =
      (contents.map contentFilled).sum := by
  induction contents generalizing level with
  | nil => rfl
  | cons first rest ih =>
      rw [List.map_cons, List.sum_cons]
      cases first with
      | «class» declared =>
          rw [contentRemarks, Remark.filled_append, Class.filled_contentRemarks, ih]
          rfl
      | member declared =>
          rw [contentRemarks, Remark.filled_append, Member.filled_remarks, ih]
          rfl

end TopLevel

end Tree

end Gloss
