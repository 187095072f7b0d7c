import Gloss.Proofs.Tree.Refs
import Mathlib.Algebra.BigOperators.Group.List.Basic

/-!
# The parts of a member

What a member declares is known from its head.  An expression that decides an
open type may be looked at any time later; every other body or initializer is
looked at when all members are declared.
-/

namespace Gloss

namespace Node

/-- The declarations in a node that may be missing. -/
def declarationsOf? (node? : Option Node) : Multiset NodeRef := (node?.map declarations).getD 0

@[simp] theorem declarationsOf?_none : declarationsOf? none = 0 := rfl

@[simp] theorem declarationsOf?_some (node : Node) :
    declarationsOf? (some node) = node.declarations :=
  rfl

end Node

namespace Tree

namespace Member

/-- The expression that decides the type of a member, if it is left open. -/
def openBody? : Member → Option Expr
  | .function declared =>
      match declared.returnType, declared.body with
      | none, .expression body => some body
      | _, _ => none
  | .property declared =>
      match declared.type with
      | none => declared.initializer
      | some _ => none

/-- The part of a member that is checked when all is declared. -/
def checkedBody? : Member → Option Node
  | .function declared =>
      match declared.returnType, declared.body with
      | none, .expression _ => none
      | _, body => some body.node
  | .property declared =>
      match declared.type with
      | none => none
      | some _ => declared.initializer.map Node.expression

/-- The references in the head of a member. -/
def headReferences : Member → Multiset NodeRef
  | .function declared =>
      (declared.parameters.map fun parameter => (Node.type parameter.type).references).sum +
        Node.referencesOf? (declared.returnType.map Node.type)
  | .property declared => Node.referencesOf? (declared.type.map Node.type)

/-- The references that are accounted for when a member is declared. -/
def firstReferences (member : Member) : Multiset NodeRef :=
  member.headReferences + Node.referencesOf? (member.openBody?.map Node.expression)

/-- What a member and its head declare. -/
def headDeclarations : Member → Multiset NodeRef
  | .function declared =>
      {(Node.function declared).ref} +
        (declared.typeParameters.map fun parameter => {(Node.typeParameter parameter).ref}).sum +
        (declared.parameters.map fun parameter => {(Node.valueParameter parameter).ref}).sum
  | .property declared => {(Node.property declared).ref}

theorem references_eq (member : Member) :
    member.node.references =
      member.firstReferences + Node.referencesOf? member.checkedBody? := by
  rw [firstReferences]
  cases member with
  | function declared =>
      obtain ⟨span, name, nameSpan, typeParameters, parameters, returnType, body⟩ := declared
      rw [node, Node.references_function]
      cases returnType <;> cases body <;>
        simp [headReferences, openBody?, checkedBody?, Body.node]
  | property declared =>
      obtain ⟨span, name, nameSpan, binding, type, initializer⟩ := declared
      rw [node, Node.references_property]
      cases type <;> cases initializer <;> simp [headReferences, openBody?, checkedBody?]

theorem declarations_eq (member : Member) :
    member.node.declarations =
      member.headDeclarations + Node.declarationsOf? member.checkedBody? := by
  cases member with
  | function declared =>
      obtain ⟨span, name, nameSpan, typeParameters, parameters, returnType, body⟩ := declared
      rw [node, Node.declarations_function]
      cases returnType <;> cases body <;>
        simp [headDeclarations, checkedBody?, Body.node]
  | property declared =>
      obtain ⟨span, name, nameSpan, binding, type, initializer⟩ := declared
      rw [node, Node.declarations_property]
      cases type <;> cases initializer <;> simp [headDeclarations, checkedBody?]

end Member

namespace TopLevel

/-- The functions and properties that a declaration consists of. -/
def members : TopLevel → List Member
  | .class declared => declared.members
  | .member declared => [declared]

/-- What is declared before all members. -/
def firstDeclarations : TopLevel → Multiset NodeRef
  | .class declared =>
      {(Node.class declared).ref} +
        (declared.typeParameters.map fun parameter => {(Node.typeParameter parameter).ref}).sum
  | .member _ => 0

/-- The constructor parameters of a class. -/
def constructorParameters : TopLevel → List ConstructorParameter
  | .class declared => declared.constructorParameters
  | .member _ => []

/-- What is declared inside of a declaration, apart from the bodies. -/
def headDeclarations (declared : TopLevel) : Multiset NodeRef :=
  (declared.constructorParameters.map fun parameter =>
    {(Node.constructorParameter parameter).ref}).sum +
      (declared.members.map Member.headDeclarations).sum

/-- The references that are accounted for when the members are declared. -/
def firstReferences (declared : TopLevel) : Multiset NodeRef :=
  (declared.constructorParameters.map fun parameter => (Node.type parameter.type).references).sum +
    (declared.members.map Member.firstReferences).sum

@[simp] theorem members_member (member : Member) :
    (TopLevel.member member).members = [member] := rfl

@[simp] theorem headDeclarations_member (member : Member) :
    (TopLevel.member member).headDeclarations = member.headDeclarations := by
  simp [headDeclarations, constructorParameters]

@[simp] theorem firstReferences_member (member : Member) :
    (TopLevel.member member).firstReferences = member.firstReferences := by
  simp [firstReferences, constructorParameters]

theorem references_eq (declared : TopLevel) :
    declared.node.references =
      declared.firstReferences +
        (declared.members.map fun member => Node.referencesOf? member.checkedBody?).sum := by
  have split : (declared.members.map fun member => member.node.references).sum =
      (declared.members.map Member.firstReferences).sum +
        (declared.members.map fun member => Node.referencesOf? member.checkedBody?).sum := by
    rw [← List.sum_map_add]
    exact congrArg List.sum (List.map_congr_left fun member _ => member.references_eq)
  rw [firstReferences, add_assoc, ← split]
  cases declared with
  | «class» declared => exact Node.references_class declared
  | member declared => simp [node, members, constructorParameters]

theorem declarations_eq (declared : TopLevel) :
    declared.node.declarations =
      declared.firstDeclarations + declared.headDeclarations +
        (declared.members.map fun member => Node.declarationsOf? member.checkedBody?).sum := by
  have split : (declared.members.map fun member => member.node.declarations).sum =
      (declared.members.map Member.headDeclarations).sum +
        (declared.members.map fun member => Node.declarationsOf? member.checkedBody?).sum := by
    rw [← List.sum_map_add]
    exact congrArg List.sum (List.map_congr_left fun member _ => member.declarations_eq)
  rw [headDeclarations, ← add_assoc, add_assoc, ← split]
  cases declared with
  | «class» declared => exact Node.declarations_class declared
  | member declared => simp [node, members, constructorParameters, firstDeclarations]

/-- What belongs to all members is summed up declaration by declaration. -/
theorem sum_map_members {M : Type} [AddCommMonoid M] (amount : Member → M)
    (contents : List TopLevel) :
    ((contents.flatMap members).map amount).sum =
      (contents.map fun declared => (declared.members.map amount).sum).sum := by
  rw [List.map_flatMap, List.flatMap_def, List.sum_flatten, List.map_map]
  rfl

end TopLevel

namespace File

/-- The references of a file outside of its package line. -/
def references (file : File) : Multiset NodeRef :=
  (file.declarations.map fun declared => declared.node.references).sum

/-- All declarations of a file. -/
def declaredNodes (file : File) : Multiset NodeRef :=
  (file.declarations.map fun declared => declared.node.declarations).sum

/-- The functions and properties of a file that are not local. -/
def members (file : File) : List Member := file.declarations.flatMap TopLevel.members

/-- The constructor parameters of all classes in a file. -/
def constructorParameters (file : File) : List ConstructorParameter :=
  file.declarations.flatMap TopLevel.constructorParameters

theorem references_eq (file : File) :
    file.references =
      (file.declarations.map TopLevel.firstReferences).sum +
        (file.declarations.map fun declared =>
          (declared.members.map fun member =>
            Node.referencesOf? member.checkedBody?).sum).sum := by
  rw [references, ← List.sum_map_add]
  exact congrArg List.sum (List.map_congr_left fun declared _ => declared.references_eq)

theorem declaredNodes_eq (file : File) :
    file.declaredNodes =
      (file.declarations.map TopLevel.firstDeclarations).sum +
        (file.declarations.map TopLevel.headDeclarations).sum +
        (file.declarations.map fun declared =>
          (declared.members.map fun member =>
            Node.declarationsOf? member.checkedBody?).sum).sum := by
  rw [declaredNodes, ← List.sum_map_add, ← List.sum_map_add]
  exact congrArg List.sum (List.map_congr_left fun declared _ => declared.declarations_eq)

end File

end Tree

end Gloss
