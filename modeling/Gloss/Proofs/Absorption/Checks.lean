import Gloss.Proofs.Absorption.Inferences
import Gloss.Proofs.Recursion.Files
import Gloss.Proofs.Typing.Equality

/-!
# Checks beside each other

The check of a member goes as it went: its local variables have types that absorb what they were,
and what is expected of a body or an initializer is what was expected of it.
-/

namespace Gloss

open Gloss.Tree ResolutionState Script

variable {comparison : Comparison} {now before : Surroundings}

namespace Comparison.Sees

/-- Local variables of a block are seen in front of everything else. -/
theorem inside (sees : comparison.Sees now before) {block original : List (Symbol Descriptor)}
    (fades : List.Forall₂ Symbol.Fades block original) :
    comparison.Sees (now.inside block) (before.inside original) where
  levels := .cons fades sees.levels
  class? := sees.class?
  classBefore? := sees.classBefore?
  isOpen := sees.isOpen

end Comparison.Sees

namespace Script

variable {isOpen isOpenBefore : NodeRef → Bool}

/-- What is written down as before reports nothing. -/
theorem echoes_tellAll (remarks : List Remark) :
    (tellAll remarks : Script isOpen Unit).Echoes comparison (fun _ _ => True)
      (tellAll remarks : Script isOpenBefore Unit) := by
  rintro earlier _ ⟨_, trail, -, written⟩ others _ runs
  rw [runs_tellAll trail.runs] at written
  rw [runs_tellAll runs.runs]
  exact ⟨trivial, fun remark isWritten => comparison.quiet_of_written (written remark isWritten)⟩

theorem yields_reportConflict (level : List (Symbol Descriptor)) (symbol : Symbol Descriptor)
    (node : NodeRef) :
    (reportConflict level symbol node : Script isOpen Unit).Yields comparison fun _ => True := by
  unfold reportConflict
  split
  · exact yields_report rfl node
  · exact .of_pure trivial

theorem echoes_localType (declaration other : Property) {type original : Option NominalType}
    (absorbs : Option.Rel NominalType.Absorbs type original) :
    (localType declaration type : Script isOpen NominalType).Echoes comparison NominalType.Absorbs
      (localType other original : Script isOpenBefore NominalType) := by
  cases absorbs with
  | none => exact (Excluded.of_report _ _).bind.echoes
  | some absorbs => exact .of_pure absorbs

end Script

namespace Surroundings

variable (sees : comparison.Sees now before)

include sees

theorem echoes_check {value : Expr} (inside : comparison.inside value.node)
    {expected original : NominalType} (absorbs : expected.Absorbs original) :
    (now.check (value.replacing comparison.place comparison.unknown) expected).Echoes comparison
      (fun _ _ => True) (before.check value original) :=
  (echoes_infer sees value inside).bind fun _ _ inferred => echoes_expect inferred absorbs _ _

theorem echoes_writtenType? (type : Option TypeRef) :
    (now.writtenType? type).Echoes comparison Eq (before.writtenType? type) := by
  cases type with
  | none => exact .of_pure rfl
  | some type =>
      rw [writtenType?, writtenType?, classifiers_eq sees]
      exact (echoes_tellAll _).bind fun _ _ _ => .of_pure rfl

theorem echoes_checkInitializer (declared : Option NominalType) {initializer : Option Expr}
    (inside : ∀ value ∈ initializer, comparison.inside value.node) :
    (now.checkInitializer declared
        (initializer.map (Expr.replacing comparison.place comparison.unknown))).Echoes comparison
      (Option.Rel NominalType.Absorbs) (before.checkInitializer declared initializer) := by
  cases initializer with
  | none => exact .of_pure .none
  | some value =>
      refine (echoes_infer sees value (inside value rfl)).bind fun type original absorbs => ?_
      cases declared with
      | none => exact .of_pure (.some absorbs)
      | some expected =>
          exact (echoes_expect absorbs (.refl _) _ _).bind fun _ _ _ => .of_pure (.some absorbs)

/-- A local variable is declared with a type that absorbs what it was. -/
theorem echoes_describeLocal {declaration : Property}
    (inside : comparison.inside (.property declaration)) :
    (now.describeLocal (declaration.replacing comparison.place comparison.unknown)).Echoes
      comparison (fun descriptor original => ∃ type typeBefore, type.Absorbs typeBefore ∧
        descriptor = (declaration.localSymbol type).descriptor ∧
          original = (declaration.localSymbol typeBefore).descriptor)
      (before.describeLocal declaration) := by
  have insideInitializer : ∀ value ∈ declaration.initializer, comparison.inside value.node := by
    intro value isValue
    refine comparison.child _ inside _ ?_
    rw [Node.children_property, List.mem_append, Option.mem_toList, Option.mem_toList]
    exact .inr (Option.mem_map_of_mem Node.expression isValue)
  refine (echoes_writtenType? sees declaration.type).bind ?_
  rintro declared _ rfl
  refine (echoes_checkInitializer sees declared insideInitializer).bind
    fun inferred original absorbs => ?_
  have known : Option.Rel NominalType.Absorbs (declared.or inferred) (declared.or original) := by
    cases declared with
    | none => exact absorbs
    | some type => exact .some (.refl type)
  exact (echoes_localType _ _ known).bind fun type typeBefore same =>
    .of_pure ⟨type, typeBefore, same, rfl, rfl⟩

/-- By induction on the statements: each local variable is one more symbol that is seen. -/
theorem echoes_checkStatements {statements : List Statement}
    (inside : ∀ statement ∈ statements, comparison.inside statement.node)
    {block original : List (Symbol Descriptor)} (fades : List.Forall₂ Symbol.Fades block original) :
    (now.checkStatements block
        (statements.map (Statement.replacing comparison.place comparison.unknown))).Echoes
      comparison (fun _ _ => True) (before.checkStatements original statements) := by
  induction statements generalizing block original with
  | nil => exact .of_pure trivial
  | cons statement rest ih =>
      obtain ⟨insideFirst, insideRest⟩ := List.forall_mem_cons.mp inside
      cases statement with
      | «variable» declaration =>
          refine (echoes_describeLocal (sees.inside fades) insideFirst).bind ?_
          rintro _ _ ⟨type, typeBefore, absorbs, rfl, rfl⟩
          refine ((yields_reportConflict _ _ _).echoes _).bind fun _ _ _ => ?_
          refine ((Yields.of_tell (Remark.quiet_declared _ _)).echoes _).bind fun _ _ _ => ?_
          exact ih insideRest (List.rel_append fades (.cons (.local _ absorbs) .nil))
      | expression value =>
          exact (echoes_infer (sees.inside fades) value insideFirst).bind fun _ _ _ =>
            ih insideRest fades

theorem echoes_checkFunction {function : Function}
    (inside : comparison.inside (Node.function function)) (descriptor : FunctionDescriptor) :
    (now.checkFunction (function.replacing comparison.place comparison.unknown) descriptor).Echoes
      comparison (fun _ _ => True) (before.checkFunction function descriptor) := by
  have insideBody : comparison.inside function.body.node := by
    refine comparison.child _ inside _ ?_
    rw [Node.children_function]
    exact List.mem_append_right _ (List.mem_singleton_self _)
  refine (echoes_settle sees _ _).bind fun returned original absorbs => ?_
  rw [Function.replacing]
  cases body : function.body with
  | block steps =>
      rw [body] at insideBody
      refine echoes_checkStatements sees (fun statement isStatement =>
        comparison.child _ insideBody _ ?_) .nil
      rw [Body.node, Block.children_eq]
      exact List.mem_map_of_mem isStatement
  | expression value =>
      rw [body] at insideBody
      simp only [Body.replacing]
      split
      · exact echoes_check sees insideBody absorbs
      · exact .of_pure trivial

theorem echoes_checkProperty {property : Property}
    (inside : comparison.inside (Node.property property)) (holder : PropertyDescriptor) :
    (now.checkProperty (property.replacing comparison.place comparison.unknown)
        (.property holder)).Echoes comparison (fun _ _ => True)
      (before.checkProperty property (.property holder)) := by
  refine (echoes_settle sees _ _).bind fun type original absorbs => ?_
  rw [Property.replacing]
  cases initialized : property.initializer with
  | none => exact .of_pure trivial
  | some value =>
      simp only [Option.map_some]
      split
      · refine echoes_check sees (comparison.child _ inside _ ?_) absorbs
        rw [Node.children_property, initialized]
        exact List.mem_append_right _ (List.mem_singleton_self _)
      · exact .of_pure trivial

/-- The check of a member reports no mismatch now. -/
theorem echoes_checkMember {site : Site} (inside : comparison.inside site.member.node) :
    (now.checkMember (site.replacing comparison.place comparison.unknown)).Echoes comparison
      (fun _ _ => True) (before.checkMember site) := by
  obtain ⟨member, owner, classifiers, levels⟩ := site
  cases member with
  | function declared =>
      simp only [checkMember, Site.replacing, Member.replacing, Function.describe_replacing]
      exact echoes_checkFunction sees inside _
  | property declared =>
      simp only [checkMember, Site.replacing, Member.replacing, Property.describe_replacing]
      exact echoes_checkProperty sees inside _

end Surroundings

/-! ### Declarations -/

theorem Tree.Member.isPlain_introduction (owner : Option ClassDescriptor)
    (classifiers : Classifiers) (member : Member) :
    (member.introduction owner classifiers).symbol.descriptor.IsPlain := by
  cases member with
  | property declared => exact Descriptor.isPlain_variable _
  | function declared =>
      exact ⟨rfl, List.forall_mem_map.mpr (List.forall_mem_map.mpr fun _ _ => rfl)⟩

namespace Visible

variable {contents : List TopLevel} {site : Site} {symbol : Symbol Descriptor}

/-- All that members see are declarations. -/
theorem isPlain (visible : Visible contents site symbol) : symbol.descriptor.IsPlain := by
  cases visible with
  | @member other _ => exact other.member.isPlain_introduction _ _
  | property declared =>
      obtain ⟨binding, -, rfl⟩ := Option.map_eq_some_iff.mp declared
      exact Descriptor.isPlain_variable _
  | constructorParameter | valueParameter => exact Descriptor.isPlain_variable _
  | typeParameter => exact ⟨rfl, List.forall_mem_nil _⟩
  | «class» declaration =>
      exact ⟨rfl, List.forall_mem_map.mpr (List.forall_mem_map.mpr fun _ _ => rfl)⟩
  | library provided =>
      have proper : ∀ symbol ∈ librarySymbols, ∀ unknown ∈ symbol.descriptor.callParameters,
          unknown.kind = .typeParameter := by
        decide
      exact ⟨(Library.undeclared_descriptors _ (mem_library_of_mem_librarySymbols provided)).1,
        proper symbol provided⟩

end Visible

namespace ResolutionState

variable {contents : List TopLevel} {base other : ResolutionState} {place : NodeRef}
  {unknown : String}

theorem Laid.isPlain_of_class? (laid : base.Laid contents) {constructor : TypeConstructor}
    {entry : ClassEntry} (found : base.class? constructor = some entry) : entry.IsPlain where
  members member isMember := by
    rcases laid.declared_or_provided found isMember with
      ⟨declaration, -, introduction, isIntroduced, rfl⟩ | ⟨provided, isClass, isMember⟩
    · rcases List.mem_append.mp isIntroduced with isProperty | isDeclared
      · obtain ⟨parameter, -, declared⟩ := List.mem_flatMap.mp isProperty
        obtain ⟨binding, -, rfl⟩ := Option.map_eq_some_iff.mp (Option.mem_toList.mp declared)
        exact Descriptor.isPlain_variable _
      · obtain ⟨inner, -, rfl⟩ := List.mem_map.mp isDeclared
        exact inner.isPlain_introduction _ _
    · exact (Library.isPlain_of_mem_classes isClass).members member isMember
  noClass owner isMember := by
    rcases laid.isFunction_or_isProperty found isMember with isFunction | isProperty
    · cases isFunction
    · cases isProperty
  proper := laid.kind_of_mem_typeParameters found

/-- Classes have what they had. -/
theorem Laid.class?_replacing (laid : base.Laid contents)
    (laidNow : other.Laid (contents.map (TopLevel.replacing place unknown))) :
    other.class? = base.class? := by
  have same (constructor : TypeConstructor) :
      other.classes.get? constructor = base.classes.get? constructor := by
    rcases laid.get?_classes constructor with ⟨declaration, isClass, rfl, found⟩ | ⟨noClass, found⟩
    · have isClassNow : declaration.replacing place unknown ∈
          TopLevel.classes (contents.map (TopLevel.replacing place unknown)) := by
        rw [TopLevel.classes_replacing]
        exact List.mem_map_of_mem isClass
      have foundNow := laidNow.entries _ isClassNow
      rw [TopLevel.classifiersOf_replacing, Class.entry_replacing] at foundNow
      exact foundNow.trans found.symm
    · rw [found]
      refine laidNow.noClass constructor ?_
      rw [TopLevel.classes_replacing]
      exact List.forall_mem_map.mpr noClass
  funext constructor
  simp only [class?, same]

end ResolutionState

theorem Tree.Member.openBody?_replacing (place : NodeRef) (unknown : String) (member : Member) :
    (member.replacing place unknown).openBody? =
      member.openBody?.map (Expr.replacing place unknown) := by
  cases member with
  | property declared =>
      cases written : declared.type <;> simp [replacing, openBody?, Property.replacing, written]
  | function declared =>
      cases written : declared.returnType <;> cases body : declared.body <;>
        simp [replacing, openBody?, Function.replacing, Body.replacing, written, body]

namespace ResolutionState

variable {contents : List TopLevel} {base other : ResolutionState} {place : NodeRef}
  {unknown : String} {site : Site}

theorem Laid.isOpenType_eq (laid : base.Laid contents) (isSite : site ∈ TopLevel.sitesOf contents) :
    base.isOpenType site.member.node.ref = site.member.openBody?.isSome := by
  obtain ⟨scope, -, -, put⟩ := laid.placed site isSite
  rw [ResolutionState.isOpenType, put, Option.isSome_map]

/-- The types of the same members are left open. -/
theorem Laid.isOpenType_replacing (laid : base.Laid contents)
    (laidNow : other.Laid (contents.map (TopLevel.replacing place unknown))) :
    other.isOpenType = base.isOpenType := by
  funext node
  by_cases isMember : ∃ site ∈ TopLevel.sitesOf contents, site.member.node.ref = node
  · obtain ⟨site, isSite, rfl⟩ := isMember
    have isOpen := laidNow.isOpenType_eq (TopLevel.mem_sitesOf_replacing contents isSite)
    rw [Site.replacing, Member.ref_replacing, Member.openBody?_replacing, Option.isSome_map]
      at isOpen
    rw [isOpen, laid.isOpenType_eq isSite]
  · push Not at isMember
    have noMember : ∀ site ∈ TopLevel.sitesOf (contents.map (TopLevel.replacing place unknown)),
        site.member.node.ref ≠ node := by
      rw [TopLevel.sitesOf_replacing]
      refine List.forall_mem_map.mpr fun site isSite => ?_
      rw [Site.replacing, Member.ref_replacing]
      exact isMember site isSite
    rw [ResolutionState.isOpenType, ResolutionState.isOpenType, laid.notDeferred node isMember, laidNow.notDeferred node noMember]

end ResolutionState

end Gloss
