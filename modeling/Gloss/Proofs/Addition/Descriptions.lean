import Gloss.Proofs.Addition.Twins
import Gloss.Proofs.Order.Laid
import Gloss.Proofs.Order.Views

/-!
# Where descriptions come from

What is said about the declarations of a file comes from the nodes of the file and from the
library.  So does what is seen from its members, and what is written down about heads.
-/

namespace Gloss

open Gloss.Tree NominalType ResolutionState

/-- A node and all nodes below it are at home somewhere. -/
def Node.Within (home : NodeRef → Prop) (node : Node) : Prop :=
  ∀ below ∈ node.subtree, home below.ref

variable {home : NodeRef → Prop} {classifiers : Classifiers}

theorem Node.Within.child {node below : Node} (within : node.Within home)
    (isChild : below ∈ node.children) : below.Within home :=
  fun deeper isBelow => within deeper (mem_subtree_of_child isChild isBelow)

theorem Node.Within.self {node : Node} (within : node.Within home) : home node.ref :=
  within node node.mem_subtree_self

/-- All that names of types mean comes from some nodes. -/
def Classifiers.From (home : NodeRef → Prop) (classifiers : Classifiers) : Prop :=
  ∀ name symbol, classifiers name = some symbol → symbol.descriptor.From home

theorem Classifiers.From.inside (comes : classifiers.From home) {level : List (Symbol Descriptor)}
    (symbols : ∀ symbol ∈ level, symbol.descriptor.From home) :
    (classifiers.inside level).From home := by
  intro name symbol found
  rcases Option.or_eq_some_iff.mp found with isInside | ⟨-, isOuter⟩
  · have isNamed := List.mem_of_mem_filter (List.mem_of_mem_head? isInside)
    exact symbols symbol (List.mem_of_mem_filter isNamed)
  · exact comes name symbol isOuter

theorem Descriptor.From.typeConstructor? {descriptor : Descriptor} (comes : descriptor.From home)
    {constructor : TypeConstructor} (isType : descriptor.typeConstructor? = some constructor) :
    ∀ node ∈ constructor.declaration?, home node := by
  intro node isDeclared
  cases descriptor with
  | «class» declared =>
      cases isType
      exact comes node (List.mem_append_left _ (Option.mem_toList.mpr isDeclared))
  | typeParameter declared =>
      cases isType
      exact comes node (Option.mem_toList.mpr isDeclared)
  | _ => cases isType

/-! ### Introductions -/

namespace Introduction

theorem shows_clash (introduction : Introduction) (level : List (Symbol Descriptor)) :
    ∀ remark ∈ introduction.clash level, remark.Shows home := by
  unfold clash
  split
  · exact List.forall_mem_singleton.mpr trivial
  · exact List.forall_mem_nil _

theorem shows_declared {introduction : Introduction}
    (comes : introduction.symbol.descriptor.From home) : introduction.declared.Shows home :=
  comes.shownOpen?

theorem shows_remarksOfAll {introductions : List Introduction}
    (comes : ∀ introduction ∈ introductions, introduction.symbol.descriptor.From home)
    (level : List (Symbol Descriptor)) :
    ∀ remark ∈ remarksOfAll level introductions, remark.Shows home := by
  induction introductions generalizing level with
  | nil => exact List.forall_mem_nil _
  | cons first rest ih =>
      obtain ⟨comesFirst, comesRest⟩ := List.forall_mem_cons.mp comes
      exact List.forall_mem_append.mpr ⟨first.shows_clash level,
        List.forall_mem_cons.mpr ⟨shows_declared comesFirst, ih comesRest _⟩⟩

end Introduction

attribute [local simp] Node.children Node.parts Node.typeParts Part.children Part.optional

namespace Tree

/-! ### Written types -/

namespace TypeRef

mutual

theorem from_denote (comes : classifiers.From home) :
    (type : TypeRef) → (type.denote classifiers).From home
  | .named span nullable name nameSpan arguments => by
      rw [denote]
      cases found : classifiers name with
      | none => exact from_error
      | some symbol =>
          dsimp only [Option.bind_some]
          cases isType : symbol.descriptor.typeConstructor? with
          | none => exact from_error
          | some constructor =>
              exact from_iff.mpr ⟨(comes name symbol found).typeConstructor? isType,
                from_denoteAll comes arguments⟩
  | .function span nullable parameters result => by
      rw [denote]
      exact from_functionType (from_denoteAll comes parameters) (from_denote comes result) nullable

theorem from_denoteAll (comes : classifiers.From home) :
    (types : List TypeRef) → ∀ type ∈ denoteAll classifiers types, type.From home
  | [] => by
      rw [denoteAll]
      exact List.forall_mem_nil _
  | type :: rest => by
      rw [denoteAll]
      exact List.forall_mem_cons.mpr ⟨from_denote comes type, from_denoteAll comes rest⟩

end

theorem shows_nameRemarks (comes : classifiers.From home) (node : NodeRef) (name : String)
    (count : Nat) : ∀ remark ∈ nameRemarks classifiers node name count, remark.Shows home := by
  unfold nameRemarks
  cases found : classifiers name with
  | none => exact List.forall_mem_cons.mpr ⟨trivial, List.forall_mem_singleton.mpr trivial⟩
  | some symbol =>
      refine List.forall_mem_cons.mpr ⟨(comes name symbol found).shownOpen?, ?_⟩
      split
      · exact List.forall_mem_nil _
      · split
        · exact List.forall_mem_nil _
        · exact List.forall_mem_singleton.mpr trivial

mutual

theorem shows_remarks (comes : classifiers.From home) :
    (type : TypeRef) → ∀ remark ∈ type.remarks classifiers, remark.Shows home
  | .named span nullable name nameSpan arguments => by
      rw [remarks]
      refine List.forall_mem_append.mpr ⟨?_, List.forall_mem_singleton.mpr trivial⟩
      exact List.forall_mem_append.mpr ⟨shows_remarksOfAll comes arguments,
        shows_nameRemarks comes _ _ _⟩
  | .function span nullable parameters result => by
      rw [remarks]
      refine List.forall_mem_append.mpr ⟨?_, List.forall_mem_cons.mpr
        ⟨trivial, List.forall_mem_singleton.mpr trivial⟩⟩
      exact List.forall_mem_append.mpr ⟨shows_remarksOfAll comes parameters,
        shows_remarks comes result⟩

theorem shows_remarksOfAll (comes : classifiers.From home) :
    (types : List TypeRef) → ∀ remark ∈ remarksOfAll classifiers types, remark.Shows home
  | [] => by
      rw [remarksOfAll]
      exact List.forall_mem_nil _
  | type :: rest => by
      rw [remarksOfAll]
      exact List.forall_mem_append.mpr ⟨shows_remarks comes type, shows_remarksOfAll comes rest⟩

end

theorem shows_remarksOf? (comes : classifiers.From home) (type : Option TypeRef) :
    ∀ remark ∈ remarksOf? classifiers type, remark.Shows home := by
  cases type with
  | none => exact List.forall_mem_nil _
  | some written => exact written.shows_remarks comes

end TypeRef

/-! ### Members -/

theorem from_typeParameter {parameter : TypeParameter} (container : Option String)
    (within : (Node.typeParameter parameter).Within home) :
    (parameter.introduction container).symbol.descriptor.From home :=
  List.forall_mem_singleton.mpr within.self

namespace Function

variable {declared : Function} (within : (Node.function declared).Within home)

include within

theorem from_typeParameterIntroductions :
    ∀ introduction ∈ declared.typeParameterIntroductions,
      introduction.symbol.descriptor.From home :=
  List.forall_mem_map.mpr fun _ isParameter =>
    from_typeParameter none (within.child (by simp [isParameter]))

variable (comes : classifiers.From home) (owner : Option ClassDescriptor)

include comes

theorem from_inner : (declared.inner classifiers).From home :=
  comes.inside (List.forall_mem_map.mpr (from_typeParameterIntroductions within))

theorem from_describe : (Descriptor.function (declared.describe owner classifiers)).From home := by
  have comesInner := from_inner within comes
  refine Descriptor.from_function_iff.mpr ⟨?_, ?_, ?_⟩
  · rintro node ⟨⟩
    exact within.self
  · intro described isDescribed
    obtain ⟨index, -, rfl⟩ := List.mem_mapIdx.mp isDescribed
    exact TypeRef.from_denote comesInner _
  · intro type isReturned
    simp only [describe, Resolver.describeReturnType] at isReturned
    split at isReturned
    · cases isReturned
      exact TypeRef.from_denote comesInner _
    · cases isReturned
      exact from_of_nodes rfl
    · cases isReturned

theorem from_parameterIntroduction :
    ∀ parameter ∈ declared.described owner classifiers,
      (parameterIntroduction (declared.describe owner classifiers)
        parameter).symbol.descriptor.From home := by
  intro parameter isParameter
  obtain ⟨own, parameters, -⟩ := Descriptor.from_function_iff.mp (from_describe within comes owner)
  exact Descriptor.from_parameter_iff.mpr ⟨own, parameters _ (List.of_mem_zip isParameter).2⟩

theorem from_level : ∀ symbol ∈ declared.level owner classifiers, symbol.descriptor.From home :=
  List.forall_mem_append.mpr ⟨List.forall_mem_map.mpr (from_typeParameterIntroductions within),
    List.forall_mem_map.mpr (List.forall_mem_map.mpr
      (from_parameterIntroduction within comes owner))⟩

theorem shows_headRemarks :
    ∀ remark ∈ declared.headRemarks owner classifiers, remark.Shows home := by
  have comesInner := from_inner within comes
  have ofParameters (function : FunctionDescriptor)
      (described : List (ValueParameter × ParameterDescriptor))
      (introduced : ∀ parameter ∈ described,
        (parameterIntroduction function parameter).symbol.descriptor.From home)
      (level : List (Symbol Descriptor)) :
      ∀ remark ∈ parameterRemarks (declared.inner classifiers) function level described,
        remark.Shows home := by
    induction described generalizing level with
    | nil => exact List.forall_mem_nil _
    | cons parameter rest ih =>
        obtain ⟨introducedFirst, introducedRest⟩ := List.forall_mem_cons.mp introduced
        refine List.forall_mem_append.mpr ⟨TypeRef.shows_remarks comesInner _, ?_⟩
        exact List.forall_mem_append.mpr ⟨Introduction.shows_clash _ _, List.forall_mem_cons.mpr
          ⟨Introduction.shows_declared introducedFirst, ih introducedRest _⟩⟩
  refine List.forall_mem_append.mpr ⟨?_, List.forall_mem_append.mpr ⟨?_, ?_⟩⟩
  · exact Introduction.shows_remarksOfAll (from_typeParameterIntroductions within) _
  · exact ofParameters _ _ (from_parameterIntroduction within comes owner) _
  · exact TypeRef.shows_remarksOf? comesInner _

end Function

namespace Property

theorem from_describe {declared : Property} (within : (Node.property declared).Within home)
    (comes : classifiers.From home) (owner : Option ClassDescriptor) :
    (Descriptor.variable (.property (declared.describe owner classifiers))).From home := by
  refine Descriptor.from_property_iff.mpr ⟨?_, ?_⟩
  · rintro node ⟨⟩
    exact within.self
  · intro type isKnown
    simp only [describe, describeType] at isKnown
    split at isKnown
    · cases isKnown
      exact TypeRef.from_denote comes _
    · cases isKnown
    · cases isKnown
      exact from_error

theorem shows_headRemarks (declared : Property) (comes : classifiers.From home) :
    ∀ remark ∈ declared.headRemarks classifiers, remark.Shows home := by
  refine List.forall_mem_append.mpr ⟨TypeRef.shows_remarksOf? comes _, ?_⟩
  unfold missingType
  split
  · exact List.forall_mem_singleton.mpr trivial
  · exact List.forall_mem_nil _

end Property

namespace Member

variable (comes : classifiers.From home) (owner : Option ClassDescriptor)

include comes

theorem from_introduction {member : Member} (within : member.node.Within home) :
    (member.introduction owner classifiers).symbol.descriptor.From home := by
  cases member with
  | function declared => exact Function.from_describe within comes owner
  | property declared => exact Property.from_describe within comes owner

theorem from_levels {member : Member} (within : member.node.Within home)
    {initializer : List (List (Symbol Descriptor))}
    (inInitializer : ∀ level ∈ initializer, ∀ symbol ∈ level, symbol.descriptor.From home) :
    ∀ level ∈ member.levels owner classifiers initializer, ∀ symbol ∈ level,
      symbol.descriptor.From home := by
  cases member with
  | function declared =>
      exact List.forall_mem_singleton.mpr (Function.from_level within comes owner)
  | property declared => exact inInitializer

theorem shows_remarks {member : Member} (within : member.node.Within home)
    (level : List (Symbol Descriptor)) :
    ∀ remark ∈ member.remarks owner classifiers level, remark.Shows home := by
  refine List.forall_mem_append.mpr ⟨?_, List.forall_mem_append.mpr
    ⟨Introduction.shows_clash _ _, List.forall_mem_singleton.mpr
      (Introduction.shows_declared (from_introduction comes owner within))⟩⟩
  cases member with
  | function declared => exact Function.shows_headRemarks within comes owner
  | property declared => exact Property.shows_headRemarks declared comes

theorem shows_remarksOfAll {members : List Member}
    (within : ∀ member ∈ members, member.node.Within home) (level : List (Symbol Descriptor)) :
    ∀ remark ∈ remarksOfAll owner classifiers level members, remark.Shows home := by
  induction members generalizing level with
  | nil => exact List.forall_mem_nil _
  | cons member rest ih =>
      obtain ⟨withinFirst, withinRest⟩ := List.forall_mem_cons.mp within
      exact List.forall_mem_append.mpr ⟨shows_remarks comes owner withinFirst level,
        ih withinRest _⟩

end Member

/-! ### Constructors -/

namespace ConstructorParameter

variable (comes : classifiers.From home) (owner : ClassDescriptor)

include comes

theorem from_introduction (parameter : ConstructorParameter) (index : Nat) :
    (parameter.introduction owner classifiers index).symbol.descriptor.From home := by
  refine Descriptor.from_parameter_iff.mpr ⟨fun node isOwner => ?_, TypeRef.from_denote comes _⟩
  cases isOwner

theorem from_introductions (parameters : List ConstructorParameter) (index : Nat) :
    ∀ introduction ∈ introductions owner classifiers index parameters,
      introduction.symbol.descriptor.From home := by
  induction parameters generalizing index with
  | nil => exact List.forall_mem_nil _
  | cons parameter rest ih =>
      exact List.forall_mem_cons.mpr ⟨from_introduction comes owner parameter index, ih _⟩

theorem from_property {parameter : ConstructorParameter}
    (within : (Node.constructorParameter parameter).Within home) :
    ∀ introduction ∈ parameter.property owner classifiers,
      introduction.symbol.descriptor.From home := by
  intro introduction isProperty
  obtain ⟨binding, -, rfl⟩ := Option.map_eq_some_iff.mp isProperty
  refine Descriptor.from_property_iff.mpr ⟨?_, ?_⟩
  · rintro node ⟨⟩
    exact within.self
  · rintro type ⟨⟩
    exact TypeRef.from_denote comes _

theorem shows_remarks {parameter : ConstructorParameter}
    (within : (Node.constructorParameter parameter).Within home) (index : Nat)
    (constructor members : List (Symbol Descriptor)) :
    ∀ remark ∈ parameter.remarks owner classifiers index constructor members,
      remark.Shows home := by
  have comesDeclared :
      (parameter.declared owner classifiers index).symbol.descriptor.From home := by
    have ofProperty := from_property comes owner within
    unfold declared
    cases isProperty : parameter.property owner classifiers with
    | none => exact from_introduction comes owner parameter index
    | some introduction => exact ofProperty introduction isProperty
  refine List.forall_mem_append.mpr ⟨TypeRef.shows_remarks comes _, ?_⟩
  refine List.forall_mem_append.mpr ⟨Introduction.shows_clash _ _, List.forall_mem_append.mpr
    ⟨?_, List.forall_mem_singleton.mpr (Introduction.shows_declared comesDeclared)⟩⟩
  exact List.forall_mem_flatMap.mpr fun introduction _ => introduction.shows_clash members

theorem shows_remarksOfAll {parameters : List ConstructorParameter}
    (within : ∀ parameter ∈ parameters, (Node.constructorParameter parameter).Within home)
    (index : Nat) (constructor members : List (Symbol Descriptor)) :
    ∀ remark ∈ remarksOfAll owner classifiers constructor members index parameters,
      remark.Shows home := by
  induction parameters generalizing index constructor members with
  | nil => exact List.forall_mem_nil _
  | cons parameter rest ih =>
      obtain ⟨withinFirst, withinRest⟩ := List.forall_mem_cons.mp within
      exact List.forall_mem_append.mpr ⟨shows_remarks comes owner withinFirst index _ _,
        ih withinRest _ _ _⟩

end ConstructorParameter

/-! ### Classes -/

namespace Class

variable {declaration : Tree.Class} (within : (Node.class declaration).Within home)

include within

theorem from_header :
    ∀ introduction ∈ declaration.header, introduction.symbol.descriptor.From home :=
  List.forall_mem_map.mpr fun _ isParameter =>
    from_typeParameter _ (within.child (by simp [isParameter]))

theorem from_introduction : declaration.introduction.symbol.descriptor.From home := by
  refine List.forall_mem_append.mpr ⟨List.forall_mem_singleton.mpr within.self, ?_⟩
  intro node isDeclared
  obtain ⟨described, isDescribed, isNode⟩ := List.mem_filterMap.mp isDeclared
  obtain ⟨parameter, isParameter, rfl⟩ := List.mem_map.mp isDescribed
  cases isNode
  exact (within.child (by simp [isParameter])).self

theorem shows_headRemarks (level : List (Symbol Descriptor)) :
    ∀ remark ∈ declaration.headRemarks level, remark.Shows home :=
  List.forall_mem_append.mpr ⟨Introduction.shows_remarksOfAll (from_header within) _,
    List.forall_mem_append.mpr ⟨Introduction.shows_clash _ _, List.forall_mem_singleton.mpr
      (Introduction.shows_declared (from_introduction within))⟩⟩

theorem within_constructorParameters :
    ∀ parameter ∈ declaration.constructorParameters,
      (Node.constructorParameter parameter).Within home :=
  fun _ isParameter => within.child (by simp [isParameter])

theorem within_members : ∀ member ∈ declaration.members, member.node.Within home :=
  fun member isMember => within.child (by simpa using .inr (.inr ⟨member, isMember, rfl⟩))

variable (comes : classifiers.From home)

include comes

theorem from_inner : (declaration.inner classifiers).From home :=
  comes.inside (List.forall_mem_map.mpr (from_header within))

theorem from_memberIntroductions :
    ∀ introduction ∈ declaration.memberIntroductions classifiers,
      introduction.symbol.descriptor.From home := by
  have comesInner := from_inner within comes
  refine List.forall_mem_append.mpr ⟨List.forall_mem_flatMap.mpr fun parameter isParameter => ?_,
    List.forall_mem_map.mpr fun member isMember => ?_⟩
  · intro introduction isProperty
    exact ConstructorParameter.from_property comesInner _
      (within_constructorParameters within parameter isParameter) introduction
        (Option.mem_toList.mp isProperty)
  · exact Member.from_introduction comesInner _ (within_members within member isMember)

theorem shows_contentRemarks :
    ∀ remark ∈ declaration.contentRemarks classifiers, remark.Shows home := by
  have comesInner := from_inner within comes
  exact List.forall_mem_append.mpr
    ⟨ConstructorParameter.shows_remarksOfAll comesInner _ (within_constructorParameters within)
        _ _ _,
      Member.shows_remarksOfAll comesInner _ (within_members within) _⟩

theorem from_levels {member : Member} (isMember : member ∈ declaration.members) :
    ∀ level ∈ declaration.levels classifiers member, ∀ symbol ∈ level,
      symbol.descriptor.From home := by
  have comesInner := from_inner within comes
  refine List.forall_mem_append.mpr ⟨?_, ?_⟩
  · refine Member.from_levels comesInner _ (within_members within member isMember) ?_
    exact List.forall_mem_singleton.mpr (List.forall_mem_map.mpr
      (ConstructorParameter.from_introductions comesInner _ _ _))
  · refine List.forall_mem_cons.mpr ⟨?_, List.forall_mem_singleton.mpr ?_⟩
    · exact List.forall_mem_map.mpr (from_memberIntroductions within comes)
    · exact List.forall_mem_map.mpr (from_header within)

end Class

end Tree

/-! ### Files -/

theorem from_librarySymbols : ∀ symbol ∈ librarySymbols, symbol.descriptor.From home := by
  have library : ∀ symbol ∈ librarySymbols, symbol.descriptor.nodes = [] := by decide
  exact fun symbol isSymbol => Descriptor.from_of_nodes (library symbol isSymbol)

/-- What is said about a member and what is seen from it come from some nodes. -/
structure Site.From (home : NodeRef → Prop) (site : Site) : Prop where
  within : site.member.node.Within home
  classifiers : site.classifiers.From home
  levels : ∀ level ∈ site.levels, ∀ symbol ∈ level, symbol.descriptor.From home

theorem Site.From.introduction {site : Site} (comes : site.From home) :
    site.introduction.symbol.descriptor.From home :=
  Member.from_introduction comes.classifiers site.owner comes.within

namespace Tree.TopLevel

variable {contents : List TopLevel} (within : ∀ declared ∈ contents, declared.node.Within home)

include within

theorem within_classes : ∀ declaration ∈ classes contents, (Node.class declaration).Within home :=
  fun _ isClass => within _ (mem_classes.mp isClass)

theorem from_classSymbols : ∀ symbol ∈ classSymbols contents, symbol.descriptor.From home :=
  List.forall_mem_map.mpr fun declaration isClass =>
    Class.from_introduction (within_classes within declaration isClass)

theorem from_classifiersOf : (classifiersOf contents).From home := by
  have nothing : Classifiers.From home fun _ => none := fun _ _ found => by cases found
  exact (nothing.inside from_librarySymbols).inside (from_classSymbols within)

theorem from_sites (comes : classifiers.From home) :
    ∀ site ∈ contents.flatMap (sites classifiers), site.From home := by
  refine List.forall_mem_flatMap.mpr fun declared isDeclared => ?_
  have withinDeclared := within declared isDeclared
  cases declared with
  | member declaration =>
      refine List.forall_mem_singleton.mpr ⟨withinDeclared, comes, ?_⟩
      exact Member.from_levels comes none withinDeclared (List.forall_mem_nil _)
  | «class» declaration =>
      refine List.forall_mem_map.mpr fun member isMember => ?_
      exact ⟨Class.within_members withinDeclared member isMember,
        Class.from_inner withinDeclared comes, Class.from_levels withinDeclared comes isMember⟩

theorem from_level : ∀ symbol ∈ level contents, symbol.descriptor.From home := by
  have comes := from_classifiersOf within
  refine List.forall_mem_append.mpr ⟨from_classSymbols within,
    List.forall_mem_flatMap.mpr fun declared isDeclared => ?_⟩
  cases declared with
  | «class» declaration => exact List.forall_mem_nil _
  | member declaration =>
      exact List.forall_mem_singleton.mpr
        (Member.from_introduction comes none (within _ isDeclared))

theorem shows_classRemarks (level : List (Symbol Descriptor)) :
    ∀ remark ∈ classRemarks level contents, remark.Shows home := by
  induction contents generalizing level with
  | nil => exact List.forall_mem_nil _
  | cons first rest ih =>
      obtain ⟨withinFirst, withinRest⟩ := List.forall_mem_cons.mp within
      cases first with
      | member declaration => exact ih withinRest _
      | «class» declaration =>
          exact List.forall_mem_append.mpr ⟨Class.shows_headRemarks withinFirst level,
            ih withinRest _⟩

theorem shows_contentRemarks (comes : classifiers.From home) (level : List (Symbol Descriptor)) :
    ∀ remark ∈ contentRemarks classifiers level contents, remark.Shows home := by
  induction contents generalizing level with
  | nil => exact List.forall_mem_nil _
  | cons first rest ih =>
      obtain ⟨withinFirst, withinRest⟩ := List.forall_mem_cons.mp within
      cases first with
      | member declaration =>
          exact List.forall_mem_append.mpr ⟨Member.shows_remarks comes none withinFirst level,
            ih withinRest _⟩
      | «class» declaration =>
          exact List.forall_mem_append.mpr ⟨Class.shows_contentRemarks withinFirst comes,
            ih withinRest _⟩

/-- All types that are shown with the heads of a file are those of its own nodes. -/
theorem shows_remarks : ∀ remark ∈ remarks contents, remark.Shows home :=
  List.forall_mem_append.mpr ⟨shows_classRemarks within _,
    shows_contentRemarks within (from_classifiersOf within) _⟩

end Tree.TopLevel

/-- The members of classes come from the nodes of the file or from the library. -/
theorem ResolutionState.Laid.from_members {contents : List TopLevel} {base : ResolutionState}
    (laid : base.Laid contents) (within : ∀ declared ∈ contents, declared.node.Within home)
    {constructor : TypeConstructor} {entry : ClassEntry}
    (found : base.class? constructor = some entry) :
    ∀ member ∈ entry.members, member.From home := by
  have library : ∀ entry ∈ Library.classes, ∀ member ∈ entry.members, member.nodes = [] := by
    decide
  intro member isMember
  rcases laid.declared_or_provided found isMember with
    ⟨declaration, isClass, introduction, isIntroduced, rfl⟩ | ⟨provided, isProvided, isMember⟩
  · exact Class.from_memberIntroductions (TopLevel.within_classes within declaration isClass)
      (TopLevel.from_classifiersOf within) introduction isIntroduced
  · exact Descriptor.from_of_nodes (library provided isProvided member isMember)

end Gloss
