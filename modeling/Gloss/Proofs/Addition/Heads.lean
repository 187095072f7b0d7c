import Gloss.Proofs.Addition.Inferences
import Gloss.Proofs.Order.Laid

/-!
# Heads that do not see a new name

What the head of a declaration says depends on what the names of types mean that are written in
it.  If one name comes to mean something else, a declaration that does not use it says the same,
and the same is written down about it.
-/

namespace Gloss

open Gloss.Tree

/-- Under all names but one the same is meant. -/
def Classifiers.SameApart (word : String) (first second : Classifiers) : Prop :=
  ∀ name, name ≠ word → first name = second name

/-- The same member at the same place, where only one name of a type may mean something else. -/
structure Site.SameApart (word : String) (first second : Site) : Prop where
  member : first.member = second.member
  owner : first.owner = second.owner
  classifiers : first.classifiers.SameApart word second.classifiers
  levels : first.levels = second.levels

attribute [local simp] Node.children Node.parts Node.typeParts Part.children Part.optional

variable {word : String} {first second : Classifiers} {level others : List (Symbol Descriptor)}

theorem Classifiers.SameApart.inside (same : first.SameApart word second)
    (sameLevel : Gloss.SameApart word level others) :
    (first.inside level).SameApart word (second.inside others) := by
  intro name isOther
  rw [Classifiers.inside, Classifiers.inside, same name isOther, sameLevel name isOther]

/-- Symbols clash with the same ones if they do not use the name by which the levels differ. -/
theorem Introduction.clash_of_sameApart (same : Gloss.SameApart word level others)
    {introduction : Introduction} (isOther : introduction.symbol.name ≠ word) :
    introduction.clash level = introduction.clash others := by
  rw [clash, clash, same _ isOther]

namespace Tree

/-! ### Written types -/

namespace TypeRef

theorem avoids_argument {span nameSpan : Span} {nullable : Bool} {name : String}
    {arguments : List TypeRef}
    (avoids : (Node.type (.named span nullable name nameSpan arguments)).Avoids word) :
    ∀ argument ∈ arguments, (Node.type argument).Avoids word :=
  fun _ isArgument => avoids.child (by simp [isArgument])

theorem avoids_parameter {span : Span} {nullable : Bool} {parameters : List TypeRef}
    {result : TypeRef}
    (avoids : (Node.type (.function span nullable parameters result)).Avoids word) :
    (∀ parameter ∈ parameters, (Node.type parameter).Avoids word) ∧
      (Node.type result).Avoids word :=
  ⟨fun _ isParameter => avoids.child (by simp [isParameter]), avoids.child (by simp)⟩

mutual

/-- A type that is written without the word means the same. -/
theorem denote_of_avoids (same : first.SameApart word second) : (type : TypeRef) →
    (Node.type type).Avoids word → type.denote first = type.denote second
  | .named span nullable name nameSpan arguments, avoids => by
      rw [denote, denote, same name (avoids.self rfl),
        denoteAll_of_avoids same arguments (avoids_argument avoids)]
  | .function span nullable parameters result, avoids => by
      obtain ⟨avoidsParameters, avoidsResult⟩ := avoids_parameter avoids
      rw [denote, denote, denoteAll_of_avoids same parameters avoidsParameters,
        denote_of_avoids same result avoidsResult]

theorem denoteAll_of_avoids (same : first.SameApart word second) : (types : List TypeRef) →
    (∀ type ∈ types, (Node.type type).Avoids word) → denoteAll first types = denoteAll second types
  | [], _ => by rw [denoteAll, denoteAll]
  | type :: rest, avoids => by
      obtain ⟨avoidsFirst, avoidsRest⟩ := List.forall_mem_cons.mp avoids
      rw [denoteAll, denoteAll, denote_of_avoids same type avoidsFirst,
        denoteAll_of_avoids same rest avoidsRest]

end

mutual

/-- The same is written down about a type that is written without the word. -/
theorem remarks_of_avoids (same : first.SameApart word second) : (type : TypeRef) →
    (Node.type type).Avoids word → type.remarks first = type.remarks second
  | .named span nullable name nameSpan arguments, avoids => by
      rw [remarks, remarks, denote_of_avoids same _ avoids,
        remarksOfAll_of_avoids same arguments (avoids_argument avoids), nameRemarks, nameRemarks,
        same name (avoids.self rfl)]
  | .function span nullable parameters result, avoids => by
      obtain ⟨avoidsParameters, avoidsResult⟩ := avoids_parameter avoids
      rw [remarks, remarks, denote_of_avoids same _ avoids,
        remarksOfAll_of_avoids same parameters avoidsParameters,
        remarks_of_avoids same result avoidsResult]

theorem remarksOfAll_of_avoids (same : first.SameApart word second) : (types : List TypeRef) →
    (∀ type ∈ types, (Node.type type).Avoids word) →
      remarksOfAll first types = remarksOfAll second types
  | [], _ => by rw [remarksOfAll, remarksOfAll]
  | type :: rest, avoids => by
      obtain ⟨avoidsFirst, avoidsRest⟩ := List.forall_mem_cons.mp avoids
      rw [remarksOfAll, remarksOfAll, remarks_of_avoids same type avoidsFirst,
        remarksOfAll_of_avoids same rest avoidsRest]

end

theorem remarksOf?_of_avoids (same : first.SameApart word second) {type : Option TypeRef}
    (avoids : ∀ written ∈ type, (Node.type written).Avoids word) :
    remarksOf? first type = remarksOf? second type := by
  cases type with
  | none => rfl
  | some written => exact remarks_of_avoids same written (avoids written rfl)

end TypeRef

/-! ### Functions -/

namespace Function

theorem sameApart_inner (same : first.SameApart word second) (declared : Function) :
    (declared.inner first).SameApart word (declared.inner second) :=
  same.inside (.refl word _)

variable {declared : Function} (avoids : (Node.function declared).Avoids word)

include avoids

theorem avoids_parameters :
    ∀ parameter ∈ declared.parameters, (Node.type parameter.type).Avoids word := by
  intro parameter isParameter
  have avoidsParameter : (Node.valueParameter parameter).Avoids word :=
    avoids.child (by simp [isParameter])
  exact avoidsParameter.child (by simp)

theorem avoids_body : declared.body.node.Avoids word := avoids.child (by simp)

theorem avoids_returnType : ∀ type ∈ declared.returnType, (Node.type type).Avoids word := by
  intro type isWritten
  exact avoids.child (by simp [Option.mem_def.mp isWritten])

variable (same : first.SameApart word second) (owner : Option ClassDescriptor)

include same

theorem describe_of_avoids : declared.describe owner first = declared.describe owner second := by
  have sameInner := sameApart_inner same declared
  have parameters : Resolver.describeParameters (declared.inner first) declared.parameters =
      Resolver.describeParameters (declared.inner second) declared.parameters := by
    refine List.mapIdx_eq_mapIdx_iff.mpr fun index isInside => ?_
    rw [TypeRef.denote_of_avoids sameInner _
      (avoids_parameters avoids _ (List.getElem_mem isInside))]
  have returnType : Resolver.describeReturnType (declared.inner first) declared =
      Resolver.describeReturnType (declared.inner second) declared := by
    unfold Resolver.describeReturnType
    split
    · next isWritten =>
        rw [TypeRef.denote_of_avoids sameInner _ (avoids_returnType avoids _ isWritten)]
    all_goals rfl
  rw [describe, describe, parameters, returnType]

theorem level_of_avoids : declared.level owner first = declared.level owner second := by
  rw [level, level, described, described, describe_of_avoids avoids same]

theorem headRemarks_of_avoids :
    declared.headRemarks owner first = declared.headRemarks owner second := by
  have sameInner := sameApart_inner same declared
  have ofParameters (function : FunctionDescriptor)
      (described : List (ValueParameter × ParameterDescriptor))
      (written : ∀ parameter ∈ described, (Node.type parameter.1.type).Avoids word)
      (level : List (Symbol Descriptor)) :
      parameterRemarks (declared.inner first) function level described =
        parameterRemarks (declared.inner second) function level described := by
    induction described generalizing level with
    | nil => rfl
    | cons parameter rest ih =>
        obtain ⟨writtenFirst, writtenRest⟩ := List.forall_mem_cons.mp written
        rw [parameterRemarks, parameterRemarks, TypeRef.remarks_of_avoids sameInner _ writtenFirst,
          ih writtenRest]
  have written : ∀ parameter ∈ declared.described owner second,
      (Node.type parameter.1.type).Avoids word :=
    fun parameter isParameter => avoids_parameters avoids _ (List.of_mem_zip isParameter).1
  rw [headRemarks, headRemarks, described, describe_of_avoids avoids same, ← described,
    ofParameters _ _ written, TypeRef.remarksOf?_of_avoids sameInner (avoids_returnType avoids)]

end Function

/-! ### Properties -/

namespace Property

variable {declared : Property} (avoids : (Node.property declared).Avoids word)

include avoids

theorem avoids_type : ∀ type ∈ declared.type, (Node.type type).Avoids word := by
  intro type isWritten
  exact avoids.child (by simp [Option.mem_def.mp isWritten])

theorem avoids_initializer : ∀ value ∈ declared.initializer, value.node.Avoids word := by
  intro value isInitializer
  exact avoids.child (by simp [Option.mem_def.mp isInitializer, Expr.node])

variable (same : first.SameApart word second)

include same

theorem describe_of_avoids (owner : Option ClassDescriptor) :
    declared.describe owner first = declared.describe owner second := by
  have sameType : declared.describeType first = declared.describeType second := by
    unfold describeType
    split
    · next isWritten =>
        rw [TypeRef.denote_of_avoids same _ (avoids_type avoids _ isWritten)]
    all_goals rfl
  rw [describe, describe, sameType]

theorem headRemarks_of_avoids : declared.headRemarks first = declared.headRemarks second := by
  rw [headRemarks, headRemarks, TypeRef.remarksOf?_of_avoids same (avoids_type avoids)]

end Property

/-! ### Members -/

namespace Member

variable (same : first.SameApart word second) (owner : Option ClassDescriptor)

/-- The member is introduced under its own name. -/
theorem name_ne_of_avoids {member : Member} (avoids : member.node.Avoids word)
    (classifiers : Classifiers) : (member.introduction owner classifiers).symbol.name ≠ word := by
  cases member with
  | function declared => exact avoids.self rfl
  | property declared => exact avoids.self rfl

theorem avoids_openBody {member : Member} (avoids : member.node.Avoids word) {body : Expr}
    (isOpen : member.openBody? = some body) : body.node.Avoids word := by
  cases member with
  | function declared =>
      have avoidsBody := Function.avoids_body avoids
      simp only [openBody?] at isOpen
      split at isOpen
      · next isBody =>
          cases isOpen
          rwa [isBody] at avoidsBody
      · cases isOpen
  | property declared =>
      simp only [openBody?] at isOpen
      split at isOpen
      · exact Property.avoids_initializer avoids body isOpen
      · cases isOpen

include same

theorem introduction_of_avoids {member : Member} (avoids : member.node.Avoids word) :
    member.introduction owner first = member.introduction owner second := by
  cases member with
  | function declared =>
      rw [introduction, introduction, Function.introduction, Function.introduction,
        Function.describe_of_avoids avoids same]
  | property declared =>
      rw [introduction, introduction, Property.introduction, Property.introduction,
        Property.describe_of_avoids avoids same]

theorem levels_of_avoids {member : Member} (avoids : member.node.Avoids word)
    (initializer : List (List (Symbol Descriptor))) :
    member.levels owner first initializer = member.levels owner second initializer := by
  cases member with
  | function declared => rw [levels, levels, Function.level_of_avoids avoids same]
  | property declared => rfl

theorem remarks_of_avoids {member : Member} (avoids : member.node.Avoids word)
    (sameLevel : Gloss.SameApart word level others) :
    member.remarks owner first level = member.remarks owner second others := by
  have heads : member.headRemarks owner first = member.headRemarks owner second := by
    cases member with
    | function declared => exact Function.headRemarks_of_avoids avoids same owner
    | property declared => exact Property.headRemarks_of_avoids avoids same
  rw [remarks, remarks, heads, introduction_of_avoids same owner avoids,
    Introduction.clash_of_sameApart sameLevel (name_ne_of_avoids owner avoids second)]

theorem remarksOfAll_of_avoids {members : List Member}
    (avoids : ∀ member ∈ members, member.node.Avoids word) (level : List (Symbol Descriptor)) :
    remarksOfAll owner first level members = remarksOfAll owner second level members := by
  induction members generalizing level with
  | nil => rfl
  | cons member rest ih =>
      obtain ⟨avoidsFirst, avoidsRest⟩ := List.forall_mem_cons.mp avoids
      rw [remarksOfAll, remarksOfAll, remarks_of_avoids same owner avoidsFirst (.refl word level),
        introduction_of_avoids same owner avoidsFirst, ih avoidsRest]

end Member

/-! ### Constructors -/

namespace ConstructorParameter

variable (same : first.SameApart word second) (owner : ClassDescriptor)

include same

theorem denote_of_avoids {parameter : ConstructorParameter}
    (avoids : (Node.constructorParameter parameter).Avoids word) :
    parameter.type.denote first = parameter.type.denote second :=
  TypeRef.denote_of_avoids same _ (avoids.child (by simp))

theorem introduction_of_avoids {parameter : ConstructorParameter}
    (avoids : (Node.constructorParameter parameter).Avoids word) (index : Nat) :
    parameter.introduction owner first index = parameter.introduction owner second index := by
  rw [introduction, introduction, describe, describe, denote_of_avoids same avoids]

theorem property_of_avoids {parameter : ConstructorParameter}
    (avoids : (Node.constructorParameter parameter).Avoids word) :
    parameter.property owner first = parameter.property owner second := by
  simp only [property, describeProperty, denote_of_avoids same avoids]

theorem remarks_of_avoids {parameter : ConstructorParameter}
    (avoids : (Node.constructorParameter parameter).Avoids word) (index : Nat)
    (constructor members : List (Symbol Descriptor)) :
    parameter.remarks owner first index constructor members =
      parameter.remarks owner second index constructor members := by
  rw [remarks, remarks, declared, declared, property_of_avoids same owner avoids,
    introduction_of_avoids same owner avoids,
    TypeRef.remarks_of_avoids same _ (avoids.child (by simp))]

theorem describeAll_of_avoids {parameters : List ConstructorParameter}
    (avoids : ∀ parameter ∈ parameters, (Node.constructorParameter parameter).Avoids word)
    (index : Nat) : describeAll first index parameters = describeAll second index parameters := by
  induction parameters generalizing index with
  | nil => rfl
  | cons parameter rest ih =>
      obtain ⟨avoidsFirst, avoidsRest⟩ := List.forall_mem_cons.mp avoids
      rw [describeAll, describeAll, describe, describe, denote_of_avoids same avoidsFirst,
        ih avoidsRest]

theorem introductions_of_avoids {parameters : List ConstructorParameter}
    (avoids : ∀ parameter ∈ parameters, (Node.constructorParameter parameter).Avoids word)
    (index : Nat) :
    introductions owner first index parameters = introductions owner second index parameters := by
  induction parameters generalizing index with
  | nil => rfl
  | cons parameter rest ih =>
      obtain ⟨avoidsFirst, avoidsRest⟩ := List.forall_mem_cons.mp avoids
      rw [introductions, introductions, introduction_of_avoids same owner avoidsFirst,
        ih avoidsRest]

theorem properties_of_avoids {parameters : List ConstructorParameter}
    (avoids : ∀ parameter ∈ parameters, (Node.constructorParameter parameter).Avoids word) :
    properties owner first parameters = properties owner second parameters :=
  List.flatMap_congr fun parameter isParameter => by
    rw [property_of_avoids same owner (avoids parameter isParameter)]

theorem remarksOfAll_of_avoids {parameters : List ConstructorParameter}
    (avoids : ∀ parameter ∈ parameters, (Node.constructorParameter parameter).Avoids word)
    (index : Nat) (constructor members : List (Symbol Descriptor)) :
    remarksOfAll owner first constructor members index parameters =
      remarksOfAll owner second constructor members index parameters := by
  induction parameters generalizing index constructor members with
  | nil => rfl
  | cons parameter rest ih =>
      obtain ⟨avoidsFirst, avoidsRest⟩ := List.forall_mem_cons.mp avoids
      rw [remarksOfAll, remarksOfAll, remarks_of_avoids same owner avoidsFirst,
        introduction_of_avoids same owner avoidsFirst, property_of_avoids same owner avoidsFirst,
        ih avoidsRest]

end ConstructorParameter

/-! ### Classes -/

namespace Class

theorem sameApart_inner (same : first.SameApart word second) (declaration : Tree.Class) :
    (declaration.inner first).SameApart word (declaration.inner second) :=
  same.inside (.refl word _)

variable {declaration : Tree.Class} (avoids : (Node.class declaration).Avoids word)

include avoids

theorem avoids_constructorParameters :
    ∀ parameter ∈ declaration.constructorParameters,
      (Node.constructorParameter parameter).Avoids word :=
  fun _ isParameter => avoids.child (by simp [isParameter])

theorem avoids_members : ∀ member ∈ declaration.members, member.node.Avoids word :=
  fun member isMember =>
    avoids.child (by simpa using .inr (.inr ⟨member, isMember, rfl⟩))

variable (same : first.SameApart word second)

include same

theorem constructorLevel_of_avoids :
    declaration.constructorLevel first = declaration.constructorLevel second := by
  rw [constructorLevel, constructorLevel, ConstructorParameter.introductions_of_avoids
    (sameApart_inner same declaration) _ (avoids_constructorParameters avoids)]

theorem properties_of_avoids : declaration.properties first = declaration.properties second :=
  ConstructorParameter.properties_of_avoids (sameApart_inner same declaration) _
    (avoids_constructorParameters avoids)

theorem memberIntroductions_of_avoids :
    declaration.memberIntroductions first = declaration.memberIntroductions second := by
  have members : declaration.members.map
      (Member.introduction (some declaration.describe) (declaration.inner first)) =
        declaration.members.map
          (Member.introduction (some declaration.describe) (declaration.inner second)) :=
    List.map_congr_left fun member isMember =>
      Member.introduction_of_avoids (sameApart_inner same declaration) _
        (avoids_members avoids member isMember)
  rw [memberIntroductions, memberIntroductions, properties_of_avoids avoids same, members]

theorem contentRemarks_of_avoids :
    declaration.contentRemarks first = declaration.contentRemarks second := by
  have sameInner := sameApart_inner same declaration
  rw [contentRemarks, contentRemarks, properties_of_avoids avoids same,
    ConstructorParameter.remarksOfAll_of_avoids sameInner _ (avoids_constructorParameters avoids),
    Member.remarksOfAll_of_avoids sameInner _ (avoids_members avoids)]

theorem entry_of_avoids : declaration.entry first = declaration.entry second := by
  have sameInner := sameApart_inner same declaration
  rw [entry, entry, memberIntroductions_of_avoids avoids same,
    ConstructorParameter.describeAll_of_avoids sameInner (avoids_constructorParameters avoids)]

theorem levels_of_avoids {member : Member} (isMember : member ∈ declaration.members) :
    declaration.levels first member = declaration.levels second member := by
  rw [levels, levels, memberIntroductions_of_avoids avoids same,
    constructorLevel_of_avoids avoids same,
    Member.levels_of_avoids (sameApart_inner same declaration) _
      (avoids_members avoids member isMember)]

end Class

/-! ### Files -/

namespace TopLevel

variable (same : first.SameApart word second)

include same

theorem symbols_of_avoids {declared : TopLevel} (avoids : declared.node.Avoids word) :
    declared.symbols first = declared.symbols second := by
  cases declared with
  | «class» declaration => rfl
  | member declaration =>
      rw [symbols, symbols, Member.introduction_of_avoids same none avoids]

theorem contentRemarks_of_avoids {contents : List TopLevel}
    (avoids : ∀ declared ∈ contents, declared.node.Avoids word)
    (sameLevel : Gloss.SameApart word level others) :
    contentRemarks first level contents = contentRemarks second others contents := by
  induction contents generalizing level others with
  | nil => rfl
  | cons declared rest ih =>
      obtain ⟨avoidsFirst, avoidsRest⟩ := List.forall_mem_cons.mp avoids
      cases declared with
      | «class» declaration =>
          rw [contentRemarks, contentRemarks, Class.contentRemarks_of_avoids avoidsFirst same,
            ih avoidsRest sameLevel]
      | member declaration =>
          rw [contentRemarks, contentRemarks,
            Member.remarks_of_avoids same none avoidsFirst sameLevel,
            Member.introduction_of_avoids same none avoidsFirst,
            ih avoidsRest (sameLevel.append (.refl word _))]

/-- The members are at the same places. -/
theorem sites_of_avoids {contents : List TopLevel}
    (avoids : ∀ declared ∈ contents, declared.node.Avoids word) :
    List.Forall₂ (Site.SameApart word) (contents.flatMap (sites first))
      (contents.flatMap (sites second)) := by
  induction contents with
  | nil => exact .nil
  | cons declared rest ih =>
      obtain ⟨avoidsFirst, avoidsRest⟩ := List.forall_mem_cons.mp avoids
      refine List.rel_append ?_ (ih avoidsRest)
      cases declared with
      | member declaration =>
          exact .cons ⟨rfl, rfl, same, Member.levels_of_avoids same none avoidsFirst []⟩ .nil
      | «class» declaration =>
          rw [sites, sites, List.forall₂_map_left_iff, List.forall₂_map_right_iff]
          exact List.forall₂_same.mpr fun member isMember =>
            ⟨rfl, rfl, Class.sameApart_inner same declaration,
              Class.levels_of_avoids avoidsFirst same isMember⟩

end TopLevel

end Tree

end Gloss
