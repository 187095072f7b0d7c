import Gloss.Proofs.Confinement.Heads

/-!
# Declarations are described

Where everything about the heads of a file is written down and nothing is reported, classes,
functions and properties are described by what their heads say.  A member sees its own type
parameters and those of its class, and everything that it sees is described where these are in
scope.
-/

namespace Gloss

open Gloss.Tree ResolutionState

/-- The type parameters of a class. -/
def Tree.Class.parameters (declaration : Tree.Class) : List TypeConstructor :=
  declaration.describe.typeParameters.map TypeParameterDescriptor.constructor

namespace Site

variable (site : Site)

/-- The type parameters of the class around a member. -/
def outerParameters : List TypeConstructor :=
  (site.owner.map fun owner => owner.typeParameters.map TypeParameterDescriptor.constructor).getD []

/-- The type parameters of a member itself. -/
def typeParameters : List TypeParameterDescriptor :=
  match site.member with
  | .function declared => declared.typeParameters.map (TypeParameter.describe none)
  | .property _ => []

/-- The type parameters in scope in a member. -/
def parameters : List TypeConstructor :=
  site.typeParameters.map TypeParameterDescriptor.constructor ++ site.outerParameters

end Site

namespace ResolutionState

variable {contents : List TopLevel} {base : ResolutionState}

/-- There is no class that goes by a type parameter. -/
theorem Laid.class?_typeParameter (laid : base.Laid contents) (container : Option String)
    (parameter : TypeParameter) :
    base.class? (parameter.describe container).constructor = none := by
  refine laid.noClass _ fun declaration _ same => ?_
  have origins := Origin.declared.inj (congrArg TypeConstructor.origin same)
  cases congrArg NodeRef.kind origins

theorem Laid.class?_describe (laid : base.Laid contents) {declaration : Tree.Class}
    (isClass : declaration ∈ TopLevel.classes contents) :
    base.class? declaration.describe.constructor =
      some (declaration.entry (TopLevel.classifiersOf contents)) :=
  laid.entries declaration isClass

end ResolutionState

namespace Realm

variable {known : InferredTypes} {contents : List TopLevel} {declaration : Tree.Class}

section Laid

variable (realm : Realm) (laid : realm.base.Laid contents)

include laid

theorem introduces_typeParameters (parameters : List TypeConstructor) {container : Option String}
    {typeParameters : List TypeParameter}
    (inScope : (typeParameters.map (TypeParameter.describe container)).map
      TypeParameterDescriptor.constructor ⊆ parameters) :
    ∀ symbol ∈ (typeParameters.map (TypeParameter.introduction container)).map Introduction.symbol,
      (realm.within parameters).Introduces known symbol := by
  refine List.forall_mem_map.mpr (List.forall_mem_map.mpr fun parameter isParameter => ?_)
  refine ⟨⟨laid.class?_typeParameter container parameter, inScope ?_⟩, fun _ same => ?_⟩
  · exact List.mem_map_of_mem (List.mem_map_of_mem isParameter)
  · cases same

theorem introduces_class (isClass : declaration ∈ TopLevel.classes contents) :
    realm.Introduces known declaration.introduction.symbol := by
  refine ⟨⟨rfl, List.forall_mem_map.mpr fun parameter _ => ?_, fun entry found => ?_⟩,
    fun _ _ => rfl⟩
  · exact laid.class?_typeParameter _ parameter
  · exact Option.some.inj ((laid.class?_describe isClass).symm.trans found) ▸ rfl

theorem introduces_classSymbols :
    ∀ symbol ∈ TopLevel.classSymbols contents, realm.Introduces known symbol :=
  List.forall_mem_map.mpr fun _ isClass => realm.introduces_class laid isClass

/-- The names of types in a file mean the classes of the file and of the library. -/
theorem classifies_file : realm.Classifies known (TopLevel.classifiersOf contents) := by
  have nothing : realm.Classifies known fun _ => none := fun _ _ found => by cases found
  exact (nothing.inside (realm.introduces_librarySymbols known)).inside
    (realm.introduces_classSymbols laid)

/-- In a class they may mean its type parameters too. -/
theorem classifies_inner (declaration : Tree.Class) :
    (realm.within declaration.parameters).Classifies known
      (declaration.inner (TopLevel.classifiersOf contents)) :=
  ((realm.within declaration.parameters).classifies_file laid).inside
    (realm.introduces_typeParameters laid declaration.parameters (List.Subset.refl _))

theorem classifies_site {site : Site} (isSite : site ∈ TopLevel.sitesOf contents) :
    (realm.within site.outerParameters).Classifies known site.classifiers := by
  obtain ⟨declared, isDeclared, isSite⟩ := List.mem_flatMap.mp isSite
  cases declared with
  | member declaration =>
      cases List.mem_singleton.mp isSite
      exact (realm.within _).classifies_file laid
  | «class» declaration =>
      obtain ⟨member, -, rfl⟩ := List.mem_map.mp isSite
      exact realm.classifies_inner laid declaration

end Laid

end Realm

/-! ### What heads write down -/

namespace Tree

variable {classifiers : Classifiers} {level : List (Symbol Descriptor)}

theorem subset_parameterRemarks {function : FunctionDescriptor}
    {described : List (ValueParameter × ParameterDescriptor)}
    {parameter : ValueParameter × ParameterDescriptor} (isParameter : parameter ∈ described) :
    parameter.1.type.remarks classifiers ⊆
      parameterRemarks classifiers function level described := by
  induction described generalizing level with
  | nil => cases isParameter
  | cons first rest ih =>
      rcases List.mem_cons.mp isParameter with rfl | isLater
      · exact List.subset_append_left _ _
      · exact fun _ isRemark => List.mem_append_right _ (List.mem_append_right _
          (List.mem_cons_of_mem _ (ih isLater isRemark)))

theorem ConstructorParameter.subset_remarksOfAll {owner : ClassDescriptor}
    {constructor members : List (Symbol Descriptor)} {index : Nat}
    {parameters : List ConstructorParameter} {parameter : ConstructorParameter}
    (isParameter : parameter ∈ parameters) :
    parameter.type.remarks classifiers ⊆
      remarksOfAll owner classifiers constructor members index parameters := by
  induction parameters generalizing constructor members index with
  | nil => cases isParameter
  | cons first rest ih =>
      rcases List.mem_cons.mp isParameter with rfl | isLater
      · exact List.Subset.trans (List.subset_append_left _ _) (List.subset_append_left _ _)
      · exact List.Subset.trans (ih isLater) (List.subset_append_right _ _)

theorem TopLevel.subset_contentRemarks {contents : List TopLevel} {declaration : Tree.Class}
    (isClass : .class declaration ∈ contents) :
    declaration.contentRemarks classifiers ⊆ contentRemarks classifiers level contents := by
  induction contents generalizing level with
  | nil => cases isClass
  | cons first rest ih =>
      rcases List.mem_cons.mp isClass with rfl | isLater
      · exact List.subset_append_left _ _
      · cases first with
        | «class» => exact List.Subset.trans (ih isLater) (List.subset_append_right _ _)
        | member => exact List.Subset.trans (ih isLater) (List.subset_append_right _ _)

/-- The types of constructor parameters are written down for the file. -/
theorem Class.subset_remarks {contents : List TopLevel} {declaration : Tree.Class}
    (isClass : declaration ∈ TopLevel.classes contents) {parameter : ConstructorParameter}
    (isParameter : parameter ∈ declaration.constructorParameters) :
    parameter.type.remarks (declaration.inner (TopLevel.classifiersOf contents)) ⊆
      TopLevel.remarks contents := by
  exact fun _ isRemark => List.mem_append_right _ (TopLevel.subset_contentRemarks
    (TopLevel.mem_classes.mp isClass) (List.mem_append_left _
      (ConstructorParameter.subset_remarksOfAll isParameter isRemark)))

namespace ConstructorParameter

variable {parameters : List ConstructorParameter} {index : Nat}

theorem exists_of_mem_describeAll {described : ParameterDescriptor}
    (isDescribed : described ∈ describeAll classifiers index parameters) :
    ∃ parameter ∈ parameters, ∃ index, described = parameter.describe classifiers index := by
  induction parameters generalizing index with
  | nil => cases isDescribed
  | cons first rest ih =>
      rcases List.mem_cons.mp isDescribed with rfl | isLater
      · exact ⟨first, List.mem_cons_self, index, rfl⟩
      · obtain ⟨parameter, isParameter, same⟩ := ih isLater
        exact ⟨parameter, List.mem_cons_of_mem _ isParameter, same⟩

theorem exists_of_mem_introductions {owner : ClassDescriptor} {introduction : Introduction}
    (isIntroduction : introduction ∈ introductions owner classifiers index parameters) :
    ∃ parameter ∈ parameters, ∃ index,
      introduction = parameter.introduction owner classifiers index := by
  induction parameters generalizing index with
  | nil => cases isIntroduction
  | cons first rest ih =>
      rcases List.mem_cons.mp isIntroduction with rfl | isLater
      · exact ⟨first, List.mem_cons_self, index, rfl⟩
      · obtain ⟨parameter, isParameter, same⟩ := ih isLater
        exact ⟨parameter, List.mem_cons_of_mem _ isParameter, same⟩

end ConstructorParameter

end Tree

/-! ### What is known of declarations -/

namespace Realm

variable {realm : Realm} {known : InferredTypes} {classifiers : Classifiers}
  {written : Remark → Prop}

theorem classifies_function (realm : Realm) {contents : List TopLevel}
    (laid : realm.base.Laid contents) (classifies : realm.Classifies known classifiers)
    (declared : Function) :
    (realm.declaring (declared.typeParameters.map (TypeParameter.describe none))).Classifies known
      (declared.inner classifiers) := by
  refine (classifies.mono (List.subset_append_right _ _)).inside ?_
  exact realm.introduces_typeParameters laid _ (List.subset_append_left _ _)

/-- A function is described by its head and what is known of its type. -/
theorem describes_function_of_head (classifies : realm.Classifies known classifiers)
    {contents : List TopLevel} (laid : realm.base.Laid contents)
    (noProblem : ∀ found, ¬ written (.problem found)) {declared : Function}
    {owner : Option ClassDescriptor}
    (isWritten : ∀ remark ∈ declared.headRemarks owner classifiers, written remark)
    (settled : ∀ type, known.get? (Node.function declared).ref = some type →
      (realm.declaring (declared.typeParameters.map (TypeParameter.describe none))).Holds type) :
    realm.Describes known (.function (declared.describe owner classifiers)) := by
  have classifiesInner := realm.classifies_function laid classifies declared
  obtain ⟨-, ofTypes⟩ := List.forall_mem_append.mp isWritten
  obtain ⟨ofParameters, ofResult⟩ := List.forall_mem_append.mp ofTypes
  refine ⟨fun described isDescribed => ?_, fun type isKnown => ?_⟩
  · obtain ⟨index, isInside, rfl⟩ := List.mem_mapIdx.mp isDescribed
    have isParameter := List.getElem_mem isInside
    generalize declared.parameters[index] = parameter at isParameter ⊢
    rw [← declared.map_fst_described owner classifiers] at isParameter
    obtain ⟨pair, isPair, rfl⟩ := List.mem_map.mp isParameter
    refine holds_denote noProblem classifiesInner pair.1.type fun remark isRemark => ?_
    exact ofParameters remark (subset_parameterRemarks isPair isRemark)
  · rw [FunctionDescriptor.returnType?, Function.describe, Resolver.describeReturnType] at isKnown
    cases returns : declared.returnType with
    | some result =>
        rw [returns] at isKnown ofResult
        exact Option.some.inj isKnown ▸ holds_denote noProblem classifiesInner result ofResult
    | none =>
        rw [returns] at isKnown
        cases body : declared.body with
        | block steps =>
            rw [body] at isKnown
            exact Option.some.inj isKnown ▸ holds_unit _
        | expression value =>
            rw [body] at isKnown
            exact settled type isKnown

/-- A property is described by its head and what is known of its type. -/
theorem describes_property_of_head (classifies : realm.Classifies known classifiers)
    (noProblem : ∀ found, ¬ written (.problem found)) {declared : Property}
    {owner : Option ClassDescriptor}
    (isWritten : ∀ remark ∈ declared.headRemarks classifiers, written remark)
    (settled : ∀ type, known.get? (Node.property declared).ref = some type → realm.Holds type) :
    realm.Describes known (.variable (.property (declared.describe owner classifiers))) := by
  obtain ⟨ofType, -⟩ := List.forall_mem_append.mp isWritten
  intro type isKnown
  rw [VariableDescriptor.type?, Property.describe, Property.describeType] at isKnown
  cases hasType : declared.type with
  | some ofProperty =>
      rw [hasType] at isKnown ofType
      exact Option.some.inj isKnown ▸ holds_denote noProblem classifies ofProperty ofType
  | none =>
      rw [hasType] at isKnown
      cases initialized : declared.initializer with
      | none =>
          rw [initialized] at isKnown
          exact Option.some.inj isKnown ▸ holds_error _
      | some value =>
          rw [initialized] at isKnown
          exact settled type isKnown

end Realm

/-- An account of a file: everything about the heads of its declarations is written, and the
types that are known of its members are held in their places. -/
structure Account.Tracks (account : Account) (contents : List TopLevel) (known : InferredTypes) :
    Prop where
  laid : account.base.Laid contents
  heads : ∀ remark ∈ TopLevel.remarks contents, account.written remark
  settled : ∀ site ∈ TopLevel.sitesOf contents, ∀ type,
    known.get? site.member.node.ref = some type → (account.within site.parameters).Holds type

namespace Account.Tracks

variable {account : Account} {contents : List TopLevel} {known : InferredTypes} {site : Site}
  {declaration : Tree.Class} (tracks : account.Tracks contents known)

include tracks

theorem written_headRemarks (isSite : site ∈ TopLevel.sitesOf contents) :
    ∀ remark ∈ site.member.headRemarks site.owner site.classifiers, account.written remark := by
  obtain ⟨around, included⟩ := TopLevel.exists_subset_remarks isSite
  exact fun remark isRemark => tracks.heads remark (included (List.mem_append_left _ isRemark))

/-- A member is described by its head and what is known of its type. -/
theorem introduces_site (isSite : site ∈ TopLevel.sitesOf contents) :
    (account.within site.outerParameters).Introduces known site.introduction.symbol := by
  obtain ⟨member, owner, classifiers, levels⟩ := site
  have classifies : (account.within _).Classifies known _ :=
    account.toRealm.classifies_site tracks.laid isSite
  have written := tracks.written_headRemarks isSite
  have settled := tracks.settled _ isSite
  cases member with
  | function declared =>
      exact ⟨Realm.describes_function_of_head classifies tracks.laid account.noProblem written
        settled, fun _ same => by cases same⟩
  | property declared =>
      exact ⟨Realm.describes_property_of_head classifies account.noProblem written settled,
        fun _ same => by cases same⟩

/-! ### Classes -/

/-- The parameters of a constructor have held types. -/
theorem holds_constructorParameter (isClass : declaration ∈ TopLevel.classes contents)
    {parameter : ConstructorParameter}
    (isParameter : parameter ∈ declaration.constructorParameters) :
    (account.within declaration.parameters).Holds
      (parameter.type.denote (declaration.inner (TopLevel.classifiersOf contents))) := by
  have classifies : (account.within declaration.parameters).Classifies known _ :=
    account.toRealm.classifies_inner tracks.laid declaration
  refine Realm.holds_denote account.noProblem classifies _ fun remark isRemark => ?_
  exact tracks.heads remark (Class.subset_remarks isClass isParameter isRemark)

theorem introduces_constructorLevel (isClass : declaration ∈ TopLevel.classes contents) :
    ∀ symbol ∈ declaration.constructorLevel (TopLevel.classifiersOf contents),
      (account.within declaration.parameters).Introduces known symbol := by
  refine List.forall_mem_map.mpr fun introduction isIntroduction => ?_
  obtain ⟨parameter, isParameter, index, rfl⟩ :=
    ConstructorParameter.exists_of_mem_introductions isIntroduction
  refine ⟨fun type isKnown => ?_, fun _ same => by cases same⟩
  exact Option.some.inj isKnown ▸ tracks.holds_constructorParameter isClass isParameter

theorem introduces_memberIntroductions (isClass : declaration ∈ TopLevel.classes contents) :
    ∀ introduction ∈ declaration.memberIntroductions (TopLevel.classifiersOf contents),
      (account.within declaration.parameters).Introduces known introduction.symbol := by
  refine List.forall_mem_append.mpr ⟨fun introduction isProperty => ?_,
    List.forall_mem_map.mpr fun member isMember => ?_⟩
  · obtain ⟨parameter, isParameter, declared⟩ := List.mem_flatMap.mp isProperty
    obtain ⟨binding, -, rfl⟩ := Option.map_eq_some_iff.mp (Option.mem_toList.mp declared)
    refine ⟨fun type isKnown => ?_, fun _ same => by cases same⟩
    exact Option.some.inj isKnown ▸ tracks.holds_constructorParameter isClass isParameter
  · have isPlace : _ ∈ TopLevel.sites (TopLevel.classifiersOf contents) (.class declaration) :=
      List.mem_map_of_mem isMember
    exact tracks.introduces_site
      (List.mem_flatMap.mpr ⟨_, TopLevel.mem_classes.mp isClass, isPlace⟩)

theorem provides_entry (isClass : declaration ∈ TopLevel.classes contents) :
    account.Provides known (declaration.entry (TopLevel.classifiersOf contents)) where
  members := List.forall_mem_map.mpr fun introduction isMember =>
    (tracks.introduces_memberIntroductions isClass introduction isMember).describes
  ordinary := by
    refine List.forall_mem_map.mpr (List.forall_mem_append.mpr ⟨fun introduction isProperty => ?_,
      List.forall_mem_map.mpr fun member _ => ?_⟩)
    · obtain ⟨parameter, -, declared⟩ := List.mem_flatMap.mp isProperty
      obtain ⟨binding, -, rfl⟩ := Option.map_eq_some_iff.mp (Option.mem_toList.mp declared)
      exact .inr rfl
    · cases member with
      | function declared => exact .inl rfl
      | property declared => exact .inr rfl
  parameters := by
    intro described isDescribed
    obtain ⟨parameter, isParameter, index, rfl⟩ :=
      ConstructorParameter.exists_of_mem_describeAll isDescribed
    exact tracks.holds_constructorParameter isClass isParameter

/-- All classes, wherever they come from, have held members. -/
theorem provides (constructor : TypeConstructor) (entry : ClassEntry)
    (found : account.base.class? constructor = some entry) : account.Provides known entry := by
  unfold class? at found
  split at found
  · cases found
    exact ⟨List.forall_mem_nil _, List.forall_mem_nil _, List.forall_mem_nil _⟩
  · exact account.toRealm.provides_library known entry (List.mem_of_find?_eq_some found)
  · rcases tracks.laid.get?_classes constructor with ⟨declaration, isClass, -, isEntry⟩ | ⟨-, none⟩
    · rw [isEntry] at found
      cases found
      exact tracks.provides_entry isClass
    · rw [none] at found
      cases found
  · cases found

/-! ### Levels -/

theorem introduces_memberLevels (isSite : site ∈ TopLevel.sitesOf contents)
    {initializer : List (List (Symbol Descriptor))} (introduces : ∀ level ∈ initializer,
      ∀ symbol ∈ level, (account.within site.outerParameters).Introduces known symbol) :
    ∀ level ∈ site.member.levels site.owner site.classifiers initializer, ∀ symbol ∈ level,
      (account.within site.parameters).Introduces known symbol := by
  have introduced := tracks.introduces_site isSite
  obtain ⟨member, owner, classifiers, levels⟩ := site
  cases member with
  | function declared =>
      refine List.forall_mem_singleton.mpr (List.forall_mem_append.mpr ⟨?_, ?_⟩)
      · exact account.toRealm.introduces_typeParameters tracks.laid _
          (List.subset_append_left _ _)
      · refine List.forall_mem_map.mpr (List.forall_mem_map.mpr fun parameter isParameter => ?_)
        refine ⟨fun type isKnown => ?_, fun _ same => by cases same⟩
        exact Option.some.inj isKnown ▸
          introduced.describes.1 parameter.2 (List.of_mem_zip isParameter).2
  | property declared =>
      exact fun level isLevel symbol isSymbol =>
        (introduces level isLevel symbol isSymbol).mono (List.subset_append_right _ _)

theorem introduces_siteLevels (isSite : site ∈ TopLevel.sitesOf contents) :
    ∀ level ∈ site.levels, ∀ symbol ∈ level,
      (account.within site.parameters).Introduces known symbol := by
  have inFile := isSite
  obtain ⟨declared, isDeclared, isSite⟩ := List.mem_flatMap.mp isSite
  cases declared with
  | member declaration =>
      cases List.mem_singleton.mp isSite
      exact tracks.introduces_memberLevels inFile (List.forall_mem_nil _)
  | «class» declaration =>
      obtain ⟨member, -, rfl⟩ := List.mem_map.mp isSite
      have isClass := TopLevel.mem_classes.mpr isDeclared
      refine List.forall_mem_append.mpr ⟨?_, List.forall_mem_cons.mpr ⟨?_,
        List.forall_mem_singleton.mpr ?_⟩⟩
      · exact tracks.introduces_memberLevels inFile
          (List.forall_mem_singleton.mpr (tracks.introduces_constructorLevel isClass))
      · refine List.forall_mem_map.mpr fun introduction isMember => ?_
        exact (tracks.introduces_memberIntroductions isClass introduction isMember).mono
          (List.subset_append_right _ _)
      · exact account.toRealm.introduces_typeParameters tracks.laid _
          (List.subset_append_right _ _)

/-- Everything that can be seen from a member is described. -/
theorem introduces_levels (isSite : site ∈ TopLevel.sitesOf contents) :
    ∀ level ∈ site.levels ++ [TopLevel.level contents, librarySymbols], ∀ symbol ∈ level,
      (account.within site.parameters).Introduces known symbol := by
  refine List.forall_mem_append.mpr ⟨tracks.introduces_siteLevels isSite,
    List.forall_mem_cons.mpr ⟨List.forall_mem_append.mpr ⟨?_, fun symbol isMember => ?_⟩,
      List.forall_mem_singleton.mpr ?_⟩⟩
  · exact (account.within _).introduces_classSymbols tracks.laid
  · obtain ⟨declared, isDeclared, isSymbol⟩ := List.mem_flatMap.mp isMember
    cases declared with
    | «class» declaration => cases isSymbol
    | member declaration =>
        cases List.mem_singleton.mp isSymbol
        have isPlace : _ ∈ TopLevel.sites (TopLevel.classifiersOf contents) (.member declaration) :=
          List.mem_singleton_self _
        have introduced := tracks.introduces_site (List.mem_flatMap.mpr ⟨_, isDeclared, isPlace⟩)
        exact introduced.mono (List.nil_subset _)
  · exact (account.within _).introduces_librarySymbols known

end Account.Tracks

end Gloss
