import Gloss.Proofs.Order.Checking
import Gloss.Proofs.Order.Reordering

/-!
# What members see

From its place a member sees some levels of its own, the symbols of the file and those
of the library.  When the declarations of a file stand in another order, it sees the
same, up to the order in which the symbols of the file are listed.
-/

namespace Gloss

open Gloss.Tree ResolutionState

namespace Site

/-- What the member is declared as. -/
def introduction (site : Site) : Introduction :=
  site.member.introduction site.owner site.classifiers

/-- A function that is inferred for itself: its parameters are seen from its own body. -/
def IsOwn (site : Site) (own : NodeRef) : Prop :=
  ∀ function, site.member = .function function →
    (function.describe site.owner site.classifiers).returnType = none →
      (Node.function function).ref = own

theorem isOwn_ref (site : Site) : site.IsOwn site.member.node.ref := by
  intro function isFunction _
  rw [isFunction]
  rfl

end Site

/-- A level may be exchanged between levels that stay as they are. -/
theorem Interchangeable.around {first second : List (Symbol Descriptor)}
    (interchangeable : Interchangeable first second) (inner : List (List (Symbol Descriptor)))
    (outer : List (Symbol Descriptor)) :
    List.Forall₂ Interchangeable (inner ++ [first, outer]) (inner ++ [second, outer]) :=
  List.rel_append (List.forall₂_same.mpr fun level _ => .refl level)
    (.cons interchangeable (.cons (.refl outer) .nil))

/-! ### What the symbols stand for -/

/-- How a symbol comes about that can be seen from the place of a member. -/
inductive Visible (contents : List TopLevel) (site : Site) : Symbol Descriptor → Prop
  | member {other : Site} (isOther : other ∈ TopLevel.sitesOf contents) :
      Visible contents site other.introduction.symbol
  | property {owner : ClassDescriptor} {classifiers : Classifiers}
      {parameter : ConstructorParameter} {introduction : Introduction}
      (declared : parameter.property owner classifiers = some introduction) :
      Visible contents site introduction.symbol
  | constructorParameter (owner : ClassDescriptor) (classifiers : Classifiers) (index : Nat)
      (parameter : ConstructorParameter) :
      Visible contents site (parameter.introduction owner classifiers index).symbol
  | typeParameter (container : Option String) (parameter : TypeParameter) :
      Visible contents site (parameter.introduction container).symbol
  | valueParameter {function : Function} (isOwn : site.member = .function function)
      (parameter : ValueParameter × ParameterDescriptor) :
      Visible contents site
        (parameterIntroduction (function.describe site.owner site.classifiers) parameter).symbol
  | «class» (declaration : Tree.Class) : Visible contents site declaration.introduction.symbol
  | library {symbol : Symbol Descriptor} (provided : symbol ∈ librarySymbols) :
      Visible contents site symbol

namespace Visible

variable {contents : List TopLevel} {site : Site} {symbol : Symbol Descriptor}

theorem of_mem_introductions {owner : ClassDescriptor} {classifiers : Classifiers}
    {parameters : List ConstructorParameter} {index : Nat} {introduction : Introduction}
    (isParameter : introduction ∈
      ConstructorParameter.introductions owner classifiers index parameters) :
    Visible contents site introduction.symbol := by
  induction parameters generalizing index with
  | nil => cases isParameter
  | cons first rest ih =>
      rcases List.mem_cons.mp isParameter with rfl | isLater
      · exact .constructorParameter owner classifiers index first
      · exact ih isLater

theorem of_mem_memberIntroductions {declaration : Tree.Class}
    (isClass : declaration ∈ TopLevel.classes contents) {introduction : Introduction}
    (isMember : introduction ∈
      declaration.memberIntroductions (TopLevel.classifiersOf contents)) :
    Visible contents site introduction.symbol := by
  rcases List.mem_append.mp isMember with isProperty | isMember
  · obtain ⟨parameter, -, declared⟩ := List.mem_flatMap.mp isProperty
    exact .property (Option.mem_toList.mp declared)
  · obtain ⟨member, inClass, rfl⟩ := List.mem_map.mp isMember
    have isPlace : _ ∈ TopLevel.sites (TopLevel.classifiersOf contents) (.class declaration) :=
      List.mem_map_of_mem inClass
    exact .member (List.mem_flatMap.mpr ⟨_, TopLevel.mem_classes.mp isClass, isPlace⟩)

/-- The parameters of a function are seen from its own place only. -/
theorem of_mem_levels (site : Site) {initializer : List (List (Symbol Descriptor))}
    (visible : ∀ level ∈ initializer, ∀ symbol ∈ level, Visible contents site symbol) :
    ∀ level ∈ site.member.levels site.owner site.classifiers initializer, ∀ symbol ∈ level,
      Visible contents site symbol := by
  cases isMember : site.member with
  | function declared =>
      refine List.forall_mem_singleton.mpr (List.forall_mem_append.mpr ⟨?_, ?_⟩)
      · refine List.forall_mem_map.mpr (List.forall_mem_map.mpr fun parameter _ => ?_)
        exact .typeParameter none parameter
      · refine List.forall_mem_map.mpr (List.forall_mem_map.mpr fun parameter _ => ?_)
        exact .valueParameter isMember parameter
  | property declared => exact visible

/-- From the place of a member. -/
theorem of_mem_sites (isSite : site ∈ TopLevel.sitesOf contents) :
    ∀ level ∈ site.levels, ∀ symbol ∈ level, Visible contents site symbol := by
  obtain ⟨declared, isDeclared, isSite⟩ := List.mem_flatMap.mp isSite
  cases declared with
  | member declaration =>
      cases List.mem_singleton.mp isSite
      exact of_mem_levels ⟨declaration, none, _, _⟩ (List.forall_mem_nil _)
  | «class» declaration =>
      obtain ⟨member, -, rfl⟩ := List.mem_map.mp isSite
      refine List.forall_mem_append.mpr ⟨?_, ?_⟩
      · refine of_mem_levels ⟨member, some declaration.describe, _, _⟩
          (List.forall_mem_singleton.mpr (List.forall_mem_map.mpr fun introduction => ?_))
        exact of_mem_introductions
      · refine List.forall_mem_cons.mpr ⟨?_, List.forall_mem_singleton.mpr ?_⟩
        · refine List.forall_mem_map.mpr fun introduction => ?_
          exact of_mem_memberIntroductions (TopLevel.mem_classes.mpr isDeclared)
        · refine List.forall_mem_map.mpr (List.forall_mem_map.mpr fun parameter _ => ?_)
          exact .typeParameter _ parameter

theorem of_mem_fileLevel (inLevel : symbol ∈ TopLevel.level contents) :
    Visible contents site symbol := by
  rcases List.mem_append.mp inLevel with isClass | isMember
  · obtain ⟨declaration, -, rfl⟩ := List.mem_map.mp isClass
    exact .class declaration
  · obtain ⟨declared, isDeclared, isSymbol⟩ := List.mem_flatMap.mp isMember
    cases declared with
    | «class» declaration => cases isSymbol
    | member declaration =>
        cases List.mem_singleton.mp isSymbol
        have isPlace : _ ∈ TopLevel.sites (TopLevel.classifiersOf contents) (.member declaration) :=
          List.mem_singleton_self _
        exact .member (List.mem_flatMap.mpr ⟨_, isDeclared, isPlace⟩)

/-- All symbols that a member sees. -/
theorem of_mem (isSite : site ∈ TopLevel.sitesOf contents) :
    ∀ level ∈ site.levels ++ [TopLevel.level contents, librarySymbols], ∀ symbol ∈ level,
      Visible contents site symbol := by
  refine List.forall_mem_append.mpr ⟨of_mem_sites isSite, ?_⟩
  refine List.forall_mem_cons.mpr ⟨?_, List.forall_mem_singleton.mpr ?_⟩
  · exact fun symbol => of_mem_fileLevel
  · exact fun symbol => .library

/-- No parameters are seen but the own ones. -/
theorem owns {around : Surroundings} (isOwn : site.IsOwn around.own)
    (visible : Visible contents site symbol) : around.Owns symbol.descriptor := by
  cases visible with
  | @member other isOther =>
      obtain ⟨declared, owner, classifiers, levels⟩ := other
      cases declared <;> trivial
  | property declared =>
      obtain ⟨binding, -, rfl⟩ := Option.map_eq_some_iff.mp declared
      trivial
  | @valueParameter function isMember parameter =>
      intro isOpen node declared
      cases declared
      exact isOwn function isMember isOpen
  | library provided =>
      rcases List.mem_append.mp provided with isClass | isFunction
      · obtain ⟨entry, -, rfl⟩ := List.mem_map.mp isClass
        trivial
      · obtain ⟨declared, -, rfl⟩ := List.mem_map.mp isFunction
        trivial
  | constructorParameter | typeParameter | «class» => trivial

end Visible

namespace ResolutionState

variable {contents first second : List TopLevel} {base other : ResolutionState} {site : Site}
  {scope : Nat}

/-- What is seen from the place of a member. -/
def view (base : ResolutionState) (contents : List TopLevel) (site : Site) (own : NodeRef) :
    Surroundings :=
  base.seen (site.levels ++ [TopLevel.level contents, librarySymbols]) own

/-- What a class of the file has is what its declaration says. -/
theorem Laid.get?_classes (laid : base.Laid contents) (constructor : TypeConstructor) :
    (∃ declaration ∈ TopLevel.classes contents,
      declaration.describe.constructor = constructor ∧
        base.classes.get? constructor =
          some (declaration.entry (TopLevel.classifiersOf contents))) ∨
      (∀ declaration ∈ TopLevel.classes contents,
        declaration.describe.constructor ≠ constructor) ∧
        base.classes.get? constructor = none := by
  by_cases isClass : ∃ declaration ∈ TopLevel.classes contents,
      declaration.describe.constructor = constructor
  · obtain ⟨declaration, isDeclaration, rfl⟩ := isClass
    exact .inl ⟨declaration, isDeclaration, rfl, laid.entries declaration isDeclaration⟩
  · push Not at isClass
    exact .inr ⟨isClass, laid.noClass constructor isClass⟩

/-- A member of a class is declared in the class, or it comes from the library. -/
theorem Laid.declared_or_provided (laid : base.Laid contents) {constructor : TypeConstructor}
    {entry : ClassEntry} (found : base.class? constructor = some entry) {member : Descriptor}
    (isMember : member ∈ entry.members) :
    (∃ declaration ∈ TopLevel.classes contents, ∃ introduction ∈
      declaration.memberIntroductions (TopLevel.classifiersOf contents),
        introduction.symbol.descriptor = member) ∨
      ∃ provided ∈ Library.classes, member ∈ provided.members := by
  unfold class? at found
  split at found
  · cases found
    cases isMember
  · exact .inr ⟨entry, List.mem_of_find?_eq_some found, isMember⟩
  · rcases laid.get?_classes constructor with ⟨declaration, isClass, -, isEntry⟩ | ⟨-, none⟩
    · rw [isEntry] at found
      cases found
      exact .inl ⟨declaration, isClass, List.mem_map.mp isMember⟩
    · rw [none] at found
      cases found
  · cases found

/-- All that a member sees is owned, if its own type is the one that is inferred. -/
theorem Laid.owned_view (laid : base.Laid contents) (isSite : site ∈ TopLevel.sitesOf contents)
    {own : NodeRef} (isOwn : site.IsOwn own) : (base.view contents site own).Owned where
  levels level isLevel symbol isSymbol :=
    (Visible.of_mem isSite level isLevel symbol isSymbol).owns isOwn
  members _ _ found member isMember := by
    have library : ∀ entry ∈ Library.classes, ∀ member ∈ entry.members,
        Resolver.isFunction member = true ∨ (Resolver.asProperty? member).isSome := by
      decide
    rcases laid.declared_or_provided found isMember with
      ⟨_, isClass, introduction, isIntroduced, rfl⟩ | ⟨provided, isClass, isMember⟩
    · have visible : Visible contents site introduction.symbol :=
        .of_mem_memberIntroductions isClass isIntroduced
      exact visible.owns isOwn
    · have isPlain := library provided isClass member isMember
      cases member with
      | «variable» holder =>
          cases holder with
          | property declared => trivial
          | _ => simp [Resolver.isFunction, Resolver.asProperty?] at isPlain
      | _ => trivial

/-- From the scope of a member its view is seen. -/
theorem Laid.around_eq (laid : base.Laid contents)
    (reaches : base.Reaches scope fileScope site.levels) (own : NodeRef) :
    base.around scope own = base.view contents site own := by
  obtain ⟨-, -, numbers, chain, -, symbols⟩ := reaches
  have levels : (base.scopes.levels scope).map Scope.symbols =
      site.levels ++ [TopLevel.level contents, librarySymbols] := by
    rw [Scopes.map_symbols_levels, chain, List.map_append, symbols, laid.chain]
  rw [around, view, seen, levels]
  rfl

/-! ### Open types -/

/-- What is put off is the body of a member, in the scope of the member. -/
theorem Laid.exists_site (laid : base.Laid contents) {node : NodeRef} {deferred : Deferred}
    (found : base.deferred.get? node = some deferred) :
    ∃ site ∈ TopLevel.sitesOf contents, site.member.node.ref = node ∧
      site.member.openBody? = some deferred.body ∧
        base.Reaches deferred.scope fileScope site.levels := by
  by_cases isMember : ∃ site ∈ TopLevel.sitesOf contents, site.member.node.ref = node
  · obtain ⟨site, isSite, rfl⟩ := isMember
    obtain ⟨scope, -, reaches, put⟩ := laid.placed site isSite
    rw [found] at put
    obtain ⟨body, isOpen, same⟩ := Option.map_eq_some_iff.mp put.symm
    cases same
    exact ⟨site, isSite, rfl, isOpen, reaches⟩
  · push Not at isMember
    rw [laid.notDeferred node isMember] at found
    cases found

/-- What is put off sees what its member sees. -/
theorem Laid.postpones (laid : base.Laid contents) : base.Postpones where
  inside node deferred found := by
    obtain ⟨site, -, -, -, reaches⟩ := laid.exists_site found
    exact reaches.inside
  owned node deferred found := by
    obtain ⟨site, isSite, rfl, -, reaches⟩ := laid.exists_site found
    rw [laid.around_eq reaches]
    exact laid.owned_view isSite site.isOwn_ref

/-- The slots that are filled where the open type of a declaration is inferred. -/
def openFilled (base : ResolutionState) (node : NodeRef) : Slot → Multiset NodeRef :=
  Node.filledOf? ((base.deferred.get? node).map fun deferred => .expression deferred.body)

/-! ### Another order -/

/-- A file is declared in two states, its declarations in one order and another. -/
structure Reordered (first second : List TopLevel) (base other : ResolutionState) : Prop where
  perm : first.Perm second
  pairwise : (TopLevel.level first).Pairwise Symbol.Compatible
  laid : base.Laid first
  laidOther : other.Laid second

namespace Reordered

variable (reordered : Reordered first second base other)

include reordered

theorem symm : Reordered second first other base where
  perm := reordered.perm.symm
  pairwise := TopLevel.pairwise_level_of_perm reordered.perm reordered.pairwise
  laid := reordered.laidOther
  laidOther := reordered.laid

theorem mem_sites_iff {site : Site} :
    site ∈ TopLevel.sitesOf first ↔ site ∈ TopLevel.sitesOf second :=
  (TopLevel.sitesOf_perm reordered.perm reordered.pairwise).mem_iff

theorem mem_classes_iff {declaration : Tree.Class} :
    declaration ∈ TopLevel.classes first ↔ declaration ∈ TopLevel.classes second := by
  rw [TopLevel.mem_classes, TopLevel.mem_classes, reordered.perm.mem_iff]

theorem get?_classes_eq (constructor : TypeConstructor) :
    base.classes.get? constructor = other.classes.get? constructor := by
  rcases reordered.laid.get?_classes constructor with
    ⟨declaration, isClass, rfl, found⟩ | ⟨noClass, found⟩
  · rw [found, reordered.laidOther.entries declaration (reordered.mem_classes_iff.mp isClass),
      TopLevel.classifiersOf_eq reordered.perm reordered.pairwise]
  · rw [found, reordered.laidOther.noClass constructor fun declaration isClass =>
      noClass declaration (reordered.mem_classes_iff.mpr isClass)]

theorem class?_eq : base.class? = other.class? := by
  funext constructor
  simp only [class?, reordered.get?_classes_eq]

/-- The same bodies were put off. -/
theorem exists_deferred {node : NodeRef} {deferred : Deferred}
    (found : base.deferred.get? node = some deferred) :
    ∃ site ∈ TopLevel.sitesOf first, site.member.node.ref = node ∧
      base.Reaches deferred.scope fileScope site.levels ∧
        ∃ scope, other.Reaches scope fileScope site.levels ∧
          other.deferred.get? node =
            some { name := site.member.name, body := deferred.body, scope } := by
  obtain ⟨site, isSite, rfl, isOpen, reaches⟩ := reordered.laid.exists_site found
  obtain ⟨scope, -, reachesOther, put⟩ :=
    reordered.laidOther.placed site (reordered.mem_sites_iff.mp isSite)
  rw [isOpen] at put
  exact ⟨site, isSite, rfl, reaches, scope, reachesOther, put⟩

theorem isOpenType_of_isOpenType {node : NodeRef} (isOpen : base.isOpenType node = true) :
    other.isOpenType node = true := by
  obtain ⟨deferred, found⟩ := Option.isSome_iff_exists.mp isOpen
  obtain ⟨_, -, -, -, _, -, put⟩ := reordered.exists_deferred found
  rw [isOpenType, put]
  rfl

theorem isOpenType_eq : base.isOpenType = other.isOpenType := by
  funext node
  rw [Bool.eq_iff_iff]
  exact ⟨reordered.isOpenType_of_isOpenType, reordered.symm.isOpenType_of_isOpenType⟩

/-- A member sees the same, up to the order of the symbols of the file. -/
theorem alike_view (site : Site) (own : NodeRef) :
    (base.view first site own).Alike (other.view second site own) where
  levels := Interchangeable.around
    ⟨TopLevel.level_perm reordered.perm reordered.pairwise, .inr reordered.pairwise⟩
    site.levels librarySymbols
  class? := reordered.class?_eq
  isOpen := reordered.isOpenType_eq
  own := Eq.refl own

/-- An open type is inferred from scripts that are alike. -/
theorem alike_body? {node : NodeRef} {script : Script base.isOpenType NominalType}
    (isBody : base.body? node = some script) :
    ∃ counterpart, other.body? node = some counterpart ∧
      Script.Alike (base.openFilled node) Eq script counterpart := by
  obtain ⟨deferred, found, rfl⟩ := Option.map_eq_some_iff.mp isBody
  obtain ⟨site, -, rfl, reaches, scope, reachesOther, put⟩ := reordered.exists_deferred found
  refine ⟨_, congrArg (Option.map _) put, ?_⟩
  have alike := (reordered.alike_view site site.member.node.ref).infer deferred.body
  rw [openFilled, found]
  rw [← reordered.laid.around_eq reaches, ← reordered.laidOther.around_eq reachesOther] at alike
  exact alike

end Reordered

end ResolutionState

end Gloss
