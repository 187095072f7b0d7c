import Gloss.Proofs.Order.Headers
import Gloss.Proofs.Resolution.Checking

/-!
# What is known when a file is declared

When everything outside of bodies is declared, each member lies where its declaration
says, each class has its entry, and the remarks written down so far are those that the
declarations say.
-/

namespace Gloss

open Resolver Gloss.Tree ResolutionState

/-- A member of a file with what belongs to the place where it is declared. -/
structure Site where
  member : Member
  owner : Option ClassDescriptor
  classifiers : Classifiers
  /-- What is seen from the member before what the file declares. -/
  levels : List (List (Symbol Descriptor))

namespace Tree.TopLevel

variable (classifiers : Classifiers)

/-- The members of a declaration with their places. -/
def sites : TopLevel → List Site
  | .class declared =>
      declared.members.map fun member =>
        { member, owner := some declared.describe, classifiers := declared.inner classifiers
          levels := declared.levels classifiers member }
  | .member declared =>
      [{ member := declared, owner := none, classifiers
         levels := declared.levels none classifiers [] }]

theorem map_member_sites (declared : TopLevel) :
    (declared.sites classifiers).map Site.member = declared.members := by
  cases declared with
  | «class» declaration =>
      rw [sites, List.map_map]
      exact List.map_id _
  | member declaration => rfl

/-- The symbols that a declaration adds to the file, apart from the name of a class. -/
def symbols : TopLevel → List (Symbol Descriptor)
  | .class _ => []
  | .member declared => [(declared.introduction none classifiers).symbol]

/-- What is added where the members of a declaration are declared. -/
def yield (level : List (Symbol Descriptor)) : TopLevel → Yield
  | .class declared => declared.yield classifiers
  | .member declared => declared.yield fileScope none classifiers level

/-- What is added where the members among some declarations are declared. -/
def contentYield (level : List (Symbol Descriptor)) (contents : List TopLevel) : Yield where
  remarks := contentRemarks classifiers level contents
  symbols := (contents.flatMap (symbols classifiers)).map fun symbol => (fileScope, symbol)
  parameters := contents.flatMap fun declared => (declared.yield classifiers []).parameters
  members := contents.flatMap fun declared => (declared.yield classifiers []).members
  nodes := (contents.flatMap members).map fun member => member.node.ref

variable {classifiers : Classifiers} {declared : TopLevel} {level : List (Symbol Descriptor)}

theorem symbols_yield :
    (declared.yield classifiers level).symbols =
      (declared.symbols classifiers).map fun symbol => (fileScope, symbol) := by
  cases declared <;> rfl

theorem valuesAt_yield :
    valuesAt fileScope (declared.yield classifiers level).symbols =
      declared.symbols classifiers := by
  rw [symbols_yield, valuesAt_map_self, List.map_id']

theorem nodes_yield :
    (declared.yield classifiers level).nodes =
      declared.members.map fun member => member.node.ref := by
  cases declared <;> rfl

theorem classes_yield : (declared.yield classifiers level).classes = [] := by
  cases declared <;> rfl

theorem filled_yield :
    Remark.filled (declared.yield classifiers level).remarks = declared.contentFilled := by
  cases declared with
  | «class» declaration => exact declaration.filled_contentRemarks classifiers
  | member declaration => exact declaration.filled_remarks none classifiers level

/-- Only classes get parameters and members. -/
theorem of_mem_parameters_yield {entry : TypeConstructor × ParameterDescriptor}
    (isEntry : entry ∈ (declared.yield classifiers level).parameters) :
    ∃ declaration, declared = .class declaration ∧
      entry.1 = declaration.describe.constructor := by
  cases declared with
  | «class» declaration =>
      obtain ⟨parameter, -, rfl⟩ := List.mem_map.mp isEntry
      exact ⟨declaration, rfl, rfl⟩
  | member declaration => cases isEntry

theorem of_mem_members_yield {entry : TypeConstructor × Descriptor}
    (isEntry : entry ∈ (declared.yield classifiers level).members) :
    ∃ declaration, declared = .class declaration ∧
      entry.1 = declaration.describe.constructor := by
  cases declared with
  | «class» declaration =>
      obtain ⟨member, -, rfl⟩ := List.mem_map.mp isEntry
      exact ⟨declaration, rfl, rfl⟩
  | member declaration => cases isEntry

theorem classes_cons (first : TopLevel) (rest : List TopLevel) :
    classes (first :: rest) = classes [first] ++ classes rest := by
  cases first <;> rfl

theorem isClassifier_of_mem_symbols {symbol : Symbol Descriptor}
    (isSymbol : symbol ∈ declared.symbols classifiers) : symbol.kind.isClassifier = false := by
  cases declared with
  | «class» declaration => cases isSymbol
  | member declaration =>
      rw [List.mem_singleton.mp isSymbol]
      exact declaration.isClassifier_introduction _ _

/-- The members of a declaration are declared at nodes of their own. -/
theorem refs_le (declared : TopLevel) :
    ((declared.members.map fun member => member.node.ref : List NodeRef) : Multiset NodeRef) ≤
      declared.node.filled .declaration := by
  have heads (members : List Member) :
      ((members.map fun member => member.node.ref : List NodeRef) : Multiset NodeRef) ≤
        (members.map Member.headFilled).sum .declaration := by
    induction members with
    | nil => exact le_rfl
    | cons first rest ih =>
        have own : {first.node.ref} ≤ first.headFilled .declaration := by
          rw [Multiset.singleton_le]
          cases first <;> exact Multiset.mem_add.mpr (.inr (Multiset.mem_singleton_self _))
        rw [List.map_cons, List.map_cons, List.sum_cons, ← Multiset.cons_coe,
          ← Multiset.singleton_add]
        exact add_le_add own ih
  have content : (declared.members.map Member.headFilled).sum .declaration ≤
      declared.contentFilled .declaration := by
    cases declared with
    | «class» declaration => exact Multiset.le_add_left _ _
    | member declaration =>
        rw [members, List.map_singleton, List.sum_singleton]
        exact le_rfl
  refine (heads declared.members).trans (content.trans ?_)
  rw [filled_eq]
  exact (Multiset.le_add_left _ _).trans (Multiset.le_add_right _ _)

theorem mem_filled_of_mem_members {member : Member} (isMember : member ∈ declared.members) :
    member.node.ref ∈ declared.node.filled .declaration :=
  Multiset.mem_of_le declared.refs_le (Multiset.mem_coe.mpr (List.mem_map.mpr ⟨member, isMember, rfl⟩))

theorem Distinct.notMem_of_mem_members {first : TopLevel} {rest : List TopLevel}
    (distinct : Distinct (first :: rest)) {member : Member}
    (isMember : member ∈ rest.flatMap members) :
    member.node.ref ∉ first.node.filled .declaration := by
  intro inFirst
  obtain ⟨declared, isDeclared, inDeclared⟩ := List.mem_flatMap.mp isMember
  exact Multiset.disjoint_left.mp (distinct_cons.mp distinct).2.2 inFirst
    (mem_sum_map isDeclared (mem_filled_of_mem_members inDeclared))

end Tree.TopLevel

/-- Declares the members of a declaration. -/
def Resolver.declareContent : TopLevel → Resolver Unit
  | .class declaration => declareClassMembers declaration
  | .member declaration => declareMember fileScope fileScope none declaration

theorem declareContents_cons (first : TopLevel) (rest : List TopLevel) :
    declareContents (first :: rest) = declareContent first >>= fun _ => declareContents rest := by
  cases first <;> rfl

namespace ResolutionState

/-- The members of a declaration are declared in their places. -/
theorem lays_declareContent (declared : TopLevel) (state : ResolutionState)
    (inside : fileScope < state.scopes.size)
    (headed : ∀ declaration ∈ TopLevel.classes [declared], state.Headed declaration)
    (once : (declared.members.map fun member => member.node.ref).Nodup)
    (notDeferred : ∀ member ∈ declared.members, state.deferred.get? member.node.ref = none) :
    state.Lays
        (declared.yield (state.classifiers fileScope) (state.scopes.symbolsOf fileScope))
        ((declareContent declared).run state).2 ∧
      ∀ site ∈ declared.sites (state.classifiers fileScope),
        ((declareContent declared).run state).2.Placed site.member fileScope site.levels := by
  cases declared with
  | «class» declaration =>
      obtain ⟨lays, placed⟩ := lays_declareClassMembers declaration state
        (headed declaration (List.mem_singleton_self _)) once notDeferred
      refine ⟨lays, fun site isSite => ?_⟩
      obtain ⟨member, isMember, rfl⟩ := List.mem_map.mp isSite
      exact placed member isMember
  | member declaration =>
      obtain ⟨lays, placed⟩ := lays_declareMember none declaration state (Reaches.refl inside)
        (notDeferred declaration (List.mem_singleton_self _))
      exact ⟨lays, List.forall_mem_singleton.mpr placed⟩

/-- What a class has is known once its members are declared. -/
theorem get?_classes_of_yield {before after : ResolutionState} {declaration : Tree.Class}
    {classifiers : Classifiers} (headed : before.Headed declaration)
    (lays : before.Lays (declaration.yield classifiers) after) :
    after.classes.get? declaration.describe.constructor = some (declaration.entry classifiers) := by
  rw [lays.classes _ List.not_mem_nil, headed.entry, Class.yield, valuesAt_map_self,
    valuesAt_map_self, List.map_id']
  rfl

/-- A class keeps its header while the members of another declaration are declared. -/
theorem Headed.of_yield {before after : ResolutionState} {first : TopLevel} {rest : List TopLevel}
    {classifiers : Classifiers} {level : List (Symbol Descriptor)} {declaration : Tree.Class}
    (distinct : TopLevel.Distinct (first :: rest)) (isClass : declaration ∈ TopLevel.classes rest)
    (headed : before.Headed declaration)
    (lays : before.Lays (first.yield classifiers level) after) : after.Headed declaration := by
  have notInFirst := distinct.notMem_of_mem_classes isClass
  have differs : ∀ other, first = .class other →
      other.describe.constructor ≠ declaration.describe.constructor := by
    rintro other rfl
    exact Class.constructor_ne fun same => notInFirst (same ▸ TopLevel.mem_filled_class other)
  apply headed.mono lays
  · rw [TopLevel.filled_yield]
    exact fun inContent => notInFirst (TopLevel.mem_filled_of_mem_contentFilled inContent)
  · rw [TopLevel.symbols_yield]
    intro entry isEntry
    obtain ⟨symbol, -, rfl⟩ := List.mem_map.mp isEntry
    exact le_rfl
  · rw [TopLevel.classes_yield]
    intro entry isEntry
    cases isEntry
  · intro entry isEntry
    obtain ⟨other, isFirst, same⟩ := TopLevel.of_mem_parameters_yield isEntry
    exact same ▸ differs other isFirst
  · intro entry isEntry
    obtain ⟨other, isFirst, same⟩ := TopLevel.of_mem_members_yield isEntry
    exact same ▸ differs other isFirst

/-- A class keeps its entry while the members of others are declared. -/
theorem get?_classes_of_contentYield {before after : ResolutionState} {first : TopLevel}
    {rest : List TopLevel} {classifiers : Classifiers} {level : List (Symbol Descriptor)}
    {declaration : Tree.Class} (distinct : TopLevel.Distinct (first :: rest))
    (isFirst : first = .class declaration)
    (lays : before.Lays (TopLevel.contentYield classifiers level rest) after) :
    after.classes.get? declaration.describe.constructor =
      before.classes.get? declaration.describe.constructor := by
  have differs : ∀ other, TopLevel.class other ∈ rest →
      other.describe.constructor ≠ declaration.describe.constructor := by
    intro other isOther
    apply Class.constructor_ne
    intro same
    apply distinct.notMem_of_mem_classes (TopLevel.mem_classes.mpr isOther)
    rw [same, isFirst]
    exact TopLevel.mem_filled_class declaration
  apply lays.get?_classes
  · intro entry isEntry
    cases isEntry
  · intro entry isEntry
    obtain ⟨declared, isDeclared, isEntry⟩ := List.mem_flatMap.mp isEntry
    obtain ⟨other, rfl, same⟩ := TopLevel.of_mem_parameters_yield isEntry
    exact same ▸ differs other isDeclared
  · intro entry isEntry
    obtain ⟨declared, isDeclared, isEntry⟩ := List.mem_flatMap.mp isEntry
    obtain ⟨other, rfl, same⟩ := TopLevel.of_mem_members_yield isEntry
    exact same ▸ differs other isDeclared

section Content

variable {before middle after : ResolutionState} {first : TopLevel} {rest : List TopLevel}
  {classifiers : Classifiers} {level : List (Symbol Descriptor)}

theorem lays_cons (lays : before.Lays (first.yield classifiers level) middle)
    (laysRest : middle.Lays
      (TopLevel.contentYield classifiers (level ++ first.symbols classifiers) rest) after) :
    before.Lays (TopLevel.contentYield classifiers level (first :: rest)) after := by
  refine (lays.trans laysRest).cast ?_ (fun number _ => ?_) ?_ ?_ ?_ ?_
  · cases first with
    | «class» declaration =>
        rw [TopLevel.symbols, List.append_nil]
        rfl
    | member declaration => rfl
  · rw [Yield.symbols_append, TopLevel.symbols_yield, TopLevel.contentYield, ← List.map_append,
      ← List.flatMap_cons]
    rfl
  · cases first <;> rfl
  · cases first <;> rfl
  · rw [Yield.nodes_append, TopLevel.nodes_yield, TopLevel.contentYield, ← List.map_append,
      ← List.flatMap_cons]
    exact fun _ => id
  · rw [Yield.classes_append, TopLevel.classes_yield]
    exact fun _ => id

/-- The members of a declaration do not change what the names of types mean. -/
theorem Lays.classifiers_of_yield (lays : before.Lays (first.yield classifiers level) middle)
    (inside : fileScope < before.scopes.size) :
    middle.classifiers fileScope = before.classifiers fileScope := by
  apply lays.classifiers_eq inside
  rw [TopLevel.symbols_yield]
  rintro entry isEntry -
  obtain ⟨symbol, isSymbol, rfl⟩ := List.mem_map.mp isEntry
  exact TopLevel.isClassifier_of_mem_symbols isSymbol

/-- A declaration puts off the types of its own members only. -/
theorem Lays.get?_deferred_of_yield (lays : before.Lays (first.yield classifiers level) middle)
    (distinct : TopLevel.Distinct (first :: rest)) {member : Member}
    (isMember : member ∈ rest.flatMap TopLevel.members) :
    middle.deferred.get? member.node.ref = before.deferred.get? member.node.ref := by
  refine congrArg Notes.deferred (lays.notes _ ?_)
  rw [TopLevel.nodes_yield]
  intro inFirst
  obtain ⟨other, isOther, same⟩ := List.mem_map.mp inFirst
  exact distinct.notMem_of_mem_members isMember
    (same ▸ TopLevel.mem_filled_of_mem_members isOther)

/-- A member stays in its place while the members of other declarations are declared. -/
theorem Placed.of_contentYield {site : Site}
    (placed : middle.Placed site.member fileScope site.levels)
    (lays : middle.Lays (TopLevel.contentYield classifiers level rest) after)
    (distinct : TopLevel.Distinct (first :: rest)) (isSite : site.member ∈ first.members) :
    after.Placed site.member fileScope site.levels := by
  refine placed.mono lays ?_ ?_
  · intro entry isEntry
    obtain ⟨symbol, -, rfl⟩ := List.mem_map.mp isEntry
    exact le_rfl
  · intro inRest
    obtain ⟨member, isMember, same⟩ := List.mem_map.mp inRest
    exact distinct.notMem_of_mem_members isMember
      (same ▸ TopLevel.mem_filled_of_mem_members isSite)

end Content

/-- The members of all declarations are declared in their places, and then every class has
its parameters and members. -/
theorem lays_declareContents (contents : List TopLevel) (state : ResolutionState)
    (inside : fileScope < state.scopes.size)
    (headed : ∀ declaration ∈ TopLevel.classes contents, state.Headed declaration)
    (distinct : TopLevel.Distinct contents)
    (notDeferred : ∀ member ∈ contents.flatMap TopLevel.members,
      state.deferred.get? member.node.ref = none) :
    state.Lays
        (TopLevel.contentYield (state.classifiers fileScope) (state.scopes.symbolsOf fileScope)
          contents)
        ((declareContents contents).run state).2 ∧
      (∀ site ∈ contents.flatMap (TopLevel.sites (state.classifiers fileScope)),
        ((declareContents contents).run state).2.Placed site.member fileScope site.levels) ∧
      ∀ declaration ∈ TopLevel.classes contents,
        ((declareContents contents).run state).2.classes.get? declaration.describe.constructor =
          some (declaration.entry (state.classifiers fileScope)) := by
  induction contents generalizing state with
  | nil =>
      refine ⟨.refl state, fun site isSite => ?_, fun declaration isClass => ?_⟩
      · cases isSite
      · cases isClass
  | cons first rest ih =>
      rw [TopLevel.classes_cons] at headed ⊢
      obtain ⟨headedFirst, headedRest⟩ := List.forall_mem_append.mp headed
      rw [List.flatMap_cons] at notDeferred ⊢
      obtain ⟨notDeferredFirst, notDeferredRest⟩ := List.forall_mem_append.mp notDeferred
      obtain ⟨filledOnce, distinctRest, -⟩ := TopLevel.distinct_cons.mp distinct
      have once := Multiset.coe_nodup.mp (Multiset.nodup_of_le first.refs_le filledOnce)
      obtain ⟨laysFirst, placedFirst⟩ :=
        lays_declareContent first state inside headedFirst once notDeferredFirst
      rw [declareContents_cons, run_bind]
      generalize ((declareContent first).run state).2 = middle at laysFirst placedFirst ⊢
      have sameClassifiers := laysFirst.classifiers_of_yield inside
      obtain ⟨laysRest, placedRest, entryRest⟩ := ih middle (inside.trans_le laysFirst.size)
        (fun declaration isClass =>
          (headedRest declaration isClass).of_yield distinct isClass laysFirst)
        distinctRest fun member isMember =>
          (laysFirst.get?_deferred_of_yield distinct isMember).trans
            (notDeferredRest member isMember)
      rw [sameClassifiers, laysFirst.symbolsOf_eq_append inside TopLevel.valuesAt_yield]
        at laysRest
      rw [sameClassifiers] at placedRest entryRest
      refine ⟨lays_cons laysFirst laysRest, List.forall_mem_append.mpr ⟨?_, placedRest⟩,
        List.forall_mem_append.mpr ⟨?_, entryRest⟩⟩
      · intro site isSite
        refine (placedFirst site isSite).of_contentYield laysRest distinct ?_
        rw [← first.map_member_sites (state.classifiers fileScope)]
        exact List.mem_map_of_mem isSite
      · intro declaration isClass
        have isFirst := List.mem_singleton.mp (TopLevel.mem_classes.mp isClass)
        rw [get?_classes_of_contentYield distinct isFirst.symm laysRest]
        subst isFirst
        exact get?_classes_of_yield (headedFirst declaration isClass) laysFirst

end ResolutionState

/-! ### Files -/

namespace Tree.TopLevel

variable (contents : List TopLevel)

/-- The names of the classes of a file. -/
def classSymbols : List (Symbol Descriptor) :=
  (classes contents).map fun declaration => declaration.introduction.symbol

/-- What the names of types mean in a file. -/
def classifiersOf : Classifiers :=
  (Classifiers.inside (fun _ => none) librarySymbols).inside (classSymbols contents)

/-- The symbols of a file. -/
def level : List (Symbol Descriptor) :=
  classSymbols contents ++ contents.flatMap (symbols (classifiersOf contents))

/-- What is written down before the bodies of a file are checked. -/
def remarks : List Remark :=
  classRemarks [] contents ++
    contentRemarks (classifiersOf contents) (classSymbols contents) contents

/-- What is added while a file is declared. -/
def fileYield : Yield :=
  headYield [] contents ++ contentYield (classifiersOf contents) (classSymbols contents) contents

/-- The members of a file with their places. -/
def sitesOf : List Site := contents.flatMap (sites (classifiersOf contents))

theorem map_member_sitesOf : (sitesOf contents).map Site.member = contents.flatMap members := by
  rw [sitesOf, List.map_flatMap]
  exact List.flatMap_congr fun declared _ => declared.map_member_sites _

end Tree.TopLevel

namespace ResolutionState

/-- Everything outside of the bodies of a file is declared. -/
structure Laid (contents : List TopLevel) (base : ResolutionState) : Prop where
  journal : base.journal = Journal.empty.remarkAll (TopLevel.remarks contents)
  inferred : base.inferred = .empty
  chain : (base.scopes.chain fileScope).map base.scopes.symbolsOf =
    [TopLevel.level contents, librarySymbols]
  placed : ∀ site ∈ TopLevel.sitesOf contents, base.Placed site.member fileScope site.levels
  entries : ∀ declaration ∈ TopLevel.classes contents,
    base.classes.get? declaration.describe.constructor =
      some (declaration.entry (TopLevel.classifiersOf contents))
  noClass : ∀ constructor,
    (∀ declaration ∈ TopLevel.classes contents, declaration.describe.constructor ≠ constructor) →
      base.classes.get? constructor = none
  notDeferred : ∀ node,
    (∀ site ∈ TopLevel.sitesOf contents, site.member.node.ref ≠ node) →
      base.deferred.get? node = none

/-- Nothing of a file is declared, and all names mean something in the library. -/
structure Fresh (start : ResolutionState) : Prop where
  inside : fileScope < start.scopes.size
  chain : start.scopes.chain fileScope = [fileScope, libraryScope]
  chainLibrary : start.scopes.chain libraryScope = [libraryScope]
  noSymbols : start.scopes.symbolsOf fileScope = []
  library : start.scopes.symbolsOf libraryScope = librarySymbols
  journal : start.journal = .empty
  inferred : start.inferred = .empty
  classes : start.classes = .empty
  deferred : start.deferred = .empty

theorem fresh_initial : initial.Fresh :=
  ⟨by decide, rfl, rfl, rfl, rfl, rfl, rfl, rfl, rfl⟩

variable {start after : ResolutionState} {contents : List TopLevel}

theorem Fresh.libraryInside (fresh : start.Fresh) : libraryScope < start.scopes.size :=
  Nat.zero_lt_of_lt fresh.inside

/-- The classes of a file add their names to it. -/
theorem Fresh.classifiers_eq (fresh : start.Fresh)
    (lays : start.Lays (TopLevel.headYield [] contents) after) :
    after.scopes.symbolsOf fileScope = TopLevel.classSymbols contents ∧
      after.classifiers fileScope = TopLevel.classifiersOf contents := by
  have level : after.scopes.symbolsOf fileScope = TopLevel.classSymbols contents := by
    rw [lays.symbolsOf_eq_append fresh.inside (valuesAt_map_self _ _), fresh.noSymbols]
    rfl
  have chain : after.scopes.chain fileScope = fileScope :: after.scopes.chain libraryScope := by
    rw [lays.chain fileScope fresh.inside, lays.chain libraryScope fresh.libraryInside,
      fresh.chain, fresh.chainLibrary]
  have notLibrary : ¬ fileScope ≤ libraryScope := by decide
  have library : after.classifiers libraryScope =
      Classifiers.inside (fun _ => none) librarySymbols := by
    rw [lays.classifiers_eq fresh.libraryInside, classifiers_eq_foldr, fresh.chainLibrary,
      List.map_singleton, fresh.library]
    · rfl
    · intro entry isEntry isLibrary
      obtain ⟨declaration, -, rfl⟩ := List.mem_map.mp isEntry
      exact absurd isLibrary notLibrary
  refine ⟨level, ?_⟩
  rw [classifiers_of_chain chain, level, library, TopLevel.classifiersOf]

/-- From a fresh state on, the symbols of a file and those of the library can be seen. -/
theorem Fresh.chain_eq (fresh : start.Fresh)
    (lays : start.Lays (TopLevel.fileYield contents) after) :
    (after.scopes.chain fileScope).map after.scopes.symbolsOf =
      [TopLevel.level contents, librarySymbols] := by
  have file : after.scopes.symbolsOf fileScope = TopLevel.level contents := by
    rw [lays.symbols fileScope fresh.inside, fresh.noSymbols, TopLevel.fileYield,
      Yield.symbols_append, valuesAt_append, TopLevel.headYield, TopLevel.contentYield,
      valuesAt_map_self, valuesAt_map_self, List.map_id', List.nil_append]
    rfl
  have library : after.scopes.symbolsOf libraryScope = librarySymbols := by
    rw [lays.symbols libraryScope fresh.libraryInside, fresh.library, valuesAt_eq_nil,
      List.append_nil]
    intro entry isEntry
    have inFile : entry.1 = fileScope := by
      rcases List.mem_append.mp isEntry with isHead | isContent
      · obtain ⟨declaration, -, rfl⟩ := List.mem_map.mp isHead
        rfl
      · obtain ⟨symbol, -, rfl⟩ := List.mem_map.mp isContent
        rfl
    rw [inFile]
    decide
  rw [lays.chain fileScope fresh.inside, fresh.chain, List.map_cons, List.map_singleton, file,
    library]

/-- Only the classes of a file are known. -/
theorem Fresh.get?_classes_eq_none (fresh : start.Fresh)
    (lays : start.Lays (TopLevel.fileYield contents) after) {constructor : TypeConstructor}
    (isOther : ∀ declaration ∈ TopLevel.classes contents,
      declaration.describe.constructor ≠ constructor) :
    after.classes.get? constructor = none := by
  rw [lays.classes, fresh.classes]
  · rfl
  · intro isNew
    rw [TopLevel.fileYield, Yield.classes_append, TopLevel.contentYield, List.append_nil,
      TopLevel.headYield, List.map_map] at isNew
    obtain ⟨declaration, isClass, same⟩ := List.mem_map.mp isNew
    exact isOther declaration isClass same

/-- Only the types of members are put off. -/
theorem Fresh.get?_deferred_eq_none (fresh : start.Fresh)
    (lays : start.Lays (TopLevel.fileYield contents) after) {node : NodeRef}
    (isOther : ∀ site ∈ TopLevel.sitesOf contents, site.member.node.ref ≠ node) :
    after.deferred.get? node = none := by
  have nothing : start.deferred.get? node = none := by
    rw [fresh.deferred]
    rfl
  refine (congrArg Notes.deferred (lays.notes node ?_)).trans nothing
  intro isNew
  obtain ⟨member, isMember, same⟩ := List.mem_map.mp isNew
  rw [← TopLevel.map_member_sitesOf] at isMember
  obtain ⟨site, isSite, rfl⟩ := List.mem_map.mp isMember
  exact isOther site isSite same

/-- Declaring a file declares everything outside of its bodies. -/
theorem Fresh.declareFile (fresh : start.Fresh) (file : File)
    (distinct : TopLevel.Distinct file.declarations) :
    ((declareFile file).run start).2.Laid file.declarations := by
  obtain ⟨laysHeads, headed⟩ :=
    lays_declareClasses file.declarations start fresh.inside distinct
  rw [Resolver.declareFile, run_bind]
  rw [fresh.noSymbols] at laysHeads
  generalize ((declareClasses file.declarations).run start).2 = middle at laysHeads headed ⊢
  obtain ⟨level, classifiers⟩ := fresh.classifiers_eq laysHeads
  have notDeferred : ∀ member ∈ file.declarations.flatMap TopLevel.members,
      middle.deferred.get? member.node.ref = none := by
    intro member _
    refine (congrArg Notes.deferred (laysHeads.notes _ List.not_mem_nil)).trans ?_
    change start.deferred.get? member.node.ref = none
    rw [fresh.deferred]
    rfl
  obtain ⟨lays, placed, entries⟩ := lays_declareContents file.declarations middle
    (fresh.inside.trans_le laysHeads.size) headed distinct notDeferred
  rw [level, classifiers] at lays
  rw [classifiers] at placed entries
  generalize ((declareContents file.declarations).run middle).2 = base at lays placed entries ⊢
  have laysAll : start.Lays (TopLevel.fileYield file.declarations) base := laysHeads.trans lays
  exact
    { journal := by
        rw [laysAll.journal, fresh.journal]
        rfl
      inferred := laysAll.inferred.trans fresh.inferred
      chain := fresh.chain_eq laysAll
      placed := placed
      entries := entries
      noClass := fun _ isOther => fresh.get?_classes_eq_none laysAll isOther
      notDeferred := fun _ isOther => fresh.get?_deferred_eq_none laysAll isOther }

end ResolutionState

end Gloss
