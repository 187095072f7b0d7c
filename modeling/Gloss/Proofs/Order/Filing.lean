import Gloss.Proofs.Order.Placing

/-!
# What declaring a file adds

First every class gets a header and an empty entry, then the members of classes, the
functions and the properties find their places.  What names of types mean is settled by
then, so the descriptors do not depend on the order of the declarations.
-/

namespace Gloss

open Resolver Gloss.Tree

/-! ### Constructor parameters -/

/-- Declares one parameter of a constructor. -/
def Resolver.declareConstructorParameter (header members constructor : Nat)
    (owner : ClassDescriptor) (index : Nat) (parameter : ConstructorParameter) :
    Resolver Unit := do
  let node := (Node.constructorParameter parameter).ref
  let type ← resolveType header parameter.type
  let described : ParameterDescriptor :=
    { name := parameter.name, declaration := some node, type, index }
  nameConstructorParameter constructor owner node described
  match parameter.binding with
  | none => declare node (.variable (.parameter (.class owner) described))
  | some binding => do
      let property : Descriptor :=
        .variable (.property
          { name := parameter.name, declaration := some node
            container := some owner.name, type := some type, binding })
      addMember (some owner) property
      define members { name := parameter.name, kind := .property, descriptor := property } node
      declare node property

/-- Introduces a property of a class that is declared by a constructor parameter. -/
def Resolver.introduceProperty (members : Nat) (owner : ClassDescriptor)
    (property : Introduction) : Resolver Unit := do
  addMember (some owner) property.symbol.descriptor
  define members property.symbol property.node
  declare property.node property.symbol.descriptor

theorem declareConstructorParameters_cons (header members constructor : Nat)
    (owner : ClassDescriptor) (index : Nat) (first : ConstructorParameter)
    (rest : List ConstructorParameter) :
    declareConstructorParameters header members constructor owner index (first :: rest) = (do
      declareConstructorParameter header members constructor owner index first
      declareConstructorParameters header members constructor owner (index + 1) rest) := by
  rw [declareConstructorParameters, declareConstructorParameter]
  cases binding : first.binding <;> simp only [bind_assoc]

namespace Tree.ConstructorParameter

variable (members constructor : Nat) (owner : ClassDescriptor) (classifiers : Classifiers)

/-- The property that a parameter with a binding is. -/
def introduceAs (binding : Binding) (parameter : ConstructorParameter) : Introduction where
  symbol :=
    { name := parameter.name, kind := .property
      descriptor := parameter.describeProperty owner classifiers binding }
  node := (Node.constructorParameter parameter).ref

theorem property_eq_some (parameter : ConstructorParameter) {binding : Binding}
    (bound : parameter.binding = some binding) :
    parameter.property owner classifiers =
      some (introduceAs owner classifiers binding parameter) := by
  rw [property, bound]
  rfl

/-- What is added where a constructor parameter is declared. -/
def yield (constructorLevel memberLevel : List (Symbol Descriptor)) (index : Nat)
    (parameter : ConstructorParameter) : Yield where
  remarks := parameter.remarks owner classifiers index constructorLevel memberLevel
  symbols :=
    (constructor, (parameter.introduction owner classifiers index).symbol) ::
      (parameter.property owner classifiers).toList.map fun property => (members, property.symbol)
  parameters := [(owner.constructor, parameter.describe classifiers index)]
  members := (parameter.property owner classifiers).toList.map fun property =>
    (owner.constructor, property.symbol.descriptor)

def yieldAll (constructorLevel memberLevel : List (Symbol Descriptor)) :
    Nat → List ConstructorParameter → Yield
  | _, [] => {}
  | index, first :: rest =>
      first.yield members constructor owner classifiers constructorLevel memberLevel index ++
        yieldAll
          (constructorLevel ++ [(first.introduction owner classifiers index).symbol])
          (memberLevel ++ (first.property owner classifiers).toList.map Introduction.symbol)
          (index + 1) rest

variable {members constructor : Nat} {owner : ClassDescriptor} {classifiers : Classifiers}

theorem properties_cons (owner : ClassDescriptor) (classifiers : Classifiers)
    (first : ConstructorParameter) (rest : List ConstructorParameter) :
    properties owner classifiers (first :: rest) =
      (first.property owner classifiers).toList ++ properties owner classifiers rest :=
  List.flatMap_cons

theorem remarks_yieldAll (constructorLevel memberLevel : List (Symbol Descriptor)) (index : Nat)
    (parameters : List ConstructorParameter) :
    (yieldAll members constructor owner classifiers constructorLevel memberLevel index
        parameters).remarks =
      remarksOfAll owner classifiers constructorLevel memberLevel index parameters := by
  induction parameters generalizing constructorLevel memberLevel index with
  | nil => rfl
  | cons first rest ih =>
      rw [yieldAll, Yield.remarks_append, ih]
      rfl

theorem parameters_yieldAll (constructorLevel memberLevel : List (Symbol Descriptor))
    (index : Nat) (parameters : List ConstructorParameter) :
    (yieldAll members constructor owner classifiers constructorLevel memberLevel index
        parameters).parameters =
      (describeAll classifiers index parameters).map
        fun described => (owner.constructor, described) := by
  induction parameters generalizing constructorLevel memberLevel index with
  | nil => rfl
  | cons first rest ih =>
      rw [yieldAll, Yield.parameters_append, ih]
      rfl

theorem members_yieldAll (constructorLevel memberLevel : List (Symbol Descriptor))
    (index : Nat) (parameters : List ConstructorParameter) :
    (yieldAll members constructor owner classifiers constructorLevel memberLevel index
        parameters).members =
      (properties owner classifiers parameters).map
        fun property => (owner.constructor, property.symbol.descriptor) := by
  induction parameters generalizing constructorLevel memberLevel index with
  | nil => rfl
  | cons first rest ih =>
      rw [yieldAll, Yield.members_append, ih, properties_cons, List.map_append]
      rfl

theorem nodes_yieldAll (constructorLevel memberLevel : List (Symbol Descriptor)) (index : Nat)
    (parameters : List ConstructorParameter) :
    (yieldAll members constructor owner classifiers constructorLevel memberLevel index
        parameters).nodes = [] ∧
      (yieldAll members constructor owner classifiers constructorLevel memberLevel index
        parameters).classes = [] := by
  induction parameters generalizing constructorLevel memberLevel index with
  | nil => exact ⟨rfl, rfl⟩
  | cons first rest ih =>
      obtain ⟨nodes, classes⟩ := ih
        (constructorLevel ++ [(first.introduction owner classifiers index).symbol])
        (memberLevel ++ (first.property owner classifiers).toList.map Introduction.symbol)
        (index + 1)
      exact ⟨nodes, classes⟩

theorem valuesAt_members_yield (different : constructor ≠ members)
    (constructorLevel memberLevel : List (Symbol Descriptor)) (index : Nat)
    (parameter : ConstructorParameter) :
    valuesAt members (parameter.yield members constructor owner classifiers constructorLevel
        memberLevel index).symbols =
      (parameter.property owner classifiers).toList.map Introduction.symbol := by
  rw [yield, ← List.singleton_append, valuesAt_append, valuesAt_map_self,
    valuesAt_eq_nil (by simpa using different), List.nil_append]

theorem valuesAt_constructor_yield (different : constructor ≠ members)
    (constructorLevel memberLevel : List (Symbol Descriptor)) (index : Nat)
    (parameter : ConstructorParameter) :
    valuesAt constructor (parameter.yield members constructor owner classifiers constructorLevel
        memberLevel index).symbols =
      [(parameter.introduction owner classifiers index).symbol] := by
  rw [yield, ← List.singleton_append, valuesAt_append, valuesAt_singleton_self,
    valuesAt_eq_nil (by simpa using fun _ _ => different.symm), List.append_nil]

theorem valuesAt_members_yieldAll (different : constructor ≠ members)
    (constructorLevel memberLevel : List (Symbol Descriptor)) (index : Nat)
    (parameters : List ConstructorParameter) :
    valuesAt members (yieldAll members constructor owner classifiers constructorLevel memberLevel
        index parameters).symbols =
      (properties owner classifiers parameters).map Introduction.symbol := by
  induction parameters generalizing constructorLevel memberLevel index with
  | nil => rfl
  | cons first rest ih =>
      rw [yieldAll, Yield.symbols_append, valuesAt_append, ih,
        valuesAt_members_yield different, properties_cons, List.map_append]

theorem valuesAt_constructor_yieldAll (different : constructor ≠ members)
    (constructorLevel memberLevel : List (Symbol Descriptor)) (index : Nat)
    (parameters : List ConstructorParameter) :
    valuesAt constructor (yieldAll members constructor owner classifiers constructorLevel
        memberLevel index parameters).symbols =
      (introductions owner classifiers index parameters).map Introduction.symbol := by
  induction parameters generalizing constructorLevel memberLevel index with
  | nil => rfl
  | cons first rest ih =>
      rw [yieldAll, Yield.symbols_append, valuesAt_append, ih,
        valuesAt_constructor_yield different, introductions, List.map_cons, List.singleton_append]

/-- What constructor parameters introduce is no classifier and lies in the scopes of the
constructor and of the members. -/
theorem mem_symbols_yield {constructorLevel memberLevel : List (Symbol Descriptor)} {index : Nat}
    {parameter : ConstructorParameter} :
    ∀ entry ∈ (parameter.yield members constructor owner classifiers constructorLevel
        memberLevel index).symbols,
      entry.2.kind.isClassifier = false ∧ (entry.1 = constructor ∨ entry.1 = members) := by
  intro entry isEntry
  rcases List.mem_cons.mp isEntry with rfl | isProperty
  · exact ⟨rfl, .inl rfl⟩
  · obtain ⟨property, isOne, rfl⟩ := List.mem_map.mp isProperty
    rw [Option.mem_toList, ConstructorParameter.property] at isOne
    obtain ⟨binding, -, rfl⟩ := Option.map_eq_some_iff.mp isOne
    exact ⟨rfl, .inr rfl⟩

theorem mem_symbols_yieldAll {constructorLevel memberLevel : List (Symbol Descriptor)}
    {index : Nat} {parameters : List ConstructorParameter} :
    ∀ entry ∈ (yieldAll members constructor owner classifiers constructorLevel memberLevel index
        parameters).symbols,
      entry.2.kind.isClassifier = false ∧ (entry.1 = constructor ∨ entry.1 = members) := by
  induction parameters generalizing constructorLevel memberLevel index with
  | nil =>
      intro entry isEntry
      cases isEntry
  | cons first rest ih =>
      rw [yieldAll, Yield.symbols_append]
      exact List.forall_mem_append.mpr ⟨mem_symbols_yield, ih⟩

end Tree.ConstructorParameter

namespace ResolutionState

variable {state : ResolutionState}

theorem lays_constructorParameters (state : ResolutionState)
    (constructorParameters : Table NodeRef Descriptor) :
    state.Lays {} { state with constructorParameters } :=
  { Lays.refl state with }

theorem lays_nameConstructorParameter (constructor : Nat) (owner : ClassDescriptor)
    (classifiers : Classifiers) (index : Nat) (parameter : ConstructorParameter)
    (state : ResolutionState) :
    state.Lays
      { remarks := (parameter.introduction owner classifiers index).clash
          (state.scopes.symbolsOf constructor)
        symbols := [(constructor, (parameter.introduction owner classifiers index).symbol)]
        parameters := [(owner.constructor, parameter.describe classifiers index)] }
      ((nameConstructorParameter constructor owner (Node.constructorParameter parameter).ref
        (parameter.describe classifiers index)).run state).2 := by
  have change : (fun entry : ClassEntry =>
      { entry with parameters := entry.parameters ++ [parameter.describe classifiers index] }) =
        ClassEntry.extend [parameter.describe classifiers index] [] := by
    funext entry
    simp [ClassEntry.extend]
  have grown := state.lays_updateClass owner.constructor [parameter.describe classifiers index] []
  rw [nameConstructorParameter, change, run_bind]
  have sameSymbols : ((updateClass owner.constructor
      (ClassEntry.extend [parameter.describe classifiers index] [])).run state).2.scopes =
        state.scopes := by
    rw [run_updateClass]
  generalize ((updateClass owner.constructor
    (ClassEntry.extend [parameter.describe classifiers index] [])).run state).2 = updated
      at grown sameSymbols ⊢
  have known := updated.lays_constructorParameters (updated.constructorParameters.insert
    (Node.constructorParameter parameter).ref
      (parameter.introduction owner classifiers index).symbol.descriptor)
  have defined := lays_define { updated with
    constructorParameters := updated.constructorParameters.insert
      (Node.constructorParameter parameter).ref
        (parameter.introduction owner classifiers index).symbol.descriptor }
    constructor (parameter.introduction owner classifiers index)
  rw [← sameSymbols]
  exact (grown.trans known).trans defined

variable {members constructor : Nat}

theorem lays_introduceProperty (members : Nat) (owner : ClassDescriptor) (property : Introduction)
    (state : ResolutionState) :
    state.Lays
      { remarks := property.clash (state.scopes.symbolsOf members) ++ [property.declared]
        symbols := [(members, property.symbol)]
        members := [(owner.constructor, property.symbol.descriptor)] }
      ((introduceProperty members owner property).run state).2 := by
  have added := state.lays_addMember (some owner) property.symbol.descriptor
  have defined := lays_introduce
    ((addMember (some owner) property.symbol.descriptor).run state).2 members property
  have sameSymbols : ((addMember (some owner) property.symbol.descriptor).run
      state).2.scopes = state.scopes := by
    rw [addMember, run_updateClass]
  rw [sameSymbols] at defined
  exact (added.trans defined).cast rfl (fun _ _ => rfl) rfl rfl (fun _ => id) fun _ => id

theorem lays_declareConstructorParameter (header : Nat) (owner : ClassDescriptor)
    (different : constructor ≠ members) (index : Nat)
    (parameter : ConstructorParameter) (state : ResolutionState)
    (inside : members < state.scopes.size) :
    state.Lays
      (parameter.yield members constructor owner (state.classifiers header)
        (state.scopes.symbolsOf constructor) (state.scopes.symbolsOf members) index)
      ((declareConstructorParameter header members constructor owner index parameter).run
        state).2 := by
  rw [declareConstructorParameter, run_bind, run_resolveType]
  have resolved := state.lays_remarkAll (parameter.type.remarks (state.classifiers header))
  have named := resolved.trans (lays_nameConstructorParameter constructor owner
    (state.classifiers header) index parameter _)
  rw [(state.settles_remarkAll _).scopes] at named
  dsimp only
  rw [run_bind]
  change state.Lays _ ((_ : Resolver Unit).run
    ((nameConstructorParameter constructor owner (Node.constructorParameter parameter).ref
      (parameter.describe (state.classifiers header) index)).run
        (state.remarkAll (parameter.type.remarks (state.classifiers header)))).2).2
  generalize ((nameConstructorParameter constructor owner (Node.constructorParameter parameter).ref
    (parameter.describe (state.classifiers header) index)).run
      (state.remarkAll (parameter.type.remarks (state.classifiers header)))).2 = middle at named ⊢
  cases binding : parameter.binding with
  | none =>
      refine (named.trans (lays_declare middle
        (parameter.introduction owner (state.classifiers header) index))).cast ?_ ?_ rfl ?_
          (by simp) (by simp)
      · simp [ConstructorParameter.yield, ConstructorParameter.remarks,
          ConstructorParameter.property, ConstructorParameter.declared, binding]
      · intro number _
        simp [ConstructorParameter.yield, ConstructorParameter.property, binding]
      · simp [ConstructorParameter.yield, ConstructorParameter.property, binding]
  | some kind =>
      have isProperty := parameter.property_eq_some owner (state.classifiers header) binding
      have introduced := lays_introduceProperty members owner
        (parameter.introduceAs owner (state.classifiers header) kind) middle
      have memberSymbols : middle.scopes.symbolsOf members = state.scopes.symbolsOf members := by
        rw [named.symbols members inside, valuesAt_eq_nil, List.append_nil]
        simpa using different
      rw [memberSymbols] at introduced
      refine (named.trans introduced).cast ?_ ?_ rfl ?_ (by simp) (by simp)
      · simp [ConstructorParameter.yield, ConstructorParameter.remarks,
          ConstructorParameter.declared, isProperty]
      · intro number _
        simp [ConstructorParameter.yield, isProperty]
      · simp [ConstructorParameter.yield, isProperty]

theorem lays_declareConstructorParameters (header : Nat) (owner : ClassDescriptor)
    (different : constructor ≠ members) (parameters : List ConstructorParameter) (index : Nat)
    (state : ResolutionState)
    (headerInside : header < state.scopes.size) (inside : members < state.scopes.size)
    (constructorInside : constructor < state.scopes.size) :
    state.Lays
      (ConstructorParameter.yieldAll members constructor owner (state.classifiers header)
        (state.scopes.symbolsOf constructor) (state.scopes.symbolsOf members) index parameters)
      ((declareConstructorParameters header members constructor owner index parameters).run
        state).2 := by
  induction parameters generalizing state index with
  | nil => exact .refl state
  | cons first rest ih =>
      have laysFirst :=
        lays_declareConstructorParameter header owner different index first state inside
      rw [declareConstructorParameters_cons, run_bind]
      generalize ((declareConstructorParameter header members constructor owner index first).run
        state).2 = middle at laysFirst ⊢
      have laysRest := ih (index + 1) middle (headerInside.trans_le laysFirst.size)
        (inside.trans_le laysFirst.size) (constructorInside.trans_le laysFirst.size)
      rw [laysFirst.classifiers_eq headerInside fun entry isEntry _ =>
          (ConstructorParameter.mem_symbols_yield entry isEntry).1,
        laysFirst.symbolsOf_eq_append constructorInside
          (ConstructorParameter.valuesAt_constructor_yield different _ _ _ _),
        laysFirst.symbolsOf_eq_append inside
          (ConstructorParameter.valuesAt_members_yield different _ _ _ _)] at laysRest
      exact laysFirst.trans laysRest

end ResolutionState

/-! ### Classes -/

namespace Tree.Class

/-- The levels that are seen from a member of a class before those of the file. -/
def levels (classifiers : Classifiers) (declaration : Tree.Class) (member : Member) :
    List (List (Symbol Descriptor)) :=
  member.levels (some declaration.describe) (declaration.inner classifiers)
      [declaration.constructorLevel classifiers] ++
    [(declaration.memberIntroductions classifiers).map Introduction.symbol,
      declaration.header.map Introduction.symbol]

/-- What is added where the members of a class are declared. -/
def yield (classifiers : Classifiers) (declaration : Tree.Class) : Yield where
  remarks := declaration.contentRemarks classifiers
  parameters :=
    (ConstructorParameter.describeAll (declaration.inner classifiers) 0
      declaration.constructorParameters).map
        fun described => (declaration.describe.constructor, described)
  members := (declaration.memberIntroductions classifiers).map
    fun member => (declaration.describe.constructor, member.symbol.descriptor)
  nodes := declaration.members.map fun member => member.node.ref

end Tree.Class

namespace ResolutionState

variable {state : ResolutionState} {scope middle outer : Nat}
  {levels others : List (List (Symbol Descriptor))}

theorem Reaches.classifiers_eq (reaches : state.Reaches scope outer levels) :
    state.classifiers scope =
      levels.foldr (fun level outer => Classifiers.inside outer level)
        (state.classifiers outer) := by
  obtain ⟨-, -, numbers, chain, -, symbols⟩ := reaches
  rw [classifiers_eq_foldr, classifiers_eq_foldr, chain, List.map_append, List.foldr_append,
    symbols]

/-- What is seen from a member goes on with what is seen from around it. -/
theorem Placed.widen {member : Member} (placed : state.Placed member middle levels)
    (reaches : state.Reaches middle outer others) :
    state.Placed member outer (levels ++ others) := by
  obtain ⟨scope, isScope, reachesMiddle, deferred⟩ := placed
  exact ⟨scope, isScope, reachesMiddle.trans reaches, deferred⟩

/-- A class has a header and an empty entry. -/
structure Headed (state : ResolutionState) (declaration : Tree.Class) : Prop where
  declared : state.declarations.get? (Node.class declaration).ref =
    some (.class declaration.describe)
  header : ∃ header, state.headerScopes.get? (Node.class declaration).ref = some header ∧
    state.Reaches header fileScope [declaration.header.map Introduction.symbol]
  entry : state.classes.get? declaration.describe.constructor =
    some { descriptor := declaration.describe }

/-- The state in which the scopes of a class are open. -/
def openingClass (state : ResolutionState) (header : Nat) (name : String) : ResolutionState :=
  { state with
    scopes := (state.scopes.openIn header ("members of " ++ name) "class").openIn
      state.scopes.size ("constructor of " ++ name) "constructor" }

section OpeningClass

variable {header : Nat} (inside : header < state.scopes.size) (name : String)

theorem lays_openingClass (state : ResolutionState) (header : Nat) (name : String) :
    state.Lays {} (state.openingClass header name) :=
  (state.lays_openScope header ("members of " ++ name) "class").trans
    (lays_openScope _ state.scopes.size ("constructor of " ++ name) "constructor")

theorem symbolsOf_openingClass (state : ResolutionState) (header : Nat) (name : String) :
    (state.openingClass header name).scopes.symbolsOf state.scopes.size = [] ∧
      (state.openingClass header name).scopes.symbolsOf (state.scopes.size + 1) = [] := by
  constructor
  · rw [openingClass, Scopes.symbolsOf_openIn_of_lt _ _ _ (Nat.lt_succ_self _)]
    exact Scopes.symbolsOf_openIn_size _ _ _ _
  · exact Scopes.symbolsOf_openIn_size _ _ _ _

include inside in
theorem chain_openingClass :
    (state.openingClass header name).scopes.chain state.scopes.size =
        state.scopes.size :: (state.openingClass header name).scopes.chain header ∧
      (state.openingClass header name).scopes.chain (state.scopes.size + 1) =
        (state.scopes.size + 1) ::
          (state.openingClass header name).scopes.chain state.scopes.size := by
  have sameHeader := (state.lays_openingClass header name).chain header inside
  have members : (state.openingClass header name).scopes.chain state.scopes.size =
      (state.scopes.openIn header ("members of " ++ name) "class").chain state.scopes.size :=
    Scopes.chain_openIn_of_lt _ _ _ (Nat.lt_succ_self _)
  constructor
  · rw [sameHeader, members]
    exact Scopes.chain_openIn_size _ _ _ _
  · rw [members]
    exact Scopes.chain_openIn_size _ _ _ _

end OpeningClass

/-- The parameters of a constructor are declared in the scopes of a class. -/
structure Constructed (state : ResolutionState) (header : Nat) (declaration : Tree.Class)
    (opened : ResolutionState) : Prop where
  lays : state.Lays (ConstructorParameter.yieldAll state.scopes.size (state.scopes.size + 1)
    declaration.describe (declaration.inner (state.classifiers fileScope)) [] [] 0
      declaration.constructorParameters) opened
  inside : state.scopes.size < opened.scopes.size
  chain : opened.scopes.chain state.scopes.size =
    state.scopes.size :: opened.scopes.chain header
  level : opened.scopes.symbolsOf state.scopes.size =
    (declaration.properties (state.classifiers fileScope)).map Introduction.symbol
  constructor : opened.Reaches (state.scopes.size + 1) state.scopes.size
    [declaration.constructorLevel (state.classifiers fileScope)]
  classifiers : opened.classifiers state.scopes.size =
    declaration.inner (state.classifiers fileScope)

theorem constructed_openingClass (declaration : Tree.Class) {header : Nat}
    (reaches : state.Reaches header fileScope [declaration.header.map Introduction.symbol]) :
    state.Constructed header declaration
      ((declareConstructorParameters header state.scopes.size (state.scopes.size + 1)
        declaration.describe 0 declaration.constructorParameters).run
          (state.openingClass header declaration.name)).2 := by
  have inside := reaches.inside
  have opens := state.lays_openingClass header declaration.name
  obtain ⟨noMembers, noParameters⟩ := state.symbolsOf_openingClass header declaration.name
  obtain ⟨chainMembers, chainConstructor⟩ := chain_openingClass inside declaration.name
  have size : (state.openingClass header declaration.name).scopes.size =
      state.scopes.size + 2 := rfl
  have different : state.scopes.size + 1 ≠ state.scopes.size := by omega
  have classifiers : (state.openingClass header declaration.name).classifiers header =
      declaration.inner (state.classifiers fileScope) :=
    (opens.classifiers_eq inside (by simp)).trans reaches.classifiers_eq
  have lays := lays_declareConstructorParameters header declaration.describe different
    declaration.constructorParameters 0 (state.openingClass header declaration.name)
    (by omega) (by omega) (by omega)
  rw [classifiers, noMembers, noParameters] at lays
  generalize ((declareConstructorParameters header state.scopes.size (state.scopes.size + 1)
    declaration.describe 0 declaration.constructorParameters).run
      (state.openingClass header declaration.name)).2 = opened at lays ⊢
  have chain : opened.scopes.chain state.scopes.size =
      state.scopes.size :: opened.scopes.chain header := by
    rw [lays.chain _ (by omega), chainMembers, lays.chain header (by omega)]
  have level : opened.scopes.symbolsOf state.scopes.size =
      (declaration.properties (state.classifiers fileScope)).map Introduction.symbol := by
    rw [lays.symbolsOf_eq_append (by omega)
      (ConstructorParameter.valuesAt_members_yieldAll different _ _ _ _), noMembers]
    rfl
  have sameHeader : opened.classifiers header =
      declaration.inner (state.classifiers fileScope) := by
    rw [← classifiers]
    exact lays.classifiers_eq (by omega) fun entry isEntry _ =>
      (ConstructorParameter.mem_symbols_yieldAll entry isEntry).1
  refine ⟨opens.trans lays, (show _ < _ by omega).trans_le lays.size, chain, level, ?_, ?_⟩
  · apply Reaches.of_chain ((show _ < _ by omega).trans_le lays.size) (by omega)
    · rw [lays.chain _ (by omega), chainConstructor, lays.chain state.scopes.size (by omega)]
    · rw [lays.symbolsOf_eq_append (by omega)
        (ConstructorParameter.valuesAt_constructor_yieldAll different _ _ _ _), noParameters]
      rfl
  · rw [classifiers_of_chain chain, level, sameHeader]
    apply Classifiers.inside_eq_self
    intro symbol isProperty
    rw [Class.properties, ← ConstructorParameter.valuesAt_members_yieldAll different [] [] 0]
      at isProperty
    exact (ConstructorParameter.mem_symbols_yieldAll _ (mem_of_mem_valuesAt isProperty)).1

/-- What is added in the scopes of a class is not seen from outside of it. -/
theorem Constructed.lays_members {declaration : Tree.Class} {header : Nat}
    {opened final : ResolutionState} (constructed : state.Constructed header declaration opened)
    (lays : opened.Lays
      (Member.yieldAll state.scopes.size (some declaration.describe)
        (declaration.inner (state.classifiers fileScope))
        ((declaration.properties (state.classifiers fileScope)).map Introduction.symbol)
        declaration.members) final) :
    state.Lays (declaration.yield (state.classifiers fileScope)) final := by
  refine (constructed.lays.trans lays).cast ?_ ?_ ?_ ?_ ?_ ?_
  · rw [Yield.remarks_append, ConstructorParameter.remarks_yieldAll]
    rfl
  · intro number inside
    rw [Yield.symbols_append, valuesAt_append, valuesAt_eq_nil, valuesAt_eq_nil]
    · rfl
    · intro entry isEntry
      obtain ⟨member, -, rfl⟩ := List.mem_map.mp isEntry
      exact inside.ne'
    · intro entry isEntry
      rcases (ConstructorParameter.mem_symbols_yieldAll entry isEntry).2 with isIn | isIn <;> omega
  · rw [Yield.parameters_append, ConstructorParameter.parameters_yieldAll]
    simp [Member.yieldAll, Class.yield]
  · rw [Yield.members_append, ConstructorParameter.members_yieldAll]
    simp only [Member.yieldAll, Class.yield, Class.memberIntroductions, Class.properties,
      List.map_append, List.map_map, Option.toList_some, List.map_singleton]
    exact congrArg _ (List.map_eq_flatMap ..).symm
  · rw [Yield.nodes_append, (ConstructorParameter.nodes_yieldAll _ _ _ _).1]
    exact fun _ => id
  · rw [Yield.classes_append, (ConstructorParameter.nodes_yieldAll _ _ _ _).2]
    exact fun _ => id

theorem lays_declareClassMembers (declaration : Tree.Class) (state : ResolutionState)
    (headed : state.Headed declaration)
    (once : (declaration.members.map fun member => member.node.ref).Nodup)
    (notDeferred : ∀ member ∈ declaration.members,
      state.deferred.get? member.node.ref = none) :
    state.Lays (declaration.yield (state.classifiers fileScope))
        ((declareClassMembers declaration).run state).2 ∧
      ∀ member ∈ declaration.members,
        ((declareClassMembers declaration).run state).2.Placed member fileScope
          (declaration.levels (state.classifiers fileScope) member) := by
  obtain ⟨header, isHeader, reachesHeader⟩ := headed.header
  have run : (declareClassMembers declaration).run state =
      (declareMembers state.scopes.size (state.scopes.size + 1) declaration.describe
        declaration.members).run
        ((declareConstructorParameters header state.scopes.size (state.scopes.size + 1)
          declaration.describe 0 declaration.constructorParameters).run
            (state.openingClass header declaration.name)).2 := by
    rw [declareClassMembers, run_get_bind, headed.declared, isHeader]
    rfl
  rw [run]
  have constructed := constructed_openingClass declaration reachesHeader
  generalize ((declareConstructorParameters header state.scopes.size (state.scopes.size + 1)
    declaration.describe 0 declaration.constructorParameters).run
      (state.openingClass header declaration.name)).2 = opened at constructed ⊢
  have stillNotDeferred : ∀ member ∈ declaration.members,
      opened.deferred.get? member.node.ref = none := by
    intro member isMember
    refine (congrArg Notes.deferred (constructed.lays.notes _ ?_)).trans
      (notDeferred member isMember)
    rw [(ConstructorParameter.nodes_yieldAll _ _ _ _).1]
    exact List.not_mem_nil
  obtain ⟨lays, placed⟩ := lays_declareMembers declaration.describe declaration.members
    opened constructed.constructor once stillNotDeferred
  rw [constructed.classifiers, constructed.level] at lays
  rw [constructed.classifiers] at placed
  generalize ((declareMembers state.scopes.size (state.scopes.size + 1) declaration.describe
    declaration.members).run opened).2 = final at lays placed ⊢
  have laysAll := constructed.lays_members lays
  refine ⟨laysAll, fun member isMember => (placed member isMember).widen ?_⟩
  have reachesMembers : final.Reaches state.scopes.size header
      [(declaration.memberIntroductions (state.classifiers fileScope)).map
        Introduction.symbol] := by
    apply Reaches.of_chain (constructed.inside.trans_le lays.size) reachesHeader.inside
    · rw [lays.chain _ constructed.inside, constructed.chain,
        lays.chain header (reachesHeader.inside.trans constructed.inside)]
    · rw [lays.symbolsOf_eq_append constructed.inside (valuesAt_map_self _ _), constructed.level,
        Class.memberIntroductions, List.map_append, List.map_map]
      rfl
  exact reachesMembers.trans (reachesHeader.mono laysAll (by simp [Class.yield]))

end ResolutionState

end Gloss
