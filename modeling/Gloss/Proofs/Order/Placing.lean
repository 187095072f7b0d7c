import Gloss.Proofs.Order.Laying
import Gloss.Proofs.Tree.Members

/-!
# Where members lie

Once a member is declared it has a scope, from which some levels of its own are seen
and then those of the scope in which it was declared.
-/

namespace Gloss

open Resolver Gloss.Tree

def Tree.Member.name : Member → String
  | .function declared => declared.name
  | .property declared => declared.name

namespace ResolutionState

variable {before middle after state : ResolutionState} {yield : Yield} {scope outer : Nat}

/-! ### Parameters -/

theorem lays_introduce (state : ResolutionState) (scope : Nat) (introduction : Introduction) :
    state.Lays
      { remarks := introduction.clash (state.scopes.symbolsOf scope) ++ [introduction.declared]
        symbols := [(scope, introduction.symbol)] }
      ((declare introduction.node introduction.symbol.descriptor).run
        ((define scope introduction.symbol introduction.node).run state).2).2 :=
  (state.lays_define scope introduction).trans (lays_declare _ introduction)

theorem Lays.symbolsOf_eq_append {symbols : List (Symbol Descriptor)} (lays : before.Lays yield after)
    (inside : scope < before.scopes.size)
    (added : valuesAt scope yield.symbols = symbols) :
    after.scopes.symbolsOf scope = before.scopes.symbolsOf scope ++ symbols := by
  rw [lays.symbols scope inside, added]

theorem run_declareTypeParameters (container : Option String) (parameters : List TypeParameter)
    (state : ResolutionState) (inside : scope < state.scopes.size) :
    ((declareTypeParameters scope container parameters).run state).1 =
        parameters.map (TypeParameter.describe container) ∧
      state.Lays
        { remarks := Introduction.remarksOfAll (state.scopes.symbolsOf scope)
            (parameters.map (TypeParameter.introduction container))
          symbols := (parameters.map (TypeParameter.introduction container)).map
            fun introduction => (scope, introduction.symbol) }
        ((declareTypeParameters scope container parameters).run state).2 := by
  induction parameters generalizing state with
  | nil => exact ⟨rfl, .refl state⟩
  | cons parameter rest ih =>
      have introduced := state.lays_introduce scope (parameter.introduction container)
      obtain ⟨values, lays⟩ := ih _ (inside.trans_le introduced.size)
      rw [introduced.symbolsOf_eq_append inside (valuesAt_singleton_self _ _)] at lays
      refine ⟨congrArg (_ :: ·) values, ?_⟩
      refine (introduced.trans lays).cast ?_ (fun _ _ => rfl) rfl rfl (fun _ => id) fun _ => id
      exact List.append_assoc _ _ _

theorem lays_declareParameters (function : FunctionDescriptor)
    (described : List (ValueParameter × ParameterDescriptor)) (state : ResolutionState)
    (inside : scope < state.scopes.size) :
    state.Lays
      { remarks := parameterRemarks (state.classifiers scope) function
          (state.scopes.symbolsOf scope) described
        symbols := (described.map (parameterIntroduction function)).map
          fun introduction => (scope, introduction.symbol) }
      ((declareParameters scope function described).run state).2 := by
  induction described generalizing state with
  | nil => exact .refl state
  | cons first rest ih =>
      have resolved := state.lays_remarkAll (first.1.type.remarks (state.classifiers scope))
      have introduced := resolved.trans (lays_introduce _ scope (parameterIntroduction function first))
      have lays := ih _ (inside.trans_le introduced.size)
      rw [introduced.symbolsOf_eq_append inside (valuesAt_singleton_self _ _),
        introduced.classifiers_eq inside (by simp [parameterIntroduction, SymbolKind.isClassifier])]
        at lays
      rw [(state.settles_remarkAll _).scopes] at introduced
      obtain ⟨parameter, descriptor⟩ := first
      rw [declareParameters, run_bind, run_resolveType]
      refine (introduced.trans lays).cast ?_ (fun _ _ => rfl) rfl rfl (fun _ => id) fun _ => id
      simp [parameterRemarks]

theorem run_resolveType? (type : Option TypeRef) (state : ResolutionState) :
    (resolveType? scope type).run state =
      (type.map (TypeRef.denote (state.classifiers scope)),
        state.remarkAll (TypeRef.remarksOf? (state.classifiers scope) type)) := by
  cases type with
  | none => rfl
  | some type =>
      rw [resolveType?, run_bind, run_resolveType]
      rfl

/-! ### Levels of their own -/

/-- From a scope some levels are seen, and then those of an outer scope. -/
structure Reaches (state : ResolutionState) (scope outer : Nat)
    (levels : List (List (Symbol Descriptor))) : Prop where
  inside : scope < state.scopes.size
  around : outer ≤ scope
  chain : ∃ numbers, state.scopes.chain scope = numbers ++ state.scopes.chain outer ∧
    (∀ number ∈ numbers, outer < number ∧ number < state.scopes.size) ∧
      numbers.map state.scopes.symbolsOf = levels

variable {levels others : List (List (Symbol Descriptor))} {middleScope : Nat}

theorem Reaches.refl (inside : scope < state.scopes.size) : state.Reaches scope scope [] :=
  ⟨inside, le_rfl, [], rfl, nofun, rfl⟩

theorem Reaches.trans (reaches : state.Reaches scope middleScope levels)
    (later : state.Reaches middleScope outer others) :
    state.Reaches scope outer (levels ++ others) := by
  obtain ⟨inside, around, numbers, chain, between, symbols⟩ := reaches
  obtain ⟨-, aroundLater, outerNumbers, outerChain, outerBetween, outerSymbols⟩ := later
  refine ⟨inside, aroundLater.trans around, numbers ++ outerNumbers, ?_, ?_, ?_⟩
  · rw [chain, outerChain, List.append_assoc]
  · refine List.forall_mem_append.mpr ⟨fun number isNumber => ?_, outerBetween⟩
    obtain ⟨above, below⟩ := between number isNumber
    exact ⟨aroundLater.trans_lt above, below⟩
  · rw [List.map_append, symbols, outerSymbols]

/-- A scope is seen before the scope around it. -/
theorem Reaches.of_chain {level : List (Symbol Descriptor)} (inside : scope < state.scopes.size)
    (around : outer < scope)
    (chain : state.scopes.chain scope = scope :: state.scopes.chain outer)
    (symbols : state.scopes.symbolsOf scope = level) : state.Reaches scope outer [level] := by
  refine ⟨inside, around.le, [scope], chain, ?_, by simp [symbols]⟩
  exact List.forall_mem_singleton.mpr ⟨around, inside⟩

/-- Levels stay as they are while symbols are added to scopes around them. -/
theorem Reaches.mono (reaches : before.Reaches scope outer levels)
    (lays : before.Lays yield after) (apart : ∀ entry ∈ yield.symbols, entry.1 ≤ outer) :
    after.Reaches scope outer levels := by
  obtain ⟨inside, around, numbers, chain, between, symbols⟩ := reaches
  refine ⟨inside.trans_le lays.size, around, numbers, ?_, ?_, ?_⟩
  · rw [lays.chain scope inside, lays.chain outer (around.trans_lt inside), chain]
  · exact fun number isNumber =>
      ⟨(between number isNumber).1, (between number isNumber).2.trans_le lays.size⟩
  · rw [← symbols]
    apply List.map_congr_left
    intro number isNumber
    obtain ⟨above, below⟩ := between number isNumber
    rw [lays.symbols number below, valuesAt_eq_nil, List.append_nil]
    intro entry isEntry
    exact ((apart entry isEntry).trans_lt above).ne

/-- The scope from which the body of a member is checked. -/
def scopeOf? (state : ResolutionState) : Member → Option Nat
  | .function declared => state.functionScopes.get? (Node.function declared).ref
  | .property declared => state.initializerScopes.get? (Node.property declared).ref

end ResolutionState

namespace ResolutionState

variable {before middle after state : ResolutionState} {yield : Yield} {scope outer : Nat}
  {levels : List (List (Symbol Descriptor))} {member : Member}

/-- A member is declared: it sees some levels of its own, and its body is put off if it
decides a type. -/
def Placed (state : ResolutionState) (member : Member) (outer : Nat)
    (levels : List (List (Symbol Descriptor))) : Prop :=
  ∃ scope, state.scopeOf? member = some scope ∧ state.Reaches scope outer levels ∧
    state.deferred.get? member.node.ref =
      member.openBody?.map fun body => { name := member.name, body, scope }

theorem Placed.mono (placed : before.Placed member outer levels) (lays : before.Lays yield after)
    (apart : ∀ entry ∈ yield.symbols, entry.1 ≤ outer) (isOther : member.node.ref ∉ yield.nodes) :
    after.Placed member outer levels := by
  obtain ⟨scope, isScope, reaches, deferred⟩ := placed
  have same := lays.notes member.node.ref isOther
  simp only [notes, Notes.mk.injEq] at same
  obtain ⟨functions, initializers, sameDeferred⟩ := same
  refine ⟨scope, ?_, reaches.mono lays apart, sameDeferred.trans deferred⟩
  rw [← isScope]
  cases member with
  | function declared => exact functions
  | property declared => exact initializers

/-! ### Functions and properties -/

end ResolutionState

/-- Declares the head of a function in the scope that was opened for it. -/
def Resolver.declareHead (inner : Nat) (owner : Option ClassDescriptor)
    (function : Function) : Resolver FunctionDescriptor := do
  let typeParameters ← declareTypeParameters inner none function.typeParameters
  let state ← get
  let classifiers := state.classifiers inner
  let parameters := describeParameters classifiers function.parameters
  let descriptor : FunctionDescriptor :=
    { name := function.name, declaration := some (Node.function function).ref
      container := owner.map ClassDescriptor.name, typeParameters, parameters
      returnType := describeReturnType classifiers function }
  declareParameters inner descriptor (function.parameters.zip parameters)
  let _ ← resolveType? inner function.returnType
  return descriptor

/-- Declares the parameters of a function and resolves what it returns. -/
def Resolver.declareSignature (inner : Nat) (descriptor : FunctionDescriptor)
    (function : Function) (described : List (ValueParameter × ParameterDescriptor)) :
    Resolver FunctionDescriptor := do
  declareParameters inner descriptor described
  let _ ← resolveType? inner function.returnType
  return descriptor

/-- Introduces a member in a scope and to the class that it belongs to. -/
def Resolver.introduceMember (scope : Nat) (owner : Option ClassDescriptor)
    (introduction : Introduction) : Resolver Unit := do
  define scope introduction.symbol introduction.node
  addMember owner introduction.symbol.descriptor
  declare introduction.node introduction.symbol.descriptor

/-- The state in which the scope of a member is noted. -/
def ResolutionState.noting (state : ResolutionState) (scope : Nat) :
    Member → ResolutionState
  | .function declared =>
      { state with
        functionScopes := state.functionScopes.insert (Node.function declared).ref scope }
  | .property declared =>
      { state with
        initializerScopes := state.initializerScopes.insert (Node.property declared).ref scope }

/-- Puts the body of a member off if it decides a type. -/
def Resolver.deferBody (scope : Nat) (member : Member) : Resolver Unit :=
  match member.openBody? with
  | some body => defer member.node.ref member.name body scope
  | none => pure ()

theorem declareFunction_eq (scope : Nat) (owner : Option ClassDescriptor) (function : Function) :
    declareFunction scope owner function = (do
      let inner ← openScope scope ("fun " ++ function.name) "function"
      let descriptor ← declareHead inner owner function
      introduceMember scope owner
        { symbol := { name := function.name, kind := .function, descriptor := .function descriptor }
          node := (Node.function function).ref }
      modify fun state => state.noting inner (.function function)
      deferBody inner (.function function)) := by
  rw [declareFunction]
  simp only [declareHead, introduceMember, bind_assoc, pure_bind, deferBody, Member.openBody?]
  cases function.returnType <;> cases function.body <;> rfl

/-- The head of a property: what is clear of its type without its initializer. -/
def Resolver.declarePropertyHead (scope : Nat) (property : Property) :
    Resolver (Option NominalType) := do
  let written ← resolveType? scope property.type
  describePropertyType property written

theorem declareProperty_eq (scope initializerScope : Nat) (owner : Option ClassDescriptor)
    (property : Property) :
    declareProperty scope initializerScope owner property = (do
      let type ← declarePropertyHead scope property
      introduceMember scope owner
        { symbol :=
            { name := property.name, kind := .property
              descriptor := .variable (.property
                { name := property.name, declaration := some (Node.property property).ref
                  container := owner.map ClassDescriptor.name, type
                  binding := property.binding }) }
          node := (Node.property property).ref }
      modify fun state => state.noting initializerScope (.property property)
      deferBody initializerScope (.property property)) := by
  rw [declareProperty]
  simp only [declarePropertyHead, introduceMember, bind_assoc, deferBody, Member.openBody?]
  cases property.type <;> cases property.initializer <;> rfl

namespace ResolutionState

theorem lays_introduceMember (owner : Option ClassDescriptor) (introduction : Introduction)
    (state : ResolutionState) (scope : Nat) :
    state.Lays
      { remarks := introduction.clash (state.scopes.symbolsOf scope) ++ [introduction.declared]
        symbols := [(scope, introduction.symbol)]
        members := owner.toList.map fun owner =>
          (owner.constructor, introduction.symbol.descriptor) }
      ((introduceMember scope owner introduction).run state).2 := by
  have lays := ((state.lays_define scope introduction).trans
    (lays_addMember _ owner introduction.symbol.descriptor)).trans (lays_declare _ introduction)
  refine lays.cast ?_ (fun _ _ => rfl) rfl ?_ (fun _ => id) fun _ => id
  · simp
  · simp

theorem lays_declareSignature (descriptor : FunctionDescriptor) (function : Function)
    (described : List (ValueParameter × ParameterDescriptor)) {inner : Nat}
    (inside : inner < state.scopes.size) :
    ((declareSignature inner descriptor function described).run state).1 = descriptor ∧
      state.Lays
        { remarks := parameterRemarks (state.classifiers inner) descriptor
              (state.scopes.symbolsOf inner) described ++
            TypeRef.remarksOf? (state.classifiers inner) function.returnType
          symbols := (described.map (parameterIntroduction descriptor)).map
            fun introduction => (inner, introduction.symbol) }
        ((declareSignature inner descriptor function described).run state).2 := by
  have lays := lays_declareParameters descriptor described state inside
  have sameClassifiers := lays.classifiers_eq inside (by
    intro entry isEntry _
    simp only [List.map_map, List.mem_map] at isEntry
    obtain ⟨parameter, -, rfl⟩ := isEntry
    rfl)
  rw [declareSignature, run_bind, run_bind, run_resolveType?, sameClassifiers]
  refine ⟨rfl, (lays.trans (lays_remarkAll _ _)).cast rfl (fun number _ => ?_) rfl rfl
    (fun _ => id) fun _ => id⟩
  rw [Yield.symbols_append, List.append_nil]

/-- Inside of a function its type parameters come first. -/
theorem Lays.classifiers_eq_inner {state after : ResolutionState} {remarks : List Remark}
    {function : Function} {inner : Nat}
    (lays : state.Lays
      { remarks
        symbols := function.typeParameterIntroductions.map fun introduction =>
          (inner, introduction.symbol) } after)
    (inside : inner < state.scopes.size) (above : scope < inner)
    (chain : state.scopes.chain inner = inner :: state.scopes.chain scope)
    (noSymbols : state.scopes.symbolsOf inner = []) :
    after.scopes.symbolsOf inner = function.typeParameterIntroductions.map Introduction.symbol ∧
      after.classifiers inner = function.inner (state.classifiers scope) := by
  have symbols := lays.symbolsOf_eq_append inside (valuesAt_map_self _ _)
  rw [noSymbols, List.nil_append] at symbols
  have sameChain : after.scopes.chain inner = inner :: after.scopes.chain scope := by
    rw [lays.chain _ inside, chain, lays.chain _ (above.trans inside)]
  have sameOuter : after.classifiers scope = state.classifiers scope := by
    apply lays.classifiers_eq (above.trans inside)
    intro entry isEntry isOuter
    obtain ⟨introduction, -, rfl⟩ := List.mem_map.mp isEntry
    exact absurd isOuter above.not_ge
  refine ⟨symbols, ?_⟩
  rw [classifiers_of_chain sameChain, sameOuter, symbols]
  rfl

theorem lays_declareHead (owner : Option ClassDescriptor) (function : Function)
    {inner : Nat} (inside : inner < state.scopes.size) (above : scope < inner)
    (chain : state.scopes.chain inner = inner :: state.scopes.chain scope)
    (noSymbols : state.scopes.symbolsOf inner = []) :
    ((declareHead inner owner function).run state).1 =
        function.describe owner (state.classifiers scope) ∧
      state.Lays
        { remarks := function.headRemarks owner (state.classifiers scope)
          symbols := (function.level owner (state.classifiers scope)).map
            fun symbol => (inner, symbol) }
        ((declareHead inner owner function).run state).2 := by
  obtain ⟨typeParameters, laysGeneric⟩ :=
    run_declareTypeParameters none function.typeParameters state inside
  rw [declareHead, run_bind, typeParameters]
  generalize ((declareTypeParameters inner none function.typeParameters).run state).2 = generic
    at laysGeneric ⊢
  obtain ⟨symbols, classifiers⟩ :=
    laysGeneric.classifiers_eq_inner inside above chain noSymbols
  obtain ⟨descriptor, laysSignature⟩ := lays_declareSignature
    (function.describe owner (state.classifiers scope)) function
    (function.described owner (state.classifiers scope)) (inside.trans_le laysGeneric.size)
  rw [noSymbols] at laysGeneric
  rw [symbols, classifiers] at laysSignature
  rw [run_get_bind, classifiers]
  refine ⟨descriptor, (laysGeneric.trans laysSignature).cast ?_ ?_ rfl rfl (fun _ => id)
    fun _ => id⟩
  · simp [Function.headRemarks, Function.typeParameterIntroductions]
  · intro number _
    simp [Function.level, Function.typeParameterIntroductions, Function.comp_def]

end ResolutionState

namespace Tree.Member

/-- What is added where a member is declared in a scope. -/
def yield (scope : Nat) (owner : Option ClassDescriptor) (classifiers : Classifiers)
    (level : List (Symbol Descriptor)) (member : Member) : Yield where
  remarks := member.remarks owner classifiers level
  symbols := [(scope, (member.introduction owner classifiers).symbol)]
  members := owner.toList.map fun owner' =>
    (owner'.constructor, (member.introduction owner classifiers).symbol.descriptor)
  nodes := [member.node.ref]

/-- The levels that are seen from a member before those around it. -/
def levels (owner : Option ClassDescriptor) (classifiers : Classifiers)
    (initializer : List (List (Symbol Descriptor))) : Member → List (List (Symbol Descriptor))
  | .function declared => [declared.level owner classifiers]
  | .property _ => initializer

/-- What is added where members are declared in a scope. -/
def yieldAll (scope : Nat) (owner : Option ClassDescriptor)
    (classifiers : Classifiers) (level : List (Symbol Descriptor)) (members : List Member) :
    Yield where
  remarks := remarksOfAll owner classifiers level members
  symbols := members.map fun member => (scope, (member.introduction owner classifiers).symbol)
  members := members.flatMap fun member => owner.toList.map fun owner' =>
    (owner'.constructor, (member.introduction owner classifiers).symbol.descriptor)
  nodes := members.map fun member => member.node.ref

theorem isClassifier_introduction (member : Member)
    (owner : Option ClassDescriptor) (classifiers : Classifiers) :
    (member.introduction owner classifiers).symbol.kind.isClassifier = false := by
  cases member <;> rfl

end Tree.Member

namespace ResolutionState

theorem lays_noting (state : ResolutionState) (scope : Nat) (member : Member) :
    state.Lays { nodes := [member.node.ref] } (state.noting scope member) := by
  cases member with
  | function declared => exact state.lays_functionScope _ scope
  | property declared => exact state.lays_initializerScope _ scope

theorem scopeOf?_noting (state : ResolutionState) (scope : Nat) (member : Member) :
    (state.noting scope member).scopeOf? member = some scope := by
  cases member <;> simp [noting, scopeOf?, Table.get?_insert]

/-- Putting a body off, or not, keeps where a member lies. -/
theorem placed_deferBody (state : ResolutionState) {member : Member}
    (isScope : state.scopeOf? member = some scope) (reaches : state.Reaches scope outer levels)
    (notDeferred : state.deferred.get? member.node.ref = none) :
    state.Lays { nodes := [member.node.ref] } ((deferBody scope member).run state).2 ∧
      ((deferBody scope member).run state).2.Placed member outer levels := by
  unfold deferBody
  cases isBody : member.openBody? with
  | none =>
      refine ⟨(Lays.refl state).cast rfl (fun _ _ => rfl) rfl rfl (by simp) fun _ => id, ?_⟩
      exact ⟨scope, isScope, reaches, by rw [isBody]; exact notDeferred⟩
  | some body =>
      have lays := state.lays_defer member.node.ref { name := member.name, body, scope }
      have run : ((defer member.node.ref member.name body scope).run state).2 =
          { state with
            deferred := state.deferred.insert member.node.ref
              { name := member.name, body, scope } } := rfl
      dsimp only
      rw [run]
      refine ⟨lays, scope, ?_, reaches.mono lays (by simp), ?_⟩
      · rw [← isScope]
        cases member <;> rfl
      · rw [isBody, Table.get?_insert, if_pos rfl]
        rfl

/-- The state in which a member is declared, once its head is. -/
def introducing (head : ResolutionState) (scope : Nat) (owner : Option ClassDescriptor)
    (introduction : Introduction) (own : Nat) (member : Member) : ResolutionState :=
  ((deferBody own member).run
    (((introduceMember scope owner introduction).run head).2.noting own member)).2

theorem placed_introducing {state head : ResolutionState} {own : Nat} {remarks : List Remark}
    {symbols : List (Nat × Symbol Descriptor)} (owner : Option ClassDescriptor)
    (classifiers : Classifiers) (member : Member) (inside : scope < state.scopes.size)
    (lays : state.Lays { remarks, symbols } head)
    (isHead : remarks = member.headRemarks owner classifiers)
    (above : ∀ entry ∈ symbols, scope < entry.1 ∧ state.scopes.size ≤ entry.1)
    (reaches : head.Reaches own scope levels)
    (notDeferred : state.deferred.get? member.node.ref = none) :
    state.Lays (member.yield scope owner classifiers (state.scopes.symbolsOf scope))
        (head.introducing scope owner (member.introduction owner classifiers) own member) ∧
      (head.introducing scope owner (member.introduction owner classifiers) own member).Placed
        member scope levels := by
  have sameSymbols : head.scopes.symbolsOf scope = state.scopes.symbolsOf scope := by
    rw [lays.symbols scope inside, valuesAt_eq_nil, List.append_nil]
    exact fun entry isEntry => (above entry isEntry).1.ne'
  have laysMember := lays_introduceMember owner (member.introduction owner classifiers) head scope
  rw [sameSymbols] at laysMember
  have laysNoted := lays_noting
    ((introduceMember scope owner (member.introduction owner classifiers)).run head).2 own member
  have laysBefore := (lays.trans laysMember).trans laysNoted
  have stillNotDeferred := (congrArg Notes.deferred
    ((lays.trans laysMember).notes member.node.ref (by simp))).trans notDeferred
  obtain ⟨laysLast, placed⟩ := placed_deferBody _ (scopeOf?_noting _ own member)
    ((reaches.mono laysMember (by simp)).mono laysNoted (by simp)) (by
      rw [← stillNotDeferred]
      cases member <;> rfl)
  refine ⟨(laysBefore.trans laysLast).cast ?_ ?_ rfl ?_ ?_ ?_, placed⟩
  · simp [Member.yield, Member.remarks, isHead]
  · intro number isInside
    have : valuesAt number symbols = [] :=
      valuesAt_eq_nil fun entry isEntry => (isInside.trans_le (above entry isEntry).2).ne'
    simp [Member.yield, valuesAt_append, this]
  · simp [Member.yield]
  · simp [Member.yield]
  · simp

theorem lays_declareFunction (owner : Option ClassDescriptor) (function : Function)
    (state : ResolutionState) (inside : scope < state.scopes.size)
    (notDeferred : state.deferred.get? (Node.function function).ref = none) :
    state.Lays
        ((Member.function function).yield scope owner (state.classifiers scope)
          (state.scopes.symbolsOf scope))
        ((declareFunction scope owner function).run state).2 ∧
      ((declareFunction scope owner function).run state).2.Placed (.function function) scope
        [function.level owner (state.classifiers scope)] := by
  let opened : ResolutionState :=
    { state with scopes := state.scopes.openIn scope ("fun " ++ function.name) "function" }
  have opens : state.Lays {} opened := state.lays_openScope _ _ _
  have openedInside : state.scopes.size < opened.scopes.size := Nat.lt_succ_self _
  have isOpened : (openScope scope ("fun " ++ function.name) "function").run state =
      (state.scopes.size, opened) := rfl
  have sameClassifiers : opened.classifiers scope = state.classifiers scope :=
    opens.classifiers_eq inside (by simp)
  have openedChain : opened.scopes.chain state.scopes.size =
      state.scopes.size :: opened.scopes.chain scope := by
    rw [opens.chain scope inside]
    exact Scopes.chain_openIn_size _ _ _ _
  have noSymbols : opened.scopes.symbolsOf state.scopes.size = [] :=
    Scopes.symbolsOf_openIn_size _ _ _ _
  obtain ⟨value, laysHead⟩ :=
    lays_declareHead owner function openedInside inside openedChain noSymbols
  rw [sameClassifiers] at value laysHead
  rw [declareFunction_eq, run_bind, isOpened]
  dsimp only
  rw [run_bind, value]
  generalize ((declareHead state.scopes.size owner function).run opened).2 = head at laysHead ⊢
  have reaches : head.Reaches state.scopes.size scope
      [function.level owner (state.classifiers scope)] := by
    apply Reaches.of_chain (openedInside.trans_le laysHead.size) inside
    · rw [laysHead.chain _ openedInside, openedChain,
        laysHead.chain scope (inside.trans openedInside)]
    · rw [laysHead.symbolsOf_eq_append openedInside (valuesAt_map_self _ _), noSymbols]
      simp
  refine placed_introducing owner _ (.function function) inside (opens.trans laysHead) rfl ?_
    reaches notDeferred
  intro entry isEntry
  obtain ⟨symbol, -, rfl⟩ := List.mem_map.mp isEntry
  exact ⟨inside, le_rfl⟩

theorem run_declarePropertyHead (property : Property) (state : ResolutionState) :
    (declarePropertyHead scope property).run state =
      (property.describeType (state.classifiers scope),
        state.remarkAll (property.headRemarks (state.classifiers scope))) := by
  rw [declarePropertyHead, run_bind, run_resolveType?, Property.headRemarks, remarkAll_append]
  cases written : property.type <;> cases initialized : property.initializer <;>
    simp only [describePropertyType, Property.describeType, Property.missingType, written,
      initialized, Option.map_some, Option.map_none] <;> rfl

variable {initializerScope : Nat}

theorem lays_declareProperty (owner : Option ClassDescriptor) (property : Property)
    (state : ResolutionState) (inside : scope < state.scopes.size)
    (reaches : state.Reaches initializerScope scope levels)
    (notDeferred : state.deferred.get? (Node.property property).ref = none) :
    state.Lays
        ((Member.property property).yield scope owner (state.classifiers scope)
          (state.scopes.symbolsOf scope))
        ((declareProperty scope initializerScope owner property).run state).2 ∧
      ((declareProperty scope initializerScope owner property).run state).2.Placed
        (.property property) scope levels := by
  have laysHead := state.lays_remarkAll (property.headRemarks (state.classifiers scope))
  rw [declareProperty_eq, run_bind, run_declarePropertyHead]
  exact placed_introducing owner _ (.property property) inside laysHead rfl (by simp)
    (reaches.mono laysHead (by simp)) notDeferred

/-- A member is declared in a scope, where the initializers of properties see some
levels more. -/
theorem lays_declareMember (owner : Option ClassDescriptor) (member : Member)
    (state : ResolutionState) (reaches : state.Reaches initializerScope scope levels)
    (notDeferred : state.deferred.get? member.node.ref = none) :
    state.Lays
        (member.yield scope owner (state.classifiers scope) (state.scopes.symbolsOf scope))
        ((declareMember scope initializerScope owner member).run state).2 ∧
      ((declareMember scope initializerScope owner member).run state).2.Placed member scope
        (member.levels owner (state.classifiers scope) levels) := by
  have inside := reaches.around.trans_lt reaches.inside
  cases member with
  | function declared => exact lays_declareFunction owner declared state inside notDeferred
  | property declared =>
      exact lays_declareProperty owner declared state inside reaches notDeferred

theorem lays_declareMembers (owner : ClassDescriptor) (members : List Member)
    (state : ResolutionState) (reaches : state.Reaches initializerScope scope levels)
    (once : (members.map fun member => member.node.ref).Nodup)
    (notDeferred : ∀ member ∈ members, state.deferred.get? member.node.ref = none) :
    state.Lays
        (Member.yieldAll scope (some owner) (state.classifiers scope)
          (state.scopes.symbolsOf scope) members)
        ((declareMembers scope initializerScope owner members).run state).2 ∧
      ∀ member ∈ members,
        ((declareMembers scope initializerScope owner members).run state).2.Placed member scope
          (member.levels (some owner) (state.classifiers scope) levels) := by
  induction members generalizing state with
  | nil => exact ⟨.refl state, nofun⟩
  | cons first rest ih =>
      have inside := reaches.around.trans_lt reaches.inside
      obtain ⟨isNew, onceRest⟩ := List.nodup_cons.mp once
      obtain ⟨notDeferredFirst, notDeferredRest⟩ := List.forall_mem_cons.mp notDeferred
      obtain ⟨laysFirst, placedFirst⟩ :=
        lays_declareMember (some owner) first state reaches notDeferredFirst
      rw [declareMembers, run_bind]
      generalize ((declareMember scope initializerScope (some owner) first).run state).2 = middle
        at laysFirst placedFirst ⊢
      have sameClassifiers : middle.classifiers scope = state.classifiers scope := by
        apply laysFirst.classifiers_eq inside
        rintro entry isEntry -
        rw [List.mem_singleton.mp isEntry]
        exact first.isClassifier_introduction _ _
      have stillNotDeferred : ∀ member ∈ rest, middle.deferred.get? member.node.ref = none := by
        intro member isMember
        have isOther : member.node.ref ∉ [first.node.ref] := by
          rw [List.mem_singleton]
          exact fun same => isNew (List.mem_map.mpr ⟨member, isMember, same⟩)
        exact (congrArg Notes.deferred (laysFirst.notes _ isOther)).trans
          (notDeferredRest member isMember)
      obtain ⟨laysRest, placedRest⟩ := ih middle (reaches.mono laysFirst (by simp [Member.yield]))
        onceRest stillNotDeferred
      rw [sameClassifiers, laysFirst.symbolsOf_eq_append inside (valuesAt_singleton_self _ _)]
        at laysRest
      rw [sameClassifiers] at placedRest
      refine ⟨laysFirst.trans laysRest, ?_⟩
      refine List.forall_mem_cons.mpr ⟨placedFirst.mono laysRest ?_ isNew, placedRest⟩
      intro entry isEntry
      obtain ⟨member, -, rfl⟩ := List.mem_map.mp isEntry
      exact le_rfl

end ResolutionState

end Gloss
