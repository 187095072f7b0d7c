import Gloss.Proofs.Resolution.Progress
import Gloss.Resolution.Declarations

/-!
# Runs that declare

A step is followed from a given state.  While names already mean what a node is
only about to declare, the advance is still counted from the state before that;
the declaration closes the gap.
-/

namespace Gloss

namespace ResolutionState

variable {before after : ResolutionState} {node : NodeRef} {meanings : List Descriptor}

/-- A change of scopes and classes alone. -/
theorem names_of_scopes (state : ResolutionState) (scopes : Scopes Descriptor)
    (classes : Table TypeConstructor ClassEntry) (diagnostics : List Diagnostic)
    (mentioned : ∀ descriptor,
      { state with scopes, classes, diagnostics : ResolutionState }.Mentions descriptor →
        descriptor ∈ meanings ∨ state.Mentions descriptor) :
    state.Names node meanings { state with scopes, classes, diagnostics } :=
  ⟨mentioned, fun _ => .inl rfl, rfl, fun _ known => known, fun _ known => known,
    fun _ known => known, rfl, rfl, rfl⟩

/-- Apart from what is reported, a definition changes the scopes. -/
theorem run_define (state : ResolutionState) (scope : Nat) (symbol : Symbol Descriptor)
    (declaring : NodeRef) :
    ((Resolver.define scope symbol declaring).run state).2 =
      { state with
        scopes := state.scopes.define scope symbol
        diagnostics := ((Resolver.define scope symbol declaring).run state).2.diagnostics } := by
  simp only [Resolver.define]
  cases conflict : state.scopes.conflict? scope symbol <;>
    simp [StateT.run_bind, conflict] <;> rfl

theorem names_define (state : ResolutionState) (scope : Nat) (symbol : Symbol Descriptor)
    (declaring : NodeRef) (isMeaning : symbol.descriptor ∈ meanings) :
    state.Names node meanings ((Resolver.define scope symbol declaring).run state).2 := by
  rw [run_define]
  apply names_of_scopes state
  intro descriptor given
  rcases given with ⟨level, inScopes, found, inLevel, rfl⟩ | ofClass
  · rcases Scopes.mem_symbols_of_define inScopes inLevel with rfl | ⟨older, inOlder, inBefore⟩
    · exact .inl isMeaning
    · exact .inr (.inl ⟨older, inOlder, found, inBefore, rfl⟩)
  · exact .inr (.inr ofClass)

theorem run_updateClass_of_none {state : ResolutionState} {constructor : TypeConstructor}
    (missing : state.classes.get? constructor = none) (change : ClassEntry → ClassEntry) :
    ((Resolver.updateClass constructor change).run state).2 = state := by
  simp only [Resolver.updateClass, StateT.run_modify, missing]
  rfl

theorem run_updateClass_of_some {state : ResolutionState} {constructor : TypeConstructor}
    {entry : ClassEntry} (found : state.classes.get? constructor = some entry)
    (change : ClassEntry → ClassEntry) :
    ((Resolver.updateClass constructor change).run state).2 =
      { state with classes := state.classes.insert constructor (change entry) } := by
  simp only [Resolver.updateClass, StateT.run_modify, found]
  rfl

/-- Nothing but the classes changes with a class. -/
theorem run_updateClass (state : ResolutionState) (constructor : TypeConstructor)
    (change : ClassEntry → ClassEntry) :
    ((Resolver.updateClass constructor change).run state).2 =
      { state with
        classes := ((Resolver.updateClass constructor change).run state).2.classes } := by
  cases found : state.classes.get? constructor with
  | none => rw [run_updateClass_of_none found]
  | some entry => rw [run_updateClass_of_some found]

theorem names_updateClass (state : ResolutionState) (constructor : TypeConstructor)
    (change : ClassEntry → ClassEntry)
    (members : ∀ entry, ∀ member ∈ (change entry).members,
      member ∈ meanings ∨ member ∈ entry.members) :
    state.Names node meanings ((Resolver.updateClass constructor change).run state).2 := by
  cases found : state.classes.get? constructor with
  | none =>
      rw [run_updateClass_of_none found]
      exact .refl state
  | some entry =>
      rw [run_updateClass_of_some found]
      apply names_of_scopes
      intro descriptor given
      rcases given with ofScope | ⟨other, known, foundOther, inKnown⟩
      · exact .inr (.inl ofScope)
      · simp only [Table.get?_insert] at foundOther
        split at foundOther
        · rw [Option.some.injEq] at foundOther
          subst foundOther
          exact (members entry descriptor inKnown).imp_right fun inEntry =>
            .inr ⟨constructor, entry, found, inEntry⟩
        · exact .inr (.inr ⟨other, known, foundOther, inKnown⟩)

theorem names_addMember (state : ResolutionState) (owner : Option ClassDescriptor)
    {member : Descriptor} (isMeaning : member ∈ meanings) :
    state.Names node meanings ((Resolver.addMember owner member).run state).2 := by
  cases owner with
  | none => exact .refl state
  | some descriptor =>
      apply names_updateClass
      intro entry other inEntry
      rcases List.mem_append.mp inEntry with before | isMember
      · exact .inr before
      · exact .inl (List.mem_singleton.mp isMember ▸ isMeaning)

theorem names_openScope (state : ResolutionState) (parent : Nat) (name kind : String) :
    state.Names node meanings ((Resolver.openScope parent name kind).run state).2 := by
  apply names_of_scopes state (state.scopes.openIn parent name kind) state.classes
    state.diagnostics
  intro descriptor given
  rcases given with ⟨level, inScopes, found, inLevel, rfl⟩ | ofClass
  · rcases List.mem_cons.mp inScopes with rfl | inBefore
    · cases inLevel
    · exact .inr (.inl ⟨level, inBefore, found, inLevel, rfl⟩)
  · exact .inr (.inr ofClass)

/-- A class without members gives no name a meaning. -/
theorem names_addClass (state : ResolutionState) (constructor : TypeConstructor)
    (entry : ClassEntry) (memberless : entry.members = []) (declaration : NodeRef)
    (header : Nat) :
    state.Names node meanings
      { state with
        classes := state.classes.insert constructor entry
        headerScopes := state.headerScopes.insert declaration header } := by
  refine ⟨?_, fun _ => .inl rfl, rfl, fun _ known => Table.isSome_get?_insert header known,
    fun _ known => known, fun _ known => known, rfl, rfl, rfl⟩
  intro descriptor given
  rcases given with ofScope | ⟨other, known, found, inKnown⟩
  · exact .inr (.inl ofScope)
  · simp only [Table.get?_insert] at found
    split at found
    · rw [Option.some.injEq] at found
      rw [← found, memberless] at inKnown
      cases inKnown
    · exact .inr (.inr ⟨other, known, found, inKnown⟩)

theorem names_functionScope (state : ResolutionState) (function : NodeRef) (scope : Nat) :
    state.Names node meanings
      { state with functionScopes := state.functionScopes.insert function scope } :=
  ⟨fun _ mentioned => .inr mentioned, fun _ => .inl rfl, rfl, fun _ known => known,
    fun _ known => Table.isSome_get?_insert scope known, fun _ known => known, rfl, rfl, rfl⟩

theorem names_initializerScope (state : ResolutionState) (property : NodeRef) (scope : Nat) :
    state.Names node meanings
      { state with initializerScopes := state.initializerScopes.insert property scope } :=
  ⟨fun _ mentioned => .inr mentioned, fun _ => .inl rfl, rfl, fun _ known => known,
    fun _ known => known, fun _ known => Table.isSome_get?_insert scope known, rfl, rfl, rfl⟩

/-- A constructor parameter becomes known shortly before it is declared. -/
theorem names_insertParameter (state : ResolutionState) {parameter : Descriptor}
    (introduces : parameter.Introduces node) (kind : node.kind = .constructorParameter) :
    state.Names node meanings
      { state with
        constructorParameters := state.constructorParameters.insert node parameter } := by
  refine ⟨fun _ mentioned => .inr mentioned, ?_, rfl, fun _ known => known,
    fun _ known => known, fun _ known => known, rfl, rfl, rfl⟩
  intro other
  by_cases same : node = other
  · subst same
    exact .inr ⟨rfl, kind, parameter, introduces, by simp [Table.get?_insert]⟩
  · exact .inl (by simp [Table.get?_insert, same])

section ConstructorParameters

variable {owner : ClassDescriptor} {described : ParameterDescriptor}

theorem names_nameConstructorParameter (state : ResolutionState) (constructor : Nat)
    (introduces : (Descriptor.variable (.parameter (.class owner) described)).Introduces node)
    (kind : node.kind = .constructorParameter)
    (isMeaning : .variable (.parameter (.class owner) described) ∈ meanings) :
    state.Names node meanings
      ((Resolver.nameConstructorParameter constructor owner node described).run state).2 := by
  have entered : state.Names node meanings
      ((Resolver.updateClass owner.constructor fun entry =>
        { entry with parameters := entry.parameters ++ [described] }).run state).2 :=
    names_updateClass state _ _ fun _ _ => .inr
  exact (entered.trans (names_insertParameter _ introduces kind)).trans
    (names_define _ constructor _ node isMeaning)

theorem get?_nameConstructorParameter (state : ResolutionState) (constructor : Nat)
    (owner : ClassDescriptor) (node : NodeRef) (described : ParameterDescriptor) :
    ((Resolver.nameConstructorParameter constructor owner node described).run
      state).2.constructorParameters.get? node =
        some (.variable (.parameter (.class owner) described)) := by
  have afterwards := congrArg constructorParameters (run_define
    { ((Resolver.updateClass owner.constructor fun entry =>
        { entry with parameters := entry.parameters ++ [described] }).run state).2 with
      constructorParameters := ((Resolver.updateClass owner.constructor fun entry =>
        { entry with parameters := entry.parameters ++ [described] }).run
          state).2.constructorParameters.insert node
            (.variable (.parameter (.class owner) described)) }
    constructor
    { name := described.name, kind := .parameter
      descriptor := .variable (.parameter (.class owner) described) } node)
  refine (congrArg (fun table => Table.get? table node) afterwards).trans ?_
  rw [Table.get?_insert, if_pos rfl]

/-- The state in which a constructor parameter with a binding is named, as a
parameter in the constructor and as a property elsewhere. -/
def namingProperty (state : ResolutionState) (constructor members : Nat) (node : NodeRef)
    (owner : ClassDescriptor) (described : ParameterDescriptor) (property : Descriptor) :
    ResolutionState :=
  let named := ((Resolver.nameConstructorParameter constructor owner node described).run state).2
  let added := ((Resolver.addMember (some owner) property).run named).2
  ((Resolver.define members { name := described.name, kind := .property, descriptor := property }
    node).run added).2

theorem names_namingProperty (state : ResolutionState) (constructor members : Nat)
    (property : Descriptor)
    (introduces : (Descriptor.variable (.parameter (.class owner) described)).Introduces node)
    (kind : node.kind = .constructorParameter) :
    state.Names node [.variable (.parameter (.class owner) described), property]
      (state.namingProperty constructor members node owner described property) := by
  have isProperty : property ∈ [.variable (.parameter (.class owner) described), property] :=
    List.mem_cons_of_mem _ (List.mem_singleton_self property)
  apply Names.trans
    (names_nameConstructorParameter state constructor introduces kind List.mem_cons_self)
  exact (names_addMember _ (some owner) isProperty).trans (names_define _ members _ node isProperty)

theorem get?_namingProperty (state : ResolutionState) (constructor members : Nat)
    (owner : ClassDescriptor) (node : NodeRef) (described : ParameterDescriptor)
    (property : Descriptor) :
    (state.namingProperty constructor members node owner described
      property).constructorParameters.get? node =
        some (.variable (.parameter (.class owner) described)) := by
  have defined := congrArg constructorParameters (run_define
    ((Resolver.addMember (some owner) property).run
      ((Resolver.nameConstructorParameter constructor owner node described).run state).2).2
    members { name := described.name, kind := .property, descriptor := property } node)
  have added := congrArg constructorParameters (run_updateClass
    ((Resolver.nameConstructorParameter constructor owner node described).run state).2
    owner.constructor fun entry => { entry with members := entry.members ++ [property] })
  have same := defined.trans added
  refine (congrArg (fun table => Table.get? table node) same).trans ?_
  exact get?_nameConstructorParameter state constructor owner node described

end ConstructorParameters

end ResolutionState

namespace Resolver

open ResolutionState

variable {α β : Type} {base state before : ResolutionState} {step : Resolver α}
  {next : α → Resolver β} {node : NodeRef} {meanings : List Descriptor}
  {descriptor : Descriptor} {declared postponed references : Multiset NodeRef}
  {laterDeclared laterPostponed laterReferences : Multiset NodeRef}
  {accept : α → ResolutionState → Prop} {acceptLast : β → ResolutionState → Prop}

/-- A step from one state that is counted from an earlier one. -/
def TakesFrom (base state : ResolutionState) (step : Resolver α)
    (declared postponed references : Multiset NodeRef)
    (accept : α → ResolutionState → Prop) : Prop :=
  base.Grounded → ((base.declarations.keys : Multiset NodeRef) + declared).Nodup →
    base.Advances declared postponed references (step.run state).2 ∧
      accept (step.run state).1 (step.run state).2

/-- A step that is counted from the state in which it begins. -/
abbrev Takes (before : ResolutionState) (step : Resolver α)
    (declared postponed references : Multiset NodeRef)
    (accept : α → ResolutionState → Prop) : Prop :=
  TakesFrom before before step declared postponed references accept

namespace Takes

theorem cast (takes : TakesFrom base state step declared postponed references accept)
    (sameDeclared : declared = laterDeclared) (samePostponed : postponed = laterPostponed)
    (sameReferences : references = laterReferences) :
    TakesFrom base state step laterDeclared laterPostponed laterReferences accept :=
  sameDeclared ▸ samePostponed ▸ sameReferences ▸ takes

theorem weaken (takes : TakesFrom base state step declared postponed references accept)
    {goal : α → ResolutionState → Prop} (weaker : ∀ value after, accept value after →
      goal value after) : TakesFrom base state step declared postponed references goal :=
  fun grounded distinct =>
    ⟨(takes grounded distinct).1, weaker _ _ (takes grounded distinct).2⟩

/-- Less may be put off than is counted. -/
theorem postpone (takes : TakesFrom base state step declared postponed references accept)
    (included : postponed ⊆ laterPostponed) :
    TakesFrom base state step declared laterPostponed references accept := by
  intro grounded distinct
  obtain ⟨advances, accepted⟩ := takes grounded distinct
  refine ⟨⟨advances.keeps, advances.declarations, ?_, advances.grounded, advances.entered⟩,
    accepted⟩
  exact fun node isOpen => (advances.opens node isOpen).imp_right fun put => included put

theorem bind (takes : Takes before step declared postponed references accept)
    (goesOn : ∀ value middle, before.Advances declared postponed references middle →
      accept value middle →
        Takes middle (next value) laterDeclared laterPostponed laterReferences acceptLast) :
    Takes before (step >>= next) (declared + laterDeclared) (postponed + laterPostponed)
      (references + laterReferences) acceptLast := by
  intro grounded distinct
  rw [← add_assoc] at distinct
  have distinctFirst := Multiset.nodup_of_le (Multiset.le_add_right _ _) distinct
  obtain ⟨advances, accepted⟩ := takes grounded distinctFirst
  rw [← advances.declarations] at distinct
  obtain ⟨laterAdvances, laterAccepted⟩ :=
    goesOn _ _ advances accepted advances.grounded distinct
  exact ⟨advances.trans laterAdvances, laterAccepted⟩

/-- What holds before a step holds after it, if it is kept. -/
theorem keeping {kept : ResolutionState → Prop}
    (mono : ∀ earlier later, earlier.Keeps later → kept earlier → kept later)
    (takes : Takes before step declared postponed references accept) (holds : kept before) :
    Takes before step declared postponed references
      fun value after => kept after ∧ accept value after := by
  intro grounded distinct
  obtain ⟨advances, accepted⟩ := takes grounded distinct
  exact ⟨advances, mono _ _ advances.keeps holds, accepted⟩

/-- What holds after a step holds after the next one too, if it is kept. -/
theorem bindKeeping {kept : ResolutionState → Prop}
    (mono : ∀ earlier later, earlier.Keeps later → kept earlier → kept later)
    (takes : Takes before step declared postponed references fun _ => kept)
    (goesOn : ∀ value middle, before.Advances declared postponed references middle →
      Takes middle (next value) laterDeclared laterPostponed laterReferences acceptLast) :
    Takes before (step >>= next) (declared + laterDeclared) (postponed + laterPostponed)
      (references + laterReferences) fun value after => kept after ∧ acceptLast value after :=
  takes.bind fun value middle advances holds => (goesOn value middle advances).keeping mono holds

/-- A step that leaves nothing to count and then another. -/
theorem after (takes : Takes before step 0 0 0 accept)
    (goesOn : ∀ value middle, before.Advances 0 0 0 middle → accept value middle →
      Takes middle (next value) declared postponed references acceptLast) :
    Takes before (step >>= next) declared postponed references acceptLast :=
  cast (takes.bind goesOn) (zero_add _) (zero_add _) (zero_add _)

/-- A step and then another that leaves nothing to count. -/
theorem andThen (takes : Takes before step declared postponed references accept)
    (goesOn : ∀ value middle, before.Advances declared postponed references middle →
      accept value middle → Takes middle (next value) 0 0 0 acceptLast) :
    Takes before (step >>= next) declared postponed references acceptLast :=
  cast (takes.bind goesOn) (add_zero _) (add_zero _) (add_zero _)

theorem of_pure {value : α} (accepted : accept value before) :
    Takes before (pure value) 0 0 0 accept :=
  fun grounded _ => ⟨((Accounts.of_pure trivial : Accounts before [] (pure value) 0 fun _ => True)
    before (.refl before)).1.advances grounded, accepted⟩

theorem of_get {goOn : ResolutionState → Resolver β}
    (takes : TakesFrom base state (goOn state) declared postponed references acceptLast) :
    TakesFrom base state (get >>= goOn) declared postponed references acceptLast :=
  takes

theorem of_accounts {accept : α → Prop}
    (accounts : before.Grounded → Accounts before [] step references accept) :
    Takes before step 0 0 references fun value _ => accept value := by
  intro grounded _
  obtain ⟨resolves, accepted⟩ := accounts grounded before (.refl before)
  exact ⟨resolves.advances grounded, accepted⟩

/-- A step that gives no name a meaning and declares nothing. -/
theorem of_names (names : ∀ node, before.Names node [] (step.run before).2)
    (same : (step.run before).2.constructorParameters = before.constructorParameters) :
    Takes before step 0 0 0 fun value after => step.run before = (value, after) :=
  fun grounded _ => ⟨(names ⟨.file, ⟨0, 0⟩⟩).advances grounded same, rfl⟩

/-- A step that only gives a meaning to a name. -/
theorem naming {first : Resolver Unit} {next : Unit → Resolver β}
    (takes : TakesFrom base (first.run state).2 (next ()) declared postponed references
      acceptLast) :
    TakesFrom base state (first >>= next) declared postponed references acceptLast :=
  takes

/-- The declaration of what names mean already. -/
theorem declaring {next : Unit → Resolver β} (names : base.Names node meanings state)
    (introduces : descriptor.Introduces node)
    (constructs : node.kind = .constructorParameter →
      (state.constructorParameters.get? node).isSome)
    (means : ∀ meaning ∈ meanings, (state.declaring node descriptor).Declares node meaning)
    (goesOn : (state.declaring node descriptor).declarations.get? node = some descriptor →
      node ∉ (state.declaring node descriptor).deferred.keys →
        Takes (state.declaring node descriptor) (next ()) declared postponed references
          acceptLast) :
    TakesFrom base state (declare node descriptor >>= next) ({node} + declared) postponed
      references acceptLast := by
  intro grounded distinct
  have new : node ∉ base.declarations.keys := by
    intro known
    have apart := (Multiset.nodup_add.mp distinct).2.2
    have isDeclared : node ∈ {node} + declared :=
      Multiset.mem_add.mpr (.inl (Multiset.mem_singleton_self node))
    exact Multiset.disjoint_left.mp apart (Multiset.mem_coe.mpr known) isDeclared
  have advances := names.advances_declaring grounded new introduces constructs means
  have notDeferred : node ∉ (state.declaring node descriptor).deferred.keys := by
    have same : (state.declaring node descriptor).deferred = base.deferred := names.deferred
    rw [same]
    intro put
    obtain ⟨known, found, -⟩ := grounded.deferred node put
    exact new (Table.mem_keys_of_get? found)
  rw [← add_assoc, ← advances.declarations] at distinct
  have found : (state.declaring node descriptor).declarations.get? node = some descriptor := by
    rw [get?_declaring, if_pos rfl]
  obtain ⟨later, accepted⟩ := goesOn found notDeferred advances.grounded distinct
  refine ⟨?_, accepted⟩
  have whole := advances.trans later
  rwa [zero_add, zero_add] at whole

/-- A declaration with nothing after it. -/
theorem declaringLast (names : base.Names node meanings state)
    (introduces : descriptor.Introduces node)
    (constructs : node.kind = .constructorParameter →
      (state.constructorParameters.get? node).isSome)
    (means : ∀ meaning ∈ meanings, (state.declaring node descriptor).Declares node meaning) :
    TakesFrom base state (declare node descriptor) {node} 0 0 fun _ _ => True := by
  have takes : TakesFrom base state (declare node descriptor >>= pure) ({node} + 0) 0 0
      fun _ _ => True :=
    declaring names introduces constructs means fun _ _ => .of_pure trivial
  rw [add_zero] at takes
  exact takes

end Takes

end Resolver

end Gloss
