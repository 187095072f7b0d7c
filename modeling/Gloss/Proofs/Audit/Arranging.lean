import Gloss.Proofs.Audit.Mirrors
import Gloss.Proofs.Audit.Soundness
import Gloss.Proofs.Resolution.Declaring

/-!
# Steps that arrange what names mean

While declarations are made, scopes are opened, symbols are defined and classes
get members.  Such a step makes no entry that an audit counts, loses nothing
that was declared, and keeps the meanings of names sound.
-/

namespace Gloss

namespace Descriptor

variable {descriptor : Descriptor} {node : NodeRef}

theorem Introduces.exists_class (introduces : descriptor.Introduces node)
    (kind : node.kind = .class) : ∃ declared, descriptor = .class declared := by
  have fits := introduces.2
  cases descriptor with
  | «class» declared => exact ⟨declared, rfl⟩
  | «variable» holder => cases holder <;> simp [kind] at fits
  | typeParameter | function => simp [kind] at fits
  | specialized | invoke | error => exact fits.elim

theorem Introduces.exists_function (introduces : descriptor.Introduces node)
    (kind : node.kind = .function) : ∃ declared, descriptor = .function declared := by
  have fits := introduces.2
  cases descriptor with
  | function declared => exact ⟨declared, rfl⟩
  | «variable» holder => cases holder <;> simp [kind] at fits
  | typeParameter | «class» => simp [kind] at fits
  | specialized | invoke | error => exact fits.elim

theorem Introduces.exists_variable (introduces : descriptor.Introduces node)
    (kind : node.kind = .property) : ∃ holder, descriptor = .variable holder := by
  have fits := introduces.2
  cases descriptor with
  | «variable» holder => exact ⟨holder, rfl⟩
  | typeParameter | «class» | function => simp [kind] at fits
  | specialized | invoke | error => exact fits.elim

end Descriptor

namespace ResolutionState

variable {promised : List NodeRef} {before middle after : ResolutionState} {node : NodeRef}

/-- What was declared still is, and the scopes of declarations are still known. -/
structure Retains (before after : ResolutionState) : Prop where
  declarations : before.declarations.keys ⊆ after.declarations.keys
  headerScopes : ∀ node, (before.headerScopes.get? node).isSome →
    (after.headerScopes.get? node).isSome
  functionScopes : ∀ node, (before.functionScopes.get? node).isSome →
    (after.functionScopes.get? node).isSome
  initializerScopes : ∀ node, (before.initializerScopes.get? node).isSome →
    (after.initializerScopes.get? node).isSome

theorem Retains.refl (state : ResolutionState) : state.Retains state :=
  ⟨fun _ known => known, fun _ known => known, fun _ known => known, fun _ known => known⟩

theorem Retains.trans (retains : before.Retains middle) (later : middle.Retains after) :
    before.Retains after where
  declarations := List.Subset.trans retains.declarations later.declarations
  headerScopes node known := later.headerScopes node (retains.headerScopes node known)
  functionScopes node known := later.functionScopes node (retains.functionScopes node known)
  initializerScopes node known :=
    later.initializerScopes node (retains.initializerScopes node known)

theorem Retains.of_eq (declarations : after.declarations = before.declarations)
    (headerScopes : after.headerScopes = before.headerScopes)
    (functionScopes : after.functionScopes = before.functionScopes)
    (initializerScopes : after.initializerScopes = before.initializerScopes) :
    before.Retains after where
  declarations := by rw [declarations]; exact List.Subset.refl _
  headerScopes node known := by rwa [headerScopes]
  functionScopes node known := by rwa [functionScopes]
  initializerScopes node known := by rwa [initializerScopes]

theorem Agrees.retains (agrees : before.Agrees after) : before.Retains after :=
  .of_eq agrees.declarations agrees.headerScopes agrees.functionScopes agrees.initializerScopes

theorem Retains.exists_get? (retains : before.Retains after) {descriptor : Descriptor}
    (found : before.declarations.get? node = some descriptor) : ∃ descriptor,
      after.declarations.get? node = some descriptor := by
  have known := retains.declarations (Table.mem_keys_of_get? found)
  rw [← Option.isSome_iff_exists, Option.isSome_iff_ne_none]
  exact fun none => Table.get?_eq_none_iff.mp none known

/-- A class can still have its members declared. -/
theorem ReadyClass.retained {declaration : Tree.Class} (ready : before.ReadyClass declaration)
    (retains : before.Retains after) (firm : after.Firm promised) :
    after.ReadyClass declaration := by
  obtain ⟨⟨owner, found⟩, header⟩ := ready
  obtain ⟨descriptor, stillFound⟩ := retains.exists_get? found
  obtain ⟨owner, rfl⟩ := (firm.declared _ _ stillFound).1.exists_class rfl
  exact ⟨⟨owner, stillFound⟩, retains.headerScopes _ header⟩

/-- A member can still have its body checked. -/
theorem ReadyMember.retained {member : Tree.Member} (ready : before.ReadyMember member)
    (retains : before.Retains after) (firm : after.Firm promised) :
    after.ReadyMember member := by
  cases member with
  | function function =>
      obtain ⟨⟨declared, found⟩, scope⟩ := ready
      obtain ⟨descriptor, stillFound⟩ := retains.exists_get? found
      obtain ⟨declared, rfl⟩ := (firm.declared _ _ stillFound).1.exists_function rfl
      exact ⟨⟨declared, stillFound⟩, retains.functionScopes _ scope⟩
  | property property =>
      obtain ⟨⟨declared, found⟩, scope⟩ := ready
      obtain ⟨descriptor, stillFound⟩ := retains.exists_get? found
      obtain ⟨holder, rfl⟩ := (firm.declared _ _ stillFound).1.exists_variable rfl
      exact ⟨⟨holder, stillFound⟩, retains.initializerScopes _ scope⟩

/-- Scopes and classes are arranged, and nothing else that an audit looks at. -/
structure Arranges (promised : List NodeRef) (before after : ResolutionState) : Prop where
  firm : before.Firm promised → after.Firm promised
  retains : before.Retains after
  bindings : after.bindings = before.bindings
  types : after.types = before.types
  declarations : after.declarations = before.declarations
  deferred : after.deferred = before.deferred
  inferred : after.inferred = before.inferred

theorem Arranges.refl (state : ResolutionState) : state.Arranges promised state :=
  ⟨id, .refl state, rfl, rfl, rfl, rfl, rfl⟩

theorem Arranges.trans (arranges : before.Arranges promised middle)
    (later : middle.Arranges promised after) : before.Arranges promised after where
  firm firm := later.firm (arranges.firm firm)
  retains := arranges.retains.trans later.retains
  bindings := later.bindings.trans arranges.bindings
  types := later.types.trans arranges.types
  declarations := later.declarations.trans arranges.declarations
  deferred := later.deferred.trans arranges.deferred
  inferred := later.inferred.trans arranges.inferred

theorem arranges_define (state : ResolutionState) (scope : Nat) {symbol : Symbol Descriptor}
    (declaring : NodeRef) (sound : symbol.Sound promised) :
    state.Arranges promised ((Resolver.define scope symbol declaring).run state).2 := by
  rw [run_define]
  refine ⟨fun firm => ?_, .of_eq rfl rfl rfl rfl, rfl, rfl, rfl, rfl, rfl⟩
  refine ⟨?_, firm.classes, firm.declared, firm.inferred, firm.deferredOnce⟩
  intro level inScopes found inLevel
  rcases Scopes.mem_symbols_of_define inScopes inLevel with rfl | ⟨older, inOlder, inBefore⟩
  · exact sound
  · exact firm.symbols older inOlder found inBefore

theorem arranges_openScope (state : ResolutionState) (parent : Nat) (name kind : String) :
    state.Arranges promised ((Resolver.openScope parent name kind).run state).2 := by
  refine ⟨fun firm => ?_, .of_eq rfl rfl rfl rfl, rfl, rfl, rfl, rfl, rfl⟩
  refine ⟨?_, firm.classes, firm.declared, firm.inferred, firm.deferredOnce⟩
  intro level inScopes found inLevel
  rcases List.mem_cons.mp inScopes with rfl | inBefore
  · cases inLevel
  · exact firm.symbols level inBefore found inLevel

/-- A class is entered anew, be it with other members than before. -/
theorem arranges_insertClass (state : ResolutionState) (constructor : TypeConstructor)
    {entry : ClassEntry} (sound : state.Firm promised → entry.Sound promised) :
    state.Arranges promised
      { state with classes := state.classes.insert constructor entry } := by
  refine ⟨fun firm => ?_, .of_eq rfl rfl rfl rfl, rfl, rfl, rfl, rfl, rfl⟩
  refine ⟨firm.symbols, ?_, firm.declared, firm.inferred, firm.deferredOnce⟩
  intro other known found
  rw [Table.get?_insert] at found
  split at found
  · cases found
    exact sound firm
  · exact firm.classes other known found

theorem arranges_updateClass (state : ResolutionState) (constructor : TypeConstructor)
    {change : ClassEntry → ClassEntry}
    (sound : ∀ entry : ClassEntry, entry.Sound promised → (change entry).Sound promised) :
    state.Arranges promised ((Resolver.updateClass constructor change).run state).2 := by
  cases found : state.classes.get? constructor with
  | none =>
      rw [run_updateClass_of_none found]
      exact .refl state
  | some entry =>
      rw [run_updateClass_of_some found]
      exact arranges_insertClass state constructor fun firm =>
        sound entry (firm.classes constructor entry found)

theorem arranges_addMember (state : ResolutionState) (owner : Option ClassDescriptor)
    {member : Descriptor} (sound : member.Sound promised) :
    state.Arranges promised ((Resolver.addMember owner member).run state).2 := by
  cases owner with
  | none => exact .refl state
  | some owner =>
      apply arranges_updateClass
      intro entry soundEntry
      refine ⟨fun other inEntry => ?_, soundEntry.parameters⟩
      rcases List.mem_append.mp inEntry with before | isMember
      · exact soundEntry.members other before
      · exact List.mem_singleton.mp isMember ▸ sound

theorem arranges_headerScope (state : ResolutionState) (declaration : NodeRef) (scope : Nat) :
    state.Arranges promised
      { state with headerScopes := state.headerScopes.insert declaration scope } :=
  ⟨fun firm => ⟨firm.symbols, firm.classes, firm.declared, firm.inferred, firm.deferredOnce⟩,
    ⟨fun _ known => known, fun _ known => Table.isSome_get?_insert scope known,
      fun _ known => known, fun _ known => known⟩, rfl, rfl, rfl, rfl, rfl⟩

theorem arranges_functionScope (state : ResolutionState) (function : NodeRef) (scope : Nat) :
    state.Arranges promised
      { state with functionScopes := state.functionScopes.insert function scope } :=
  ⟨fun firm => ⟨firm.symbols, firm.classes, firm.declared, firm.inferred, firm.deferredOnce⟩,
    ⟨fun _ known => known, fun _ known => known,
      fun _ known => Table.isSome_get?_insert scope known, fun _ known => known⟩,
    rfl, rfl, rfl, rfl, rfl⟩

theorem arranges_initializerScope (state : ResolutionState) (property : NodeRef) (scope : Nat) :
    state.Arranges promised
      { state with initializerScopes := state.initializerScopes.insert property scope } :=
  ⟨fun firm => ⟨firm.symbols, firm.classes, firm.declared, firm.inferred, firm.deferredOnce⟩,
    ⟨fun _ known => known, fun _ known => known, fun _ known => known,
      fun _ known => Table.isSome_get?_insert scope known⟩, rfl, rfl, rfl, rfl, rfl⟩

/-- A class without members is known, and so is the scope of its header. -/
theorem arranges_addClass (state : ResolutionState) (descriptor : ClassDescriptor)
    (declaration : NodeRef) (header : Nat) :
    state.Arranges promised
      { state with
        classes := state.classes.insert descriptor.constructor { descriptor }
        headerScopes := state.headerScopes.insert declaration header } := by
  have memberless : ({ descriptor } : ClassEntry).Sound promised :=
    ⟨fun _ none => absurd none List.not_mem_nil, fun _ none => absurd none List.not_mem_nil⟩
  exact (arranges_insertClass state descriptor.constructor fun _ => memberless).trans
    (arranges_headerScope _ declaration header)

theorem arranges_nameConstructorParameter (state : ResolutionState) (constructor : Nat)
    (owner : ClassDescriptor) (node : NodeRef) {described : ParameterDescriptor}
    (saturated : described.type.isSaturated = true) :
    state.Arranges promised
      ((Resolver.nameConstructorParameter constructor owner node described).run state).2 := by
  have sound : (Descriptor.variable (.parameter (.class owner) described)).Sound promised :=
    ⟨saturated, fun leavesOpen => leavesOpen.elim⟩
  have entered : state.Arranges promised
      ((Resolver.updateClass owner.constructor fun entry =>
        { entry with parameters := entry.parameters ++ [described] }).run state).2 := by
    apply arranges_updateClass
    intro entry soundEntry
    refine ⟨soundEntry.members, fun parameter inEntry => ?_⟩
    rcases List.mem_append.mp inEntry with before | isLast
    · exact soundEntry.parameters parameter before
    · exact List.mem_singleton.mp isLast ▸ saturated
  have inserted (state : ResolutionState) : state.Arranges promised
      { state with
        constructorParameters := state.constructorParameters.insert node
          (.variable (.parameter (.class owner) described)) } :=
    ⟨fun firm => ⟨firm.symbols, firm.classes, firm.declared, firm.inferred, firm.deferredOnce⟩,
      .of_eq rfl rfl rfl rfl, rfl, rfl, rfl, rfl, rfl⟩
  refine (entered.trans (inserted _)).trans ?_
  exact arranges_define _ constructor node ⟨sound, fun isClassifier => Bool.noConfusion isClassifier⟩

end ResolutionState

end Gloss
