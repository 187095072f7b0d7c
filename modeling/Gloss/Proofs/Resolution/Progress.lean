import Gloss.Proofs.Resolution.Steps

/-!
# Steps that declare

A step that declares something loses nothing of what was declared before.  It
declares some nodes, puts off the types of some of them, and enters some
references or leaves them pending; each of these adds up along a run.
-/

namespace Gloss

namespace ResolutionState

/-- What is declared stays declared. -/
structure Keeps (before after : ResolutionState) : Prop where
  declarations : ∀ node descriptor, before.declarations.get? node = some descriptor →
    after.declarations.get? node = some descriptor
  constructorParameters : ∀ node descriptor,
    before.constructorParameters.get? node = some descriptor →
      after.constructorParameters.get? node = some descriptor
  headerScopes : ∀ node, (before.headerScopes.get? node).isSome →
    (after.headerScopes.get? node).isSome
  functionScopes : ∀ node, (before.functionScopes.get? node).isSome →
    (after.functionScopes.get? node).isSome
  initializerScopes : ∀ node, (before.initializerScopes.get? node).isSome →
    (after.initializerScopes.get? node).isSome

/-- Some nodes are declared, some of them with types that may stay open, and
some references are accounted for. -/
structure Advances (before : ResolutionState)
    (declared postponed references : Multiset NodeRef) (after : ResolutionState) : Prop where
  keeps : before.Keeps after
  declarations : (after.declarations.keys : Multiset NodeRef) =
    before.declarations.keys + declared
  opens : ∀ node, after.IsOpen node → before.IsOpen node ∨ node ∈ postponed
  grounded : after.Grounded
  entered : after.Entered [] references before after

variable {before middle after : ResolutionState} {active : List NodeRef} {node : NodeRef}
  {declared postponed references : Multiset NodeRef}
  {laterDeclared laterPostponed laterReferences : Multiset NodeRef}

theorem Keeps.trans (keeps : before.Keeps middle) (later : middle.Keeps after) :
    before.Keeps after where
  declarations node descriptor found :=
    later.declarations node descriptor (keeps.declarations node descriptor found)
  constructorParameters node descriptor found :=
    later.constructorParameters node descriptor
      (keeps.constructorParameters node descriptor found)
  headerScopes node found := later.headerScopes node (keeps.headerScopes node found)
  functionScopes node found := later.functionScopes node (keeps.functionScopes node found)
  initializerScopes node found :=
    later.initializerScopes node (keeps.initializerScopes node found)

theorem Keeps.declares (keeps : before.Keeps after) (node : NodeRef) (descriptor : Descriptor)
    (declares : before.Declares node descriptor) : after.Declares node descriptor :=
  declares.imp (keeps.declarations node descriptor) (keeps.constructorParameters node descriptor)

theorem Entered.mono {backing later : ResolutionState}
    (entered : backing.Entered active references before after) (keeps : backing.Keeps later) :
    later.Entered active references before after := by
  obtain ⟨entries, bindings, backed, count⟩ := entered
  refine ⟨entries, bindings, ?_, count⟩
  intro entry member
  have backedBefore := backed entry member
  cases meaning : entry.2 with
  | target meant =>
      rw [meaning] at backedBefore
      exact Backs.mono backedBefore keeps.declares
  | ambiguous candidates => trivial
  | unresolved => trivial

theorem Advances.trans (advances : before.Advances declared postponed references middle)
    (later : middle.Advances laterDeclared laterPostponed laterReferences after) :
    before.Advances (declared + laterDeclared) (postponed + laterPostponed)
      (references + laterReferences) after where
  keeps := advances.keeps.trans later.keeps
  declarations := by
    rw [later.declarations, advances.declarations, add_assoc]
  opens := by
    intro node isOpen
    rw [Multiset.mem_add, ← or_assoc]
    exact (later.opens node isOpen).imp_left (advances.opens node)
  grounded := later.grounded
  entered := (advances.entered.mono later.keeps).trans later.entered

/-- Where nothing is declared, what is accounted for is an advance. -/
theorem Resolves.advances (resolves : before.Resolves [] references before after)
    (grounded : before.Grounded) : before.Advances 0 0 references after := by
  have agrees := resolves.agrees
  have keeps : before.Keeps after := by
    constructor
    · intro node descriptor found
      rw [agrees.declarations, found]
    · intro node descriptor found
      rw [agrees.constructorParameters, found]
    · intro node known
      rw [agrees.headerScopes]
      exact known
    · intro node known
      rw [agrees.functionScopes]
      exact known
    · intro node known
      rw [agrees.initializerScopes]
      exact known
  refine ⟨keeps, ?_, ?_, ⟨?_, ?_, ?_, ?_, ?_, ?_, ?_, ?_⟩, resolves.entered.mono keeps⟩
  · rw [agrees.declarations, add_zero]
  · intro node given
    obtain ⟨deferred, notInferred⟩ := given
    rw [agrees.deferred] at deferred
    refine .inl ⟨deferred, ?_⟩
    by_contra known
    have stillKnown := resolves.keepsInferred node (Option.isSome_iff_ne_none.mpr known)
    rw [notInferred] at stillKnown
    cases stillKnown
  · intro descriptor mentions
    rw [Mentions, agrees.scopes, agrees.classes] at mentions
    exact (grounded.mentioned descriptor mentions).mono keeps.declares
  · rw [agrees.declarations]
    exact grounded.declared
  · rw [agrees.constructorParameters, agrees.declarations]
    exact grounded.parameters
  · rw [agrees.constructorParameters, agrees.declarations]
    exact grounded.constructed
  · rw [agrees.constructorParameters]
    exact grounded.constructorOnly
  · rw [agrees.deferred, agrees.declarations]
    exact grounded.deferred
  · rw [agrees.deferred]
    exact grounded.deferredOnce
  · intro node known
    rw [agrees.deferred]
    exact (resolves.inferredDeferred node known).elim (grounded.inferred node) id

/-- What was settled stays settled where nothing more is put off. -/
theorem Advances.not_isOpen (advances : before.Advances declared 0 references after)
    (settled : ¬ before.IsOpen node) : ¬ after.IsOpen node :=
  fun isOpen => (advances.opens node isOpen).elim settled (Multiset.notMem_zero node)

/-- Names are given meanings that are yet to be declared at a node. -/
structure Names (before : ResolutionState) (node : NodeRef) (meanings : List Descriptor)
    (after : ResolutionState) : Prop where
  mentioned : ∀ descriptor, after.Mentions descriptor →
    descriptor ∈ meanings ∨ before.Mentions descriptor
  parameters : ∀ other, after.constructorParameters.get? other =
      before.constructorParameters.get? other ∨
    other = node ∧ node.kind = .constructorParameter ∧ ∃ parameter,
      parameter.Introduces node ∧ after.constructorParameters.get? node = some parameter
  declarations : after.declarations = before.declarations
  headerScopes : ∀ node, (before.headerScopes.get? node).isSome →
    (after.headerScopes.get? node).isSome
  functionScopes : ∀ node, (before.functionScopes.get? node).isSome →
    (after.functionScopes.get? node).isSome
  initializerScopes : ∀ node, (before.initializerScopes.get? node).isSome →
    (after.initializerScopes.get? node).isSome
  deferred : after.deferred = before.deferred
  inferred : after.inferred = before.inferred
  bindings : after.bindings = before.bindings

variable {meanings : List Descriptor} {descriptor : Descriptor}

theorem Names.refl (state : ResolutionState) : state.Names node meanings state :=
  ⟨fun _ mentioned => .inr mentioned, fun _ => .inl rfl, rfl, fun _ known => known,
    fun _ known => known, fun _ known => known, rfl, rfl, rfl⟩

theorem Names.trans (names : before.Names node meanings middle)
    (later : middle.Names node meanings after) : before.Names node meanings after where
  mentioned descriptor mentioned :=
    (later.mentioned descriptor mentioned).elim .inl (names.mentioned descriptor)
  parameters other := by
    rcases later.parameters other with same | isNode
    · rcases names.parameters other with sameBefore | ⟨rfl, kind, parameter, introduces, found⟩
      · exact .inl (same.trans sameBefore)
      · exact .inr ⟨rfl, kind, parameter, introduces, same.trans found⟩
    · exact .inr isNode
  declarations := later.declarations.trans names.declarations
  headerScopes node known := later.headerScopes node (names.headerScopes node known)
  functionScopes node known := later.functionScopes node (names.functionScopes node known)
  initializerScopes node known :=
    later.initializerScopes node (names.initializerScopes node known)
  deferred := later.deferred.trans names.deferred
  inferred := later.inferred.trans names.inferred
  bindings := later.bindings.trans names.bindings

theorem Names.pending (names : before.Names node meanings after) :
    after.pending active = before.pending active := by
  rw [ResolutionState.pending, ResolutionState.pending, names.inferred, names.deferred]

theorem Names.opens (names : before.Names node meanings after) (other : NodeRef)
    (isOpen : after.IsOpen other) : before.IsOpen other := by
  rwa [IsOpen, names.deferred, names.inferred] at isOpen

/-- Naming nothing new is an advance by nothing. -/
theorem Names.advances (names : before.Names node [] after) (grounded : before.Grounded)
    (same : after.constructorParameters = before.constructorParameters) :
    before.Advances 0 0 0 after := by
  have keeps : before.Keeps after := by
    refine ⟨?_, ?_, names.headerScopes, names.functionScopes, names.initializerScopes⟩
    · intro other descriptor found
      rw [names.declarations, found]
    · intro other descriptor found
      rw [same, found]
  refine ⟨keeps, ?_, fun other isOpen => .inl (names.opens other isOpen), ?_,
    .of_eq names.bindings names.pending⟩
  · rw [names.declarations, add_zero]
  · constructor
    · intro descriptor mentioned
      rcases names.mentioned descriptor mentioned with none | before
      · cases none
      · exact (grounded.mentioned descriptor before).mono keeps.declares
    · rw [names.declarations]
      exact grounded.declared
    · rw [same, names.declarations]
      exact grounded.parameters
    · rw [same, names.declarations]
      exact grounded.constructed
    · rw [same]
      exact grounded.constructorOnly
    · rw [names.deferred, names.declarations]
      exact grounded.deferred
    · rw [names.deferred]
      exact grounded.deferredOnce
    · rw [names.deferred, names.inferred]
      exact grounded.inferred

/-- The state in which a node declares a descriptor. -/
def declaring (state : ResolutionState) (node : NodeRef) (descriptor : Descriptor) :
    ResolutionState :=
  { state with declarations := state.declarations.insert node descriptor }

theorem get?_declaring (state : ResolutionState) (node other : NodeRef)
    (descriptor : Descriptor) :
    (state.declaring node descriptor).declarations.get? other =
      if node = other then some descriptor else state.declarations.get? other :=
  Table.get?_insert _ _ _ _

theorem declares_declaring (state : ResolutionState) (node : NodeRef)
    (descriptor : Descriptor) : (state.declaring node descriptor).Declares node descriptor :=
  .inl (by rw [get?_declaring, if_pos rfl])

theorem Names.keeps_declaring (names : before.Names node meanings middle)
    (grounded : before.Grounded) (new : node ∉ before.declarations.keys) :
    before.Keeps (middle.declaring node descriptor) := by
  refine ⟨?_, ?_, names.headerScopes, names.functionScopes, names.initializerScopes⟩
  · intro other known found
    rw [get?_declaring, if_neg, names.declarations, found]
    intro same
    subst same
    exact new (Table.mem_keys_of_get? found)
  · intro other known found
    rcases names.parameters other with same | ⟨rfl, -⟩
    · exact same.trans found
    · exact absurd (grounded.parameters other known found).2 new

/-- When a node declares the meanings that were given to names, all names mean
something that is declared again. -/
theorem Names.advances_declaring (names : before.Names node meanings middle)
    (grounded : before.Grounded) (new : node ∉ before.declarations.keys)
    (introduces : descriptor.Introduces node)
    (constructs : node.kind = .constructorParameter →
      (middle.constructorParameters.get? node).isSome)
    (means : ∀ meaning ∈ meanings, (middle.declaring node descriptor).Declares node meaning) :
    before.Advances {node} 0 0 (middle.declaring node descriptor) := by
  have keeps : before.Keeps (middle.declaring node descriptor) :=
    names.keeps_declaring grounded new
  have keys : (middle.declaring node descriptor).declarations.keys =
      before.declarations.keys ++ [node] := by
    rw [declaring, names.declarations, Table.keys_insert_of_notMem new]
  have declared : ∀ other known,
      (middle.declaring node descriptor).declarations.get? other = some known →
        known.Introduces other := by
    intro other known found
    rw [get?_declaring] at found
    split at found
    · next same =>
        rw [Option.some.injEq] at found
        exact same ▸ found ▸ introduces
    · exact grounded.declared other known (names.declarations ▸ found)
  have parameters : ∀ other known, middle.constructorParameters.get? other = some known →
      known.Introduces other ∧ other ∈ (middle.declaring node descriptor).declarations.keys := by
    intro other known found
    rw [keys, List.mem_append, List.mem_singleton]
    rcases names.parameters other with same | ⟨rfl, -, parameter, introducesParameter, isKnown⟩
    · obtain ⟨introducesKnown, isDeclared⟩ := grounded.parameters other known (same ▸ found)
      exact ⟨introducesKnown, .inl isDeclared⟩
    · rw [isKnown, Option.some.injEq] at found
      exact ⟨found ▸ introducesParameter, .inr rfl⟩
  have constructed : ∀ other ∈ (middle.declaring node descriptor).declarations.keys,
      other.kind = .constructorParameter → (middle.constructorParameters.get? other).isSome := by
    intro other known isConstructed
    rw [keys, List.mem_append, List.mem_singleton] at known
    rcases known with knownBefore | rfl
    · obtain ⟨parameter, found⟩ :=
        Option.isSome_iff_exists.mp (grounded.constructed other knownBefore isConstructed)
      exact Option.isSome_iff_exists.mpr ⟨parameter, keeps.constructorParameters other _ found⟩
    · exact constructs isConstructed
  have constructorOnly : ∀ other, (middle.constructorParameters.get? other).isSome →
      other.kind = .constructorParameter := by
    intro other known
    rcases names.parameters other with same | ⟨rfl, kind, -⟩
    · exact grounded.constructorOnly other (same ▸ known)
    · exact kind
  refine ⟨keeps, ?_, fun other isOpen => .inl (names.opens other isOpen), ?_,
    .of_eq names.bindings names.pending⟩
  · rw [keys, ← Multiset.coe_add, Multiset.coe_singleton]
  · refine ⟨?_, declared, parameters, constructed, constructorOnly, ?_, ?_, ?_⟩
    · intro mentioned inMiddle
      rcases names.mentioned mentioned inMiddle with isNew | inBefore
      · have declares := means mentioned isNew
        apply declares.backs
        exact declares.elim (declared node mentioned) fun found => (parameters node mentioned found).1
      · exact (grounded.mentioned mentioned inBefore).mono keeps.declares
    · intro other put
      have putBefore : other ∈ before.deferred.keys := names.deferred ▸ put
      obtain ⟨known, found, leavesOpen⟩ := grounded.deferred other putBefore
      exact ⟨known, keeps.declarations other known found, leavesOpen⟩
    · have same : (middle.declaring node descriptor).deferred = before.deferred := names.deferred
      rw [same]
      exact grounded.deferredOnce
    · intro other known
      have putBefore := grounded.inferred other (names.inferred ▸ known)
      exact names.deferred ▸ putBefore

/-- The state in which the type of a declaration is put off. -/
def deferring (state : ResolutionState) (node : NodeRef) (deferred : Deferred) :
    ResolutionState :=
  { state with deferred := state.deferred.insert node deferred }

/-- Putting off the type of a declaration leaves the references of its body
pending. -/
theorem advances_deferring {state : ResolutionState} (deferred : Deferred)
    (grounded : state.Grounded) (found : state.declarations.get? node = some descriptor)
    (leavesOpen : descriptor.LeavesOpen) (new : node ∉ state.deferred.keys) :
    state.Advances 0 {node} (Node.expression deferred.body).references
      (state.deferring node deferred) := by
  have keys : (state.deferring node deferred).deferred.keys = state.deferred.keys ++ [node] :=
    Table.keys_insert_of_notMem new deferred
  have notInferred : state.inferred.get? node = none := by
    by_contra known
    exact new (grounded.inferred node (Option.isSome_iff_ne_none.mpr known))
  have keeps : state.Keeps (state.deferring node deferred) :=
    ⟨fun _ _ known => known, fun _ _ known => known, fun _ known => known,
      fun _ known => known, fun _ known => known⟩
  refine ⟨keeps, (add_zero _).symm, ?_, ?_, ⟨[], rfl, by simp, ?_⟩⟩
  · intro other given
    obtain ⟨put, open_⟩ := given
    rw [keys, List.mem_append, List.mem_singleton] at put
    rw [Multiset.mem_singleton]
    exact put.imp_left fun before => ⟨before, open_⟩
  · refine ⟨grounded.mentioned, grounded.declared, grounded.parameters,
      grounded.constructed, grounded.constructorOnly, ?_, ?_, ?_⟩
    · intro other put
      rw [keys, List.mem_append, List.mem_singleton] at put
      rcases put with before | rfl
      · exact grounded.deferred other before
      · exact ⟨descriptor, found, leavesOpen⟩
    · rw [keys, ← List.concat_eq_append]
      exact grounded.deferredOnce.concat new
    · intro other known
      rw [keys, List.mem_append]
      exact .inl (grounded.inferred other known)
  · rw [List.map_nil, Multiset.coe_nil, zero_add]
    simp only [pending_eq_openWeight]
    exact openWeight_putOff new notInferred

end ResolutionState

end Gloss
