import Gloss.Proofs.Resolution.Grounds
import Gloss.Proofs.Resolution.Scopes
import Gloss.Resolution.WrittenType
import Mathlib.Tactic.Abel

/-!
# Steps that resolve references

A step of a resolution that declares nothing accounts for some references: the
entries that it makes and the references still pending afterwards are together
these references and those that were pending before.  So nothing is lost and
nothing is done twice, also where the step infers the types of declarations on
the way.
-/

namespace Gloss

/-- What a reference means is declared. -/
def Meaning.Backed (state : ResolutionState) : Meaning Descriptor → Prop
  | .target meant => state.Backs meant
  | .ambiguous _ | .unresolved => True

namespace ResolutionState

/-- Two states in which the same is declared and put off. -/
structure Agrees (start state : ResolutionState) : Prop where
  scopes : state.scopes = start.scopes
  classes : state.classes = start.classes
  declarations : state.declarations = start.declarations
  constructorParameters : state.constructorParameters = start.constructorParameters
  headerScopes : state.headerScopes = start.headerScopes
  functionScopes : state.functionScopes = start.functionScopes
  initializerScopes : state.initializerScopes = start.initializerScopes
  deferred : state.deferred = start.deferred

/-- From one state to another some entries are made, which account for some
references. -/
def Entered (backing : ResolutionState) (active : List NodeRef)
    (references : Multiset NodeRef) (before after : ResolutionState) : Prop :=
  ∃ entries : List (NodeRef × Meaning Descriptor),
    after.bindings = entries.foldl Bindings.enter before.bindings ∧
      (∀ entry ∈ entries, entry.2.Backed backing) ∧
      ((entries.map Prod.fst : List NodeRef) : Multiset NodeRef) + after.pending active =
        references + before.pending active

/-- What may happen while references are resolved and nothing is declared. -/
structure Resolves (start : ResolutionState) (active : List NodeRef)
    (references : Multiset NodeRef) (before after : ResolutionState) : Prop where
  agrees : start.Agrees after
  keepsInferred : ∀ node, (before.inferred.get? node).isSome → (after.inferred.get? node).isSome
  inferredDeferred : ∀ node, (after.inferred.get? node).isSome →
    (before.inferred.get? node).isSome ∨ node ∈ start.deferred.keys
  entered : start.Entered active references before after

variable {start before middle after : ResolutionState} {active : List NodeRef}
  {first second : Multiset NodeRef}

theorem Agrees.refl (state : ResolutionState) : state.Agrees state :=
  ⟨rfl, rfl, rfl, rfl, rfl, rfl, rfl, rfl⟩

theorem Entered.trans (entered : start.Entered active first before middle)
    (later : start.Entered active second middle after) :
    start.Entered active (first + second) before after := by
  obtain ⟨entries, bindings, backed, count⟩ := entered
  obtain ⟨laterEntries, laterBindings, laterBacked, laterCount⟩ := later
  refine ⟨entries ++ laterEntries, ?_, ?_, ?_⟩
  · rw [laterBindings, bindings, List.foldl_append]
  · intro entry member
    exact (List.mem_append.mp member).elim (backed entry) (laterBacked entry)
  · rw [List.map_append, ← Multiset.coe_add, add_assoc, laterCount, add_left_comm, count]
    abel

theorem Entered.of_eq (bindings : after.bindings = before.bindings)
    (pending : after.pending active = before.pending active) :
    start.Entered active 0 before after :=
  ⟨[], bindings, by simp, by simp [pending]⟩

theorem Resolves.trans (resolves : start.Resolves active first before middle)
    (later : start.Resolves active second middle after) :
    start.Resolves active (first + second) before after := by
  refine ⟨later.agrees, fun node known => later.keepsInferred node
    (resolves.keepsInferred node known), ?_, resolves.entered.trans later.entered⟩
  intro node known
  rcases later.inferredDeferred node known with earlier | deferred
  · exact resolves.inferredDeferred node earlier
  · exact .inr deferred

end ResolutionState

namespace Resolver

open ResolutionState

variable {α β : Type}

/-- Wherever the same is declared as in the given state, a step accounts for
some references and has an acceptable result. -/
def Accounts (start : ResolutionState) (active : List NodeRef) (step : Resolver α)
    (references : Multiset NodeRef) (accept : α → Prop) : Prop :=
  ∀ state, start.Agrees state →
    start.Resolves active references state (step.run state).2 ∧ accept (step.run state).1

variable {start : ResolutionState} {active : List NodeRef} {step : Resolver α}
  {next : α → Resolver β} {references later : Multiset NodeRef} {accept : α → Prop}
  {acceptLast : β → Prop}

namespace Accounts

theorem cast (accounts : Accounts start active step references accept)
    (same : references = later) : Accounts start active step later accept :=
  same ▸ accounts

theorem bind (accounts : Accounts start active step references accept)
    (goesOn : ∀ value, accept value → Accounts start active (next value) later acceptLast) :
    Accounts start active (step >>= next) (references + later) acceptLast := by
  intro state agrees
  obtain ⟨resolves, accepted⟩ := accounts state agrees
  obtain ⟨laterResolves, laterAccepted⟩ := goesOn _ accepted _ resolves.agrees
  exact ⟨resolves.trans laterResolves, laterAccepted⟩

/-- A step and then another that makes no entries. -/
theorem andThen (accounts : Accounts start active step references accept)
    (goesOn : ∀ value, accept value → Accounts start active (next value) 0 acceptLast) :
    Accounts start active (step >>= next) references acceptLast :=
  (accounts.bind goesOn).cast (add_zero references)

/-- A step without entries and then another. -/
theorem after (accounts : Accounts start active step 0 accept)
    (goesOn : ∀ value, accept value → Accounts start active (next value) references acceptLast) :
    Accounts start active (step >>= next) references acceptLast :=
  (accounts.bind goesOn).cast (zero_add references)

theorem of_pure {value : α} (accepted : accept value) :
    Accounts start active (pure value) 0 accept :=
  fun _ agrees =>
    ⟨⟨agrees, fun _ known => known, fun _ known => .inl known, .of_eq rfl rfl⟩, accepted⟩

theorem of_get {goOn : ResolutionState → Resolver β}
    (goesOn : ∀ state, start.Agrees state →
      Accounts start active (goOn state) references acceptLast) :
    Accounts start active (get >>= goOn) references acceptLast :=
  fun _ agrees => goesOn _ agrees _ agrees

/-- A change of what is only kept for reports. -/
theorem of_modify {change : ResolutionState → ResolutionState}
    (agrees : ∀ state : ResolutionState, state.Agrees (change state))
    (inferred : ∀ state : ResolutionState, (change state).inferred = state.inferred)
    (bindings : ∀ state : ResolutionState, (change state).bindings = state.bindings) :
    Accounts start active (modify change) 0 fun _ => True := by
  intro state agreesBefore
  have same := agrees state
  refine ⟨⟨?_, ?_, ?_, .of_eq (bindings state) ?_⟩, trivial⟩
  · exact ⟨same.scopes.trans agreesBefore.scopes, same.classes.trans agreesBefore.classes,
      same.declarations.trans agreesBefore.declarations,
      same.constructorParameters.trans agreesBefore.constructorParameters,
      same.headerScopes.trans agreesBefore.headerScopes,
      same.functionScopes.trans agreesBefore.functionScopes,
      same.initializerScopes.trans agreesBefore.initializerScopes,
      same.deferred.trans agreesBefore.deferred⟩
  · intro node known
    exact (inferred state).symm ▸ known
  · intro node known
    exact .inl ((inferred state) ▸ known)
  · change (change state).pending active = state.pending active
    rw [pending, pending, inferred state, same.deferred]

theorem of_enter (entry : NodeRef × Meaning Descriptor) (backed : entry.2.Backed start) :
    Accounts start active
      (modify fun state => { state with bindings := state.bindings.enter entry })
      {entry.1} fun _ => True := by
  intro state agrees
  refine ⟨⟨⟨agrees.1, agrees.2, agrees.3, agrees.4, agrees.5, agrees.6, agrees.7, agrees.8⟩,
    fun _ known => known, fun _ known => .inl known, [entry], rfl, ?_, ?_⟩, trivial⟩
  · simpa using backed
  · simp only [List.map_cons, List.map_nil, Multiset.coe_singleton]
    rfl

end Accounts

end Resolver

end Gloss

/-!
### Written types account for their names

Every name in a written type is entered exactly once, as unresolved or with a
class or a type parameter as its target.
-/

namespace Gloss

open ResolutionState

theorem ResolutionState.Grounded.backs_of_mem_lookup {start state : ResolutionState}
    (grounded : start.Grounded) (agrees : start.Agrees state) {scope : Nat}
    {accept : SymbolKind → Bool} {name : String} {symbol : Symbol Descriptor}
    (member : symbol ∈ state.scopes.lookup scope accept name) :
    start.Backs symbol.descriptor := by
  rw [agrees.scopes] at member
  obtain ⟨found, inScopes, inFound, -⟩ := Scopes.mem_of_mem_lookup member
  exact grounded.symbols found inScopes symbol inFound

namespace Resolver

variable {start : ResolutionState} {active : List NodeRef}

theorem accounts_report (problem : Problem) (node : NodeRef) :
    Accounts start active (report problem node) 0 fun _ => True :=
  .of_modify (fun _ => ⟨rfl, rfl, rfl, rfl, rfl, rfl, rfl, rfl⟩) (fun _ => rfl) fun _ => rfl

theorem accounts_recordType (node : NodeRef) (type : NominalType) :
    Accounts start active (recordType node type) 0 fun _ => True :=
  .of_modify (fun _ => ⟨rfl, rfl, rfl, rfl, rfl, rfl, rfl, rfl⟩) (fun _ => rfl) fun _ => rfl

theorem accounts_noteArity (arity : Nat) :
    Accounts start active (noteArity arity) 0 fun _ => True := by
  apply Accounts.of_modify
  · intro state
    split
    · exact .refl state
    · exact ⟨rfl, rfl, rfl, rfl, rfl, rfl, rfl, rfl⟩
  · intro state
    split <;> rfl
  · intro state
    split <;> rfl

theorem accounts_typed (node : NodeRef) (type : NominalType) :
    Accounts start active (typed node type) 0 fun _ => True :=
  (accounts_recordType node type).after fun _ _ => .of_pure trivial

theorem accounts_expect (actual expected : NominalType) (node : NodeRef) :
    Accounts start active (expect actual expected node) 0 fun _ => True := by
  unfold expect
  split
  · exact .of_pure trivial
  · exact accounts_report _ _

theorem accounts_record {target : Descriptor} (reference : NodeRef)
    (backs : start.Backs target) :
    Accounts start active (record reference target) {reference} fun _ => True :=
  .of_enter (reference, .target target) backs

theorem accounts_markAmbiguous (reference : NodeRef) (candidates : List Descriptor) :
    Accounts start active (markAmbiguous reference candidates) {reference} fun _ => True :=
  .of_enter (reference, .ambiguous candidates) trivial

theorem accounts_markUnresolved (reference : NodeRef) :
    Accounts start active (markUnresolved reference) {reference} fun _ => True :=
  .of_enter (reference, .unresolved) trivial

theorem accounts_unresolved (reference : NodeRef) (name : String) :
    Accounts start active (unresolved reference name) {reference} fun _ => True :=
  (accounts_markUnresolved reference).andThen fun _ _ => accounts_report _ _

theorem accounts_resolveTypeName (grounded : start.Grounded) (scope : Nat) (node : NodeRef)
    (name : String) (arguments : Nat) :
    Accounts start active (resolveTypeName scope node name arguments) {node} fun _ => True := by
  apply Accounts.of_get
  intro state agrees
  cases found : state.classifiers scope name with
  | none => exact accounts_unresolved node name
  | some symbol =>
      have backs : start.Backs symbol.descriptor :=
        grounded.backs_of_mem_lookup agrees (List.mem_of_head? found)
      apply (accounts_record node backs).andThen
      intro _ _
      split
      · exact .of_pure trivial
      · split
        · exact .of_pure trivial
        · exact accounts_report _ _

mutual

theorem accounts_resolveType (grounded : start.Grounded) (scope : Nat) (type : Tree.TypeRef) :
    Accounts start active (resolveType scope type) (Node.type type).references
      fun _ => True := by
  cases type with
  | named span nullable name nameSpan arguments =>
      rw [resolveType, Node.references_named, add_comm]
      apply (accounts_resolveTypes grounded scope arguments).bind
      intro _ _
      apply (accounts_resolveTypeName grounded scope _ name _).andThen
      intro _ _
      exact .of_get fun _ _ => accounts_typed _ _
  | function span nullable parameters result =>
      rw [resolveType, Node.references_functionType]
      apply (accounts_resolveTypes grounded scope parameters).bind
      intro _ _
      apply (accounts_resolveType grounded scope result).andThen
      intro _ _
      apply (accounts_noteArity _).after
      intro _ _
      exact .of_get fun _ _ => accounts_typed _ _

theorem accounts_resolveTypes (grounded : start.Grounded) (scope : Nat)
    (types : List Tree.TypeRef) :
    Accounts start active (resolveTypes scope types)
      (types.map fun type => (Node.type type).references).sum fun _ => True := by
  cases types with
  | nil => exact .of_pure trivial
  | cons type rest =>
      rw [resolveTypes, List.map_cons, List.sum_cons]
      apply (accounts_resolveType grounded scope type).bind
      intro _ _
      exact accounts_resolveTypes grounded scope rest

end

theorem accounts_resolveType? (grounded : start.Grounded) (scope : Nat)
    (type : Option Tree.TypeRef) :
    Accounts start active (resolveType? scope type) (Node.referencesOf? (type.map .type))
      fun resolved => resolved.isSome = type.isSome := by
  cases type with
  | none => exact .of_pure rfl
  | some type =>
      apply (accounts_resolveType grounded scope type).andThen
      intro _ _
      exact .of_pure rfl

end Resolver

end Gloss
