import Gloss.Proofs.Order.Checks
import Gloss.Proofs.Order.Enactments
import Gloss.Proofs.Resolution.Scopes
import Gloss.Resolution.Checking

/-!
# Checks play scripts

What checking does is what its scripts say, apart from the scopes of blocks, which
nothing outside of the block can see.
-/

namespace Gloss

namespace ResolutionState

/-- The state in which some remarks are written down one after the other. -/
def remarkAll (state : ResolutionState) (remarks : List Remark) : ResolutionState :=
  remarks.foldl remark state

theorem remarkAll_append (state : ResolutionState) (first second : List Remark) :
    state.remarkAll (first ++ second) = (state.remarkAll first).remarkAll second :=
  List.foldl_append

theorem settles_remarkAll (state : ResolutionState) (remarks : List Remark) :
    state.Settles (state.remarkAll remarks) := by
  induction remarks generalizing state with
  | nil => exact .refl state
  | cons remark rest ih => exact (state.settles_remark remark).trans (ih _)

theorem classifiers_remarkAll (state : ResolutionState) (remarks : List Remark) (scope : Nat) :
    (state.remarkAll remarks).classifiers scope = state.classifiers scope := by
  rw [classifiers, (state.settles_remarkAll remarks).scopes]
  rfl

theorem around_classifiers (state : ResolutionState) (scope : Nat) (own : NodeRef) :
    (state.around scope own).classifiers = state.classifiers scope := by
  funext name
  rw [Surroundings.classifiers, Surroundings.lookup, around, List.map_map]
  rfl

end ResolutionState

open ResolutionState

variable {base state : ResolutionState} {scope : Nat} {around : Surroundings} {α β : Type}

/-! ### Written types -/

section WrittenTypes

open Resolver

theorem run_resolveTypeName (scope : Nat) (node : NodeRef) (name : String) (arguments : Nat)
    (state : ResolutionState) :
    (resolveTypeName scope node name arguments).run state =
      ((), state.remarkAll
        (Tree.TypeRef.nameRemarks (state.classifiers scope) node name arguments)) := by
  rw [resolveTypeName, run_get_bind, Tree.TypeRef.nameRemarks]
  cases state.classifiers scope name with
  | none => rfl
  | some symbol =>
      dsimp only
      cases expectedArguments? symbol with
      | none => rfl
      | some expected =>
          dsimp only
          split
          · rfl
          · rfl

mutual

/-- Resolving a written type gives what it denotes and writes its remarks down. -/
theorem run_resolveType (scope : Nat) (state : ResolutionState) : (type : Tree.TypeRef) →
    (resolveType scope type).run state =
      (type.denote (state.classifiers scope),
        state.remarkAll (type.remarks (state.classifiers scope)))
  | .named span nullable name nameSpan arguments => by
      rw [resolveType, run_bind, run_resolveTypes scope state arguments, run_bind,
        run_resolveTypeName, run_get_bind, classifiers_remarkAll, classifiers_remarkAll,
        Tree.TypeRef.remarks, remarkAll_append, remarkAll_append]
      rfl
  | .function span nullable parameters result => by
      rw [resolveType, run_bind, run_resolveTypes scope state parameters, run_bind,
        run_resolveType scope _ result, classifiers_remarkAll, run_bind, run_get_bind,
        Tree.TypeRef.remarks, remarkAll_append, remarkAll_append]
      have noted (state : ResolutionState) : ((noteArity parameters.length).run state).2 =
          state.remarkAll [.arity parameters.length] := rfl
      rw [noted, classifiers_remarkAll, classifiers_remarkAll, classifiers_remarkAll]
      rfl

theorem run_resolveTypes (scope : Nat) (state : ResolutionState) :
    (types : List Tree.TypeRef) →
      (resolveTypes scope types).run state =
        ((), state.remarkAll (Tree.TypeRef.remarksOfAll (state.classifiers scope) types))
  | [] => by
      rw [resolveTypes, Tree.TypeRef.remarksOfAll]
      rfl
  | type :: rest => by
      rw [resolveTypes, run_bind, run_resolveType scope state type,
        run_resolveTypes scope _ rest, classifiers_remarkAll, Tree.TypeRef.remarksOfAll,
        remarkAll_append]

end

end WrittenTypes

theorem run_tellAll {isOpen : NodeRef → Bool} (own : NodeRef) (demand : Demand)
    (remarks : List Remark) (state : ResolutionState) :
    (((Script.tellAll remarks : Script isOpen Unit).play own demand).run state) =
      ((), state.remarkAll remarks) := by
  induction remarks generalizing state with
  | nil => rfl
  | cons remark rest ih => exact ih _

section Steps

open Resolver

variable {demand : Demand} (dutiful : demand.Dutiful base)

theorem performs_resolveType? (type : Option Tree.TypeRef) :
    Performs base demand scope around (resolveType? scope type) (around.writtenType? type) := by
  intro state fits
  cases type with
  | none => rfl
  | some type =>
      have same : around.classifiers = state.classifiers scope := by
        rw [← fits.around_eq, around_classifiers]
      rw [resolveType?, run_bind, run_resolveType, Surroundings.writtenType?,
        Script.run_play_bind, run_tellAll, same]
      rfl

theorem performs_localType (declaration : Tree.Property) (type : Option NominalType) :
    Performs base demand scope around (localType declaration type)
      (Script.localType declaration type) := by
  cases type with
  | some type => exact .of_pure type
  | none => exact fun _ _ => rfl

include dutiful

theorem performs_check (owned : around.Owned) (expression : Tree.Expr) (expected : NominalType) :
    Performs base demand scope around
      (do
        let type ← infer demand scope expression
        expect type expected expression.node.ref)
      (around.check expression expected) :=
  .bind dutiful (performs_infer dutiful owned expression) fun _ => performs_expect _ _ _

end Steps

section Locals

open Resolver

theorem performs_checkInitializer (dutiful : Demand.Dutiful base demand) (owned : around.Owned)
    (declared : Option NominalType) (initializer : Option Tree.Expr) :
    Performs base demand scope around (checkInitializer scope declared initializer)
      (around.checkInitializer declared initializer) := by
  cases initializer with
  | none => exact .of_pure _
  | some initializer =>
      apply Performs.bind dutiful (performs_infer dutiful owned initializer)
      intro type
      cases declared with
      | none => exact .of_pure _
      | some expected => exact .bind dutiful (performs_expect _ _ _) fun _ => .of_pure _

/-- What a local variable means; its own name is not yet in scope. -/
def Resolver.describeLocal (scope : Nat) (declaration : Tree.Property) : Resolver Descriptor := do
  let declared ← resolveType? scope declaration.type
  let inferred ← checkInitializer scope declared declaration.initializer
  let type ← localType declaration (declared.or inferred)
  return .variable (.local
    { name := declaration.name, declaration := some (Node.property declaration).ref, type
      binding := declaration.binding })

theorem declareLocal_eq (scope : Nat) (declaration : Tree.Property) :
    declareLocal scope declaration = (do
      let descriptor ← describeLocal scope declaration
      define scope { name := declaration.name, kind := .variable, descriptor }
        (Node.property declaration).ref
      declare (Node.property declaration).ref descriptor) := by
  rw [declareLocal, describeLocal]
  simp only [bind_assoc, pure_bind]

theorem performs_describeLocal (dutiful : Demand.Dutiful base demand) (owned : around.Owned)
    (declaration : Tree.Property) :
    Performs base demand scope around (Resolver.describeLocal scope declaration)
      (around.describeLocal declaration) := by
  apply Performs.bind dutiful (performs_resolveType? _)
  intro declared
  apply Performs.bind dutiful (performs_checkInitializer dutiful owned _ _)
  intro inferred
  exact .bind dutiful (performs_localType _ _) fun _ => .of_pure _

end Locals

/-! ### What has been played -/

/-- Between two states a script was played: it was carried out, what it comes to is known
afterwards unless a declaration depends on itself, and what is known to come out came out. -/
structure ResolutionState.Played (base : ResolutionState) (script : Script base.isOpenType α)
    (before : ResolutionState) (value : α) (after : ResolutionState) : Prop where
  reports : before.diagnostics ⊆ after.diagnostics
  enacted : base.Enacted [] script before value after
  gains : ¬ after.IsRecursive → ∃ remarks,
    script.outcome after.inferred = some (value, remarks) ∧ base.Gains remarks before after
  complies : ∀ all remarks found, base.Complies all all [] Resolver.demand →
    script.outcome ⟨all⟩ = some (found, remarks) → (∀ remark ∈ remarks, remark.Plain) →
      base.Tame all [] before → found = value ∧ base.Tame all [] after

namespace ResolutionState.Played

variable {script : Script base.isOpenType α} {next : α → Script base.isOpenType β}
  {before middle after : ResolutionState} {value : α} {last : β}

theorem bind (played : base.Played script before value middle)
    (later : base.Played (next value) middle last after) :
    base.Played (script >>= next) before last after where
  reports := List.Subset.trans played.reports later.reports
  enacted := played.enacted.bind later.enacted
  gains notRecursive := by
    obtain ⟨remarks, outcome, gains⟩ := later.gains notRecursive
    have notYet : ¬ middle.IsRecursive := fun ⟨found, reported, recursive⟩ =>
      notRecursive ⟨found, later.reports reported, recursive⟩
    obtain ⟨earlier, isEarlier, gainsEarlier⟩ := played.gains notYet
    refine ⟨earlier ++ remarks, ?_, gainsEarlier.trans gains⟩
    have stillEarlier := Script.outcome_mono (fun _ _ => gains.get?_inferred) isEarlier
    rw [Script.outcome_bind, stillEarlier, Option.bind_some, outcome]
    rfl
  complies all remarks found complies outcome plain tame := by
    rw [Script.outcome_bind] at outcome
    obtain ⟨⟨first, earlier⟩, isEarlier, isLater⟩ := Option.bind_eq_some_iff.mp outcome
    obtain ⟨⟨second, others⟩, isOthers, isOutcome⟩ := Option.map_eq_some_iff.mp isLater
    cases isOutcome
    obtain ⟨plainEarlier, plainOthers⟩ := List.forall_mem_append.mp plain
    obtain ⟨rfl, tameMiddle⟩ := played.complies all earlier first complies isEarlier plainEarlier
      tame
    exact later.complies all others second complies isOthers plainOthers tameMiddle

/-- A script is played by a step that performs it, wherever it cannot ask for the
type that it is about. -/
theorem of_performs (postpones : base.Postpones) {own : NodeRef}
    (notDeferred : base.deferred.get? own = none) (continues : base.Continues before)
    {step : Resolver α} (run : step.run before = (script.play own Resolver.demand).run before) :
    base.Played script before (step.run before).1 (step.run before).2 ∧
      before.Settles (step.run before).2 := by
  have dutiful := dutiful_demand postpones
  have settles := dutiful.settles_play own script continues
  rw [run]
  have enacted : base.Enacted [] script before ((script.play own Resolver.demand).run before).1
      ((script.play own Resolver.demand).run before).2 := by
    refine enacted_play dutiful (enacts_demand postpones) (fun state continues => ?_) script continues
    have awaits : state.Awaits [] := List.forall_mem_nil _
    exact awaits.unknown continues (.inr notDeferred)
  refine ⟨⟨settles.reports, enacted, ?_, ?_⟩, settles⟩
  · intro notRecursive
    obtain ⟨remarks, outcome, gains, -⟩ := gains_play dutiful (delivers_demand postpones)
      (.inr notDeferred) script continues nofun notRecursive
    exact ⟨remarks, outcome, gains⟩
  · intro all remarks found complies outcome plain tame
    obtain ⟨same, tameAfter⟩ := complies_play complies (fun _ _ => id) (.inr notDeferred) outcome
      plain tame
    exact ⟨same.symm, tameAfter⟩

/-- A step that only changes scopes plays nothing. -/
theorem of_scopes (state : ResolutionState) (scopes : Scopes Descriptor)
    (continues : base.Continues { state with scopes }) :
    base.Played (pure ()) state () { state with scopes } where
  reports := List.Subset.refl _
  enacted := .of_journal [] () rfl rfl
  gains _ := ⟨[], rfl, ⟨[], .nil _, by simp, [], rfl, .refl _⟩⟩
  complies _ _ _ _ _ _ tame := ⟨rfl, continues, tame.awaits, tame.within, tame.notRecursive⟩

/-- A change of scopes comes before a script without being part of it. -/
theorem of_after_scopes {scopes : Scopes Descriptor}
    (continues : base.Continues { state with scopes })
    (played : base.Played script { state with scopes } value after) :
    base.Played script state value after := by
  have whole : base.Played (pure () >>= fun _ => script) state value after :=
    (of_scopes state scopes continues).bind played
  exact whole

theorem of_remark (state : ResolutionState) (remark : Remark) :
    base.Played (Script.tell remark) state () (state.remark remark) where
  reports := (state.settles_remark remark).reports
  enacted := .of_remark [] state fun _ => remark
  gains _ := ⟨[remark], rfl, .of_remark state remark⟩
  complies all remarks found complies outcome plain tame := by
    cases outcome
    exact ⟨rfl, tame.remark (plain remark (List.mem_singleton_self _))⟩

end ResolutionState.Played

/-! ### Blocks -/

namespace ResolutionState

/-- What can be seen where all declarations are known. -/
def seen (base : ResolutionState) (levels : List (List (Symbol Descriptor))) (own : NodeRef) :
    Surroundings where
  levels
  class? := base.class?
  isOpen := base.isOpenType
  own

/-- A block with some local variables is open. -/
structure Blocks (base : ResolutionState) (inner : Nat) (block : List (Symbol Descriptor))
    (outer : List (List (Symbol Descriptor))) (state : ResolutionState) : Prop where
  continues : base.Continues state
  new : base.scopes.size ≤ inner
  inside : inner < state.scopes.size
  symbols : state.scopes.symbolsOf inner = block
  chain : ∃ numbers, state.scopes.chain inner = inner :: numbers ∧ inner ∉ numbers ∧
    numbers.map state.scopes.symbolsOf = outer

variable {inner : Nat} {block : List (Symbol Descriptor)}
  {outer levels : List (List (Symbol Descriptor))} {before after : ResolutionState}

theorem fits_seen (continues : base.Continues state)
    (sees : (state.scopes.levels scope).map Scope.symbols = levels) (own : NodeRef) :
    base.Fits scope (base.seen levels own) state := by
  refine ⟨continues, ?_⟩
  simp only [ResolutionState.around, seen, sees, continues.deferred, Surroundings.mk.injEq,
    true_and, and_true]
  constructor
  · funext constructor
    simp only [class?, continues.classes]
  · rfl

theorem Blocks.fits (blocks : base.Blocks inner block outer state) (own : NodeRef) :
    base.Fits inner (base.seen (block :: outer) own) state := by
  apply fits_seen blocks.continues
  obtain ⟨numbers, chain, -, isOuter⟩ := blocks.chain
  rw [Scopes.map_symbols_levels, chain, List.map_cons, blocks.symbols, isOuter]

theorem Blocks.settles (blocks : base.Blocks inner block outer before)
    (settles : before.Settles after) : base.Blocks inner block outer after where
  continues := blocks.continues.settles settles
  new := blocks.new
  inside := settles.scopes ▸ blocks.inside
  symbols := settles.scopes ▸ blocks.symbols
  chain := settles.scopes ▸ blocks.chain

/-- Local variables are not seen from where the base is. -/
theorem Continues.define (continues : base.Continues state) (new : base.scopes.size ≤ inner)
    (symbol : Symbol Descriptor) :
    base.Continues { state with scopes := state.scopes.define inner symbol } where
  size := by
    rw [Scopes.size_define]
    exact continues.size
  levels number inBase := by
    rw [← continues.levels number inBase, Scopes.map_symbols_levels, Scopes.map_symbols_levels,
      Scopes.chain_define]
    apply List.map_congr_left
    intro other inChain
    have := Scopes.le_of_mem_chain inChain
    exact Scopes.symbolsOf_define_of_ne _ _ (by omega)
  classes := continues.classes
  functionScopes := continues.functionScopes
  initializerScopes := continues.initializerScopes
  deferred := continues.deferred
  inferred := continues.inferred

theorem Blocks.define (blocks : base.Blocks inner block outer state)
    (symbol : Symbol Descriptor) :
    base.Blocks inner (block ++ [symbol]) outer
      { state with scopes := state.scopes.define inner symbol } where
  continues := blocks.continues.define blocks.new symbol
  new := blocks.new
  inside := by
    rw [Scopes.size_define]
    exact blocks.inside
  symbols := by rw [Scopes.symbolsOf_define_self _ _ blocks.inside, blocks.symbols]
  chain := by
    obtain ⟨numbers, chain, notAround, isOuter⟩ := blocks.chain
    refine ⟨numbers, ?_, notAround, ?_⟩
    · rw [Scopes.chain_define, chain]
    · rw [← isOuter]
      apply List.map_congr_left
      intro other isNumber
      refine Scopes.symbolsOf_define_of_ne _ _ ?_
      rintro rfl
      exact notAround isNumber

/-- A block that is opened has no local variables. -/
theorem Continues.blocks (continues : base.Continues state) (inBase : scope < base.scopes.size)
    (sees : (base.scopes.levels scope).map Scope.symbols = levels) (name kind : String) :
    base.Blocks state.scopes.size [] levels
      { state with scopes := state.scopes.openIn scope name kind } where
  continues :=
    { size := by
        have := continues.size
        rw [Scopes.size_openIn]
        omega
      levels := by
        intro number isBase
        have isBefore : number < state.scopes.size := Nat.lt_of_lt_of_le isBase continues.size
        rw [← continues.levels number isBase, Scopes.map_symbols_levels,
          Scopes.map_symbols_levels, Scopes.chain_openIn_of_lt _ _ _ isBefore]
        apply List.map_congr_left
        intro other inChain
        have := Scopes.le_of_mem_chain inChain
        exact Scopes.symbolsOf_openIn_of_lt _ _ _ (by omega)
      classes := continues.classes
      functionScopes := continues.functionScopes
      initializerScopes := continues.initializerScopes
      deferred := continues.deferred
      inferred := continues.inferred }
  new := continues.size
  inside := by rw [Scopes.size_openIn]; omega
  symbols := Scopes.symbolsOf_openIn_size _ _ _ _
  chain := by
    have isBefore : scope < state.scopes.size := Nat.lt_of_lt_of_le inBase continues.size
    refine ⟨state.scopes.chain scope, Scopes.chain_openIn_size _ _ _ _, ?_, ?_⟩
    · intro isAround
      have := Scopes.le_of_mem_chain isAround
      omega
    · rw [← sees, ← continues.levels scope inBase, Scopes.map_symbols_levels]
      apply List.map_congr_left
      intro other inChain
      have := Scopes.le_of_mem_chain inChain
      exact Scopes.symbolsOf_openIn_of_lt _ _ _ (by omega)

end ResolutionState

section Statements

open Resolver

variable {own : NodeRef} {inner : Nat} {block : List (Symbol Descriptor)}
  {outer : List (List (Symbol Descriptor))}

/-- A definition reports a conflict and adds the symbol. -/
theorem run_define_eq (scope : Nat) (symbol : Symbol Descriptor) (node : NodeRef)
    (state : ResolutionState) :
    (define scope symbol node).run state =
      ((), match state.scopes.conflict? scope symbol with
        | some _ =>
            { state.remark (.problem { problem := .redeclaration symbol.name, node }) with
              scopes := state.scopes.define scope symbol }
        | none => { state with scopes := state.scopes.define scope symbol }) := by
  rw [define, run_get_bind]
  cases state.scopes.conflict? scope symbol <;> rfl

theorem played_define (blocks : base.Blocks inner block outer state)
    (symbol : Symbol Descriptor) (node : NodeRef) :
    base.Played (Script.reportConflict block symbol node) state ()
        ((define inner symbol node).run state).2 ∧
      base.Blocks inner (block ++ [symbol]) outer ((define inner symbol node).run state).2 := by
  rw [run_define_eq, Script.reportConflict, Scopes.conflict?_eq, blocks.symbols]
  cases (block.filter fun earlier => earlier.name = symbol.name).find? _ with
  | none =>
      have defined := blocks.define symbol
      exact ⟨.of_scopes state _ defined.continues, defined⟩
  | some earlier =>
      have reported := state.settles_remark
        (.problem { problem := .redeclaration symbol.name, node })
      have defined := (blocks.settles reported).define symbol
      exact ⟨(Played.of_remark state _).bind (.of_scopes _ _ defined.continues), defined⟩

theorem Surroundings.Owns.congr {around other : Surroundings} {descriptor : Descriptor}
    (owns : around.Owns descriptor) (same : around.own = other.own) : other.Owns descriptor := by
  unfold Surroundings.Owns at owns ⊢
  rwa [← same]

/-- A block has no symbols at first. -/
theorem Surroundings.Owned.inBlock (owned : (base.around scope own).Owned) :
    (base.seen ([] :: (base.scopes.levels scope).map Scope.symbols) own).Owned := by
  constructor
  · intro level isLevel symbol inLevel
    rcases List.mem_cons.mp isLevel with rfl | isOuter
    · cases inLevel
    · exact (owned.levels level isOuter symbol inLevel).congr rfl
  · intro constructor entry found member isMember
    have known : (base.around scope own).class? constructor = some entry := found
    exact (owned.members constructor entry known member isMember).congr rfl

theorem owned_append
    (owned : (base.seen (block :: outer) own).Owned) {symbol : Symbol Descriptor}
    (owns : (base.seen (block :: outer) own).Owns symbol.descriptor) :
    (base.seen ((block ++ [symbol]) :: outer) own).Owned where
  levels := by
    obtain ⟨ownsBlock, ownsOuter⟩ := List.forall_mem_cons.mp owned.levels
    refine List.forall_mem_cons.mpr ⟨?_, ownsOuter⟩
    exact List.forall_mem_append.mpr ⟨ownsBlock, List.forall_mem_singleton.mpr owns⟩
  members := owned.members

variable (postpones : base.Postpones) (notDeferred : base.deferred.get? own = none)

include postpones notDeferred

/-- The statements of a block play their script. -/
theorem played_checkStatements (statements : List Tree.Statement)
    (blocks : base.Blocks inner block outer state)
    (owned : (base.seen (block :: outer) own).Owned) :
    base.Played ((base.seen outer own).checkStatements block statements) state ()
        ((checkStatements inner statements).run state).2 ∧
      base.Continues ((checkStatements inner statements).run state).2 := by
  have dutiful := dutiful_demand postpones
  induction statements generalizing state block with
  | nil => exact ⟨.of_scopes state state.scopes blocks.continues, blocks.continues⟩
  | cons statement rest ih =>
      cases statement with
      | expression expression =>
          rw [Resolver.checkStatements, run_bind, Surroundings.checkStatements]
          have performs := performs_infer dutiful owned expression state (blocks.fits own)
          obtain ⟨played, settles⟩ :=
            Played.of_performs postpones notDeferred blocks.continues performs
          obtain ⟨playedRest, continues⟩ := ih (blocks.settles settles) owned
          exact ⟨played.bind playedRest, continues⟩
      | «variable» declaration =>
          have performs := performs_describeLocal dutiful owned declaration state
            (blocks.fits own)
          obtain ⟨played, settles⟩ :=
            Played.of_performs postpones notDeferred blocks.continues performs
          obtain ⟨playedDefine, defined⟩ := played_define (blocks.settles settles)
            { name := declaration.name, kind := .variable
              descriptor := ((Resolver.describeLocal inner declaration).run state).1 }
            (Node.property declaration).ref
          have ownsLocal : (base.seen (block :: outer) own).Owns
              ((Resolver.describeLocal inner declaration).run state).1 := by
            trivial
          obtain ⟨playedRest, continues⟩ :=
            ih (defined.settles (settles_remark _ _)) (owned_append owned ownsLocal)
          rw [Resolver.checkStatements, run_bind, declareLocal_eq, run_bind, run_bind]
          exact ⟨played.bind (playedDefine.bind ((Played.of_remark _ _).bind playedRest)), continues⟩

/-- A block is checked in a scope of its own. -/
theorem played_checkBlock (continues : base.Continues state) (inBase : scope < base.scopes.size)
    (owned : (base.around scope own).Owned) (statements : List Tree.Statement) :
    base.Played ((base.around scope own).checkStatements [] statements) state ()
        ((do
          let inner ← openScope scope "block" "block"
          checkStatements inner statements).run state).2 ∧
      base.Continues ((do
        let inner ← openScope scope "block" "block"
        checkStatements inner statements).run state).2 := by
  have blocks := continues.blocks inBase rfl "block" "block"
  have ownsBlock := owned.inBlock
  obtain ⟨played, continuesAfter⟩ :=
    played_checkStatements postpones notDeferred statements blocks ownsBlock
  have opened : (openScope scope "block" "block").run state =
      (state.scopes.size,
        { state with scopes := state.scopes.openIn scope "block" "block" }) := rfl
  rw [run_bind, opened]
  exact ⟨.of_after_scopes blocks.continues played, continuesAfter⟩

/-- Checking a function plays its script. -/
theorem played_checkFunction (continues : base.Continues state) (function : Tree.Function)
    {descriptor : FunctionDescriptor}
    (found : state.declarations.get? (Node.function function).ref = some (.function descriptor))
    (isScope : base.functionScopes.get? (Node.function function).ref = some scope)
    (inBase : scope < base.scopes.size)
    (owned : (Tree.Member.function function).checkedBody?.isSome → (base.around scope own).Owned) :
    base.Played ((base.around scope own).checkFunction function descriptor) state ()
        ((checkFunction function).run state).2 ∧
      base.Continues ((checkFunction function).run state).2 := by
  have dutiful := dutiful_demand postpones
  have performs := performs_returnType dutiful descriptor state (continues.fits inBase own)
  obtain ⟨played, settles⟩ := Played.of_performs postpones notDeferred continues performs
  have later := continues.settles settles
  rw [Resolver.checkFunction, run_get_bind, found, continues.functionScopes, isScope]
  dsimp only
  rw [run_bind, Surroundings.checkFunction]
  cases body : function.body with
  | block block =>
      have isChecked : (Tree.Member.function function).checkedBody?.isSome := by
        cases returned : function.returnType <;>
          simp [Tree.Member.checkedBody?, returned, body]
      obtain ⟨playedBlock, continuesAfter⟩ :=
        played_checkBlock postpones notDeferred later inBase (owned isChecked) block.statements
      exact ⟨played.bind playedBlock, continuesAfter⟩
  | expression value =>
      dsimp only
      cases written : function.returnType with
      | none => exact ⟨played.bind (.of_scopes _ _ later), later⟩
      | some type =>
          have isChecked : (Tree.Member.function function).checkedBody?.isSome := by
            simp [Tree.Member.checkedBody?, written, body]
          have checks := performs_check dutiful (owned isChecked) value
            ((returnType demand descriptor).run state).1 _ (later.fits inBase own)
          obtain ⟨playedCheck, settlesCheck⟩ :=
            Played.of_performs postpones notDeferred later checks
          exact ⟨played.bind playedCheck, later.settles settlesCheck⟩

/-- Checking a property plays its script. -/
theorem played_checkProperty (continues : base.Continues state) (property : Tree.Property)
    {holder : VariableDescriptor}
    (found : state.declarations.get? (Node.property property).ref = some (.variable holder))
    (isScope : base.initializerScopes.get? (Node.property property).ref = some scope)
    (inBase : scope < base.scopes.size)
    (owned : (Tree.Member.property property).checkedBody?.isSome → (base.around scope own).Owned) :
    base.Played ((base.around scope own).checkProperty property holder) state ()
        ((checkProperty property).run state).2 ∧
      base.Continues ((checkProperty property).run state).2 := by
  have dutiful := dutiful_demand postpones
  have performs := performs_variableType dutiful holder state (continues.fits inBase own)
  obtain ⟨played, settles⟩ := Played.of_performs postpones notDeferred continues performs
  have later := continues.settles settles
  rw [Resolver.checkProperty, run_get_bind, found, continues.initializerScopes, isScope]
  dsimp only
  rw [run_bind, Surroundings.checkProperty]
  cases initialized : property.initializer with
  | none => exact ⟨played.bind (.of_scopes _ _ later), later⟩
  | some value =>
      dsimp only
      cases written : property.type with
      | none => exact ⟨played.bind (.of_scopes _ _ later), later⟩
      | some declared =>
          have isChecked : (Tree.Member.property property).checkedBody?.isSome := by
            simp [Tree.Member.checkedBody?, written, initialized]
          have checks := performs_check dutiful (owned isChecked) value
            ((variableType demand holder).run state).1 _ (later.fits inBase own)
          obtain ⟨playedCheck, settlesCheck⟩ :=
            Played.of_performs postpones notDeferred later checks
          exact ⟨played.bind playedCheck, later.settles settlesCheck⟩

end Statements

end Gloss
