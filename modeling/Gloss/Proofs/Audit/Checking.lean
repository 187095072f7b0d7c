import Gloss.Proofs.Audit.Declaring
import Gloss.Proofs.Audit.Inferring
import Gloss.Proofs.Resolution.Checking
import Gloss.Proofs.Resolution.Inference

/-!
# The audit of checking

An inquiry for an open type begins the inference of an expression that was put off, unless it is
under way.  The active declarations are all different and were all put off, so
there are never more of them than were put off, and the room for inquiries
inside of each other never runs out.

When bodies are checked, every expression that was promised has been put off, so
each inquiry for an open type finds one.  Descriptors and scopes are found again
by their nodes, and each statement is visited once.
-/

namespace Gloss

namespace ResolutionState

variable {state before after : ResolutionState} {active : List NodeRef} {node : NodeRef}

/-- The state in which the type of a declaration is remembered. -/
def remembering (state : ResolutionState) (node : NodeRef) (type : NominalType) :
    ResolutionState :=
  { state with inferred := state.inferred.insert node type }

theorem get?_remembering (state : ResolutionState) (node other : NodeRef) (type : NominalType) :
    (state.remembering node type).inferred.get? other =
      if node = other then some type else state.inferred.get? other :=
  Table.get?_insert _ _ _ _

theorem areSound_remembering {type : NominalType} {deferred : List NodeRef}
    (saturated : type.isSaturated = true) (isDeferred : node ∈ deferred)
    (known : state.inferred.AreSound deferred) :
    (state.remembering node type).inferred.AreSound deferred := by
  intro other found isFound
  rw [get?_remembering] at isFound
  split at isFound
  · next same =>
      cases isFound
      exact ⟨saturated, same ▸ isDeferred⟩
  · exact known other found isFound

end ResolutionState

namespace Audit

open ResolutionState

variable {start : ResolutionState} {active : List NodeRef} {ledger : Ledger} {node : NodeRef}

theorem Tracks.remembering {type : NominalType} (tracks : Tracks start ledger)
    (isDeferred : node ∈ start.deferred.keys) (saturated : type.isSaturated = true) :
    Tracks start { ledger with state := ledger.state.remembering node type } where
  agrees :=
    have agrees := tracks.agrees
    ⟨agrees.1, agrees.2, agrees.3, agrees.4, agrees.5, agrees.6, agrees.7, agrees.8⟩
  inferred := areSound_remembering saturated isDeferred tracks.inferred
  faithful := ⟨tracks.faithful.bindings, tracks.faithful.types, tracks.faithful.declarations⟩

theorem isSome_remembering {state : ResolutionState} {other : NodeRef}
    (known : (state.inferred.get? other).isSome) (node : NodeRef) (type : NominalType) :
    ((state.remembering node type).inferred.get? other).isSome := by
  rw [get?_remembering]
  split
  · rfl
  · exact known

/-- An inquiry for what was put off does not lapse at once. -/
theorem run_inquiryWithin {deferred : Deferred} (depth : Nat) (active : List NodeRef)
    (found : ledger.state.deferred.get? node = some deferred) :
    (inquiryWithin depth active node).run ledger =
      (if node ∈ active then do
          report (.recursiveType deferred.name) node
          follow (Resolver.remember node .error)
        else
          match depth with
          | 0 => throw (.endless node)
          | depth + 1 => do
              let type ← infer (inquiryWithin depth (node :: active)) deferred.scope deferred.body
              follow (Resolver.remember node type) : Audit NominalType).run ledger := by
  rw [inquiryWithin, run_current_bind, found]
  rfl

/-- A declaration that depends on itself is reported, and its type is remembered
as an error for the time being. -/
theorem mirrors_recursive (name : String) (isDeferred : node ∈ start.deferred.keys)
    (isActive : node ∈ active) :
    Mirrors start active
      (do
        report (.recursiveType name) node
        follow (Resolver.remember node .error))
      (do
        Resolver.report (.recursiveType name) node
        Resolver.remember node .error) 0 fun type => type.isSaturated = true := by
  apply (mirrors_report _ _).after
  intro _ _ ledger tracks
  refine ⟨.error, _, rfl, rfl, tracks.remembering isDeferred rfl,
    ⟨fun other known => isSome_remembering known node .error, ?_⟩, rfl⟩
  change ledger.tally + (ledger.state.remembering node .error).unsettled active = _
  rw [zero_add, unsettled_eq_openWeight, unsettled_eq_openWeight, remembering, openWeight_remember,
    openWeight_cons_of_mem isActive]

/-- Once its expression is inferred, a declaration is settled. -/
theorem mirrorsFrom_remember {deferred : Deferred} {audit : Audit NominalType}
    {step : Resolver NominalType} (firm : start.Firm start.deferred.keys)
    (tracks : Tracks start ledger) (isDeferred : node ∈ start.deferred.keys)
    (found : ledger.state.deferred.get? node = some deferred)
    (notInferred : ledger.state.inferred.get? node = none) (notActive : node ∉ active)
    (mirrors : MirrorsFrom start (node :: active) ledger audit step deferred.body.tally
      fun type => type.isSaturated = true) :
    MirrorsFrom start active ledger
      (audit >>= fun type => follow (Resolver.remember node type))
      (step >>= Resolver.remember node) 0 fun type => type.isSaturated = true := by
  obtain ⟨type, middle, ran, same, tracksMiddle, adds, saturated⟩ := mirrors
  refine ⟨type, { middle with state := middle.state.remembering node type }, ?_, ?_,
    tracksMiddle.remembering isDeferred saturated, ⟨?_, ?_⟩, saturated⟩
  · rw [StateT.run_bind, ran]
    rfl
  · rw [StateT.run_bind, same]
    rfl
  · exact fun other known => isSome_remembering (adds.inferred other known) node type
  · have distinct : ledger.state.deferred.keys.Nodup := by
      rw [tracks.agrees.deferred]
      exact firm.deferredOnce
    change middle.tally + (middle.state.remembering node type).unsettled active = _
    rw [unsettled_eq_openWeight, remembering, openWeight_remember, ← unsettled_eq_openWeight,
      adds.tally, unsettled_eq_openWeight, unsettled_eq_openWeight,
      openWeight_eq_add distinct found notInferred notActive, zero_add, add_left_comm]

theorem exists_deferred (tracks : Tracks start ledger) (isDeferred : node ∈ start.deferred.keys) :
    ∃ deferred, ledger.state.deferred.get? node = some deferred := by
  rw [tracks.agrees.deferred, ← Option.isSome_iff_exists, Option.isSome_iff_ne_none]
  exact fun none => Table.get?_eq_none_iff.mp none isDeferred

/-- Distinct declarations that were all put off leave room as long as one that was
put off is not among them. -/
theorem mem_of_length_eq {deferred : List NodeRef} (distinct : active.Nodup)
    (included : active ⊆ deferred) (full : active.length = deferred.length)
    (isDeferred : node ∈ deferred) : node ∈ active := by
  have perm : active.Perm deferred :=
    (List.subperm_of_subset distinct included).perm_of_length_le full.ge
  exact perm.mem_iff.mpr isDeferred

/-- However deep inquiries go, they mirror demands and never run out of room. -/
theorem reliable_inquiryWithin (firm : start.Firm start.deferred.keys) (depth : Nat)
    (distinct : active.Nodup) (included : active ⊆ start.deferred.keys)
    (room : active.length + depth = start.deferred.keys.length) :
    Reliable start active (inquiryWithin depth active) (Resolver.demandWithin depth active) := by
  induction depth generalizing active with
  | zero =>
      -- All that was put off is active, so nothing is left that could be begun here.
      intro node isDeferred ledger tracks notInferred
      obtain ⟨deferred, found⟩ := exists_deferred tracks isDeferred
      have isActive := mem_of_length_eq distinct included room isDeferred
      unfold MirrorsFrom
      rw [run_inquiryWithin _ _ found, Resolver.run_demandWithin, found]
      simp only [isActive, if_true]
      exact mirrors_recursive deferred.name isDeferred isActive ledger tracks
  | succ depth ih =>
      intro node isDeferred ledger tracks notInferred
      obtain ⟨deferred, found⟩ := exists_deferred tracks isDeferred
      by_cases isActive : node ∈ active
      · unfold MirrorsFrom
        rw [run_inquiryWithin _ _ found, Resolver.run_demandWithin, found]
        simp only [isActive, if_true]
        exact mirrors_recursive deferred.name isDeferred isActive ledger tracks
      · have reliable := ih
          (List.nodup_cons.mpr ⟨isActive, distinct⟩) (List.cons_subset.mpr ⟨isDeferred, included⟩)
          (by rw [List.length_cons]; omega)
        have inferred := mirrors_infer reliable firm deferred.scope deferred.body ledger tracks
        unfold MirrorsFrom
        rw [run_inquiryWithin _ _ found, Resolver.run_demandWithin, found]
        simp only [isActive, if_false]
        exact mirrorsFrom_remember firm tracks isDeferred found notInferred isActive inferred

theorem reliable_inquiry (firm : start.Firm start.deferred.keys) :
    Reliable start [] inquiry Resolver.demand := by
  intro node isDeferred ledger tracks notInferred
  have room : ledger.state.deferred.size = start.deferred.keys.length := by
    rw [tracks.agrees.deferred, Table.keys, List.length_map]
    rfl
  have reliable := reliable_inquiryWithin firm ledger.state.deferred.size List.nodup_nil
    (List.nil_subset _) (by rw [room, List.length_nil, zero_add])
  exact reliable node isDeferred ledger tracks notInferred

end Audit

/-! ### Checks -/

namespace Tree

namespace Statement

theorem tally_variable (declared : Property) :
    (Statement.variable declared).tally =
      Tally.visit (Node.property declared).ref +
        (TypeRef.tally? declared.type +
          ((declared.initializer.map Expr.tally).getD 0 +
            Tally.entry .declaration (Node.property declared).ref)) := by
  rw [TypeRef.tally?_eq]
  refine Prod.ext ?_ ?_
  · refine (filled_property declared).trans ?_
    rw [add_assoc]
    refine Eq.trans ?_ (zero_add _).symm
    cases declared.initializer <;> rfl
  · cases initialized : declared.initializer <;>
      simp [tally, visited, Tally.visit, Tally.entry, Tally.filling, Expr.tally, initialized]

end Statement

namespace Member

/-- What checking a member adds to a ledger, if its body was not put off. -/
def checkedTally : Member → Tally
  | .function declared =>
      match declared.body with
      | .block steps => (steps.statements.map Statement.tally).sum
      | .expression body => if declared.returnType.isSome then body.tally else 0
  | .property declared =>
      if declared.type.isSome then (declared.initializer.map Expr.tally).getD 0 else 0

end Member

end Tree

namespace Audit

open ResolutionState

variable {promised : List NodeRef} {before : Ledger}

theorem carries_localType (declaration : Tree.Property) {type : Option NominalType}
    (saturated : ∀ found ∈ type, found.isSaturated = true) :
    Carries promised before (follow (Resolver.localType declaration type))
      (Resolver.localType declaration type) 0 0 fun value _ => value.isSaturated = true := by
  cases type with
  | some type =>
      exact Carries.of_mirrors fun _ => .of_quiet (Resolver.quiet_pure type)
        fun _ => saturated type rfl
  | none =>
      exact Carries.of_mirrors fun _ => .of_quiet
        ((Resolver.quiet_report _ _).bind fun _ => Resolver.quiet_pure _) fun _ => rfl

section Inferring

variable (kept : promised ⊆ before.state.deferred.keys)

include kept

theorem carries_infer (scope : Nat) (value : Tree.Expr) :
    Carries promised before (infer inquiry scope value)
      (Resolver.infer Resolver.demand scope value) 0 value.tally
      fun type _ => type.isSaturated = true := by
  apply Carries.of_mirrors
  intro firm
  have firm := firm.mono kept
  exact mirrors_infer (reliable_inquiry firm) firm scope value

theorem carries_returnType {node : NodeRef} {descriptor : FunctionDescriptor}
    (found : before.state.declarations.get? node = some (.function descriptor)) :
    Carries promised before (returnType inquiry descriptor)
      (Resolver.returnType Resolver.demand descriptor) 0 0
      fun type _ => type.isSaturated = true := by
  apply Carries.of_mirrors
  intro firm
  have firm := firm.mono kept
  exact mirrors_returnType (reliable_inquiry firm) (firm.declared node _ found).2

theorem carries_variableType {node : NodeRef} {descriptor : VariableDescriptor}
    (found : before.state.declarations.get? node = some (.variable descriptor)) :
    Carries promised before (variableType inquiry descriptor)
      (Resolver.variableType Resolver.demand descriptor) 0 0
      fun type _ => type.isSaturated = true := by
  apply Carries.of_mirrors
  intro firm
  have firm := firm.mono kept
  exact mirrors_variableType (reliable_inquiry firm) (firm.declared node _ found).2

theorem carries_check (scope : Nat) (value : Tree.Expr) (expected : NominalType) :
    Carries promised before (check scope value expected) (Resolver.check scope value expected) 0
      value.tally fun _ _ => True := by
  apply (carries_infer kept scope value).andThen
  intro _ _ _ _
  exact Carries.of_mirrors fun _ => mirrors_expect _ _ _

theorem carries_checkInitializer (scope : Nat) (written : Option NominalType)
    (initializer : Option Tree.Expr) :
    Carries promised before (checkInitializer scope written initializer)
      (Resolver.checkInitializer scope written initializer) 0
      ((initializer.map Tree.Expr.tally).getD 0)
      fun value _ => ∀ type ∈ value, type.isSaturated = true := by
  cases initializer with
  | none => exact .of_pure nofun
  | some value =>
      apply (carries_infer kept scope value).andThen
      intro type _ _ saturated
      have accepted : ∀ found ∈ some type, found.isSaturated = true := by
        intro found isType
        cases isType
        exact saturated
      cases written with
      | none => exact .of_pure accepted
      | some expected =>
          apply (Carries.of_mirrors fun _ => mirrors_expect _ _ _).after
          intro _ _ _ _
          exact .of_pure accepted

theorem carries_declareLocal (scope : Nat) (declaration : Tree.Property) :
    Carries promised before (declareLocal scope declaration)
      (Resolver.declareLocal scope declaration) 0
      (Tree.TypeRef.tally? declaration.type +
        ((declaration.initializer.map Tree.Expr.tally).getD 0 +
          Tally.entry .declaration (Node.property declaration).ref)) fun _ _ => True := by
  apply Carries.cast _ (zero_add 0) rfl
  apply (carries_resolveType? scope declaration.type).bind
  intro written _ carried resolved
  apply Carries.cast _ (zero_add 0) rfl
  apply (carries_checkInitializer (carried.includes kept) scope written declaration.initializer).bind
  intro inferred _ _ saturated
  have known : ∀ type ∈ written.or inferred, type.isSaturated = true := by
    cases written with
    | some type => exact resolved.2
    | none => exact saturated
  apply (carries_localType declaration known).after
  intro type _ _ saturatedType
  have sound : (Descriptor.variable (.local
      { name := declaration.name, declaration := some (Node.property declaration).ref, type
        binding := declaration.binding })).Sound promised :=
    ⟨saturatedType, fun leavesOpen => leavesOpen.elim⟩
  apply (carries_define scope _ ⟨sound, fun isClassifier => Bool.noConfusion isClassifier⟩).after
  intro _ _ _ _
  exact (Carries.of_declare ⟨rfl, rfl⟩ sound).weaken fun _ _ _ _ => trivial

end Inferring

theorem carries_checkStatements (scope : Nat) (statements : List Tree.Statement)
    (kept : promised ⊆ before.state.deferred.keys) :
    Carries promised before (checkStatements scope statements)
      (Resolver.checkStatements scope statements) 0
      (statements.map Tree.Statement.tally).sum fun _ _ => True := by
  induction statements generalizing before with
  | nil => exact .of_pure trivial
  | cons statement rest ih =>
      rw [List.map_cons, List.sum_cons]
      cases statement with
      | «variable» declaration =>
          rw [Tree.Statement.tally_variable, add_assoc]
          apply Carries.of_visit
          intro visited same
          have keptVisited : promised ⊆ visited.state.deferred.keys := same ▸ kept
          apply Carries.cast _ (zero_add 0) rfl
          apply (carries_declareLocal keptVisited scope declaration).bind
          intro _ _ carried _
          exact ih (carried.includes keptVisited)
      | expression value =>
          apply Carries.cast _ (zero_add 0) rfl
          apply (carries_infer kept scope value).bind
          intro _ _ carried _
          exact ih (carried.includes kept)

section Members

variable (kept : promised ⊆ before.state.deferred.keys)

include kept

theorem carries_checkFunction (function : Tree.Function)
    (ready : before.state.ReadyMember (.function function)) :
    Carries promised before (checkFunction function) (Resolver.checkFunction function) 0
      (Tree.Member.function function).checkedTally fun _ _ => True := by
  obtain ⟨⟨descriptor, found⟩, hasScope⟩ := ready
  obtain ⟨scope, foundScope⟩ := Option.isSome_iff_exists.mp hasScope
  apply Carries.of_get
  simp only [found, foundScope]
  apply Carries.of_functionAt found
  apply Carries.of_scopeAt foundScope
  apply (carries_returnType kept found).after
  intro returned _ carried _
  have keptOn := carried.includes kept
  cases body : function.body with
  | block steps =>
      simp only [Tree.Member.checkedTally, body]
      apply (carries_openScope _ _ _).after
      intro inner _ carriedOn _
      exact carries_checkStatements inner steps.statements (carriedOn.includes keptOn)
  | expression value =>
      simp only [Tree.Member.checkedTally, body]
      split
      · exact carries_check keptOn scope value returned
      · exact .of_pure trivial

theorem carries_checkProperty (property : Tree.Property)
    (ready : before.state.ReadyMember (.property property)) :
    Carries promised before (checkProperty property) (Resolver.checkProperty property) 0
      (Tree.Member.property property).checkedTally fun _ _ => True := by
  obtain ⟨⟨descriptor, found⟩, hasScope⟩ := ready
  obtain ⟨scope, foundScope⟩ := Option.isSome_iff_exists.mp hasScope
  apply Carries.of_get
  simp only [found, foundScope]
  apply Carries.of_variableAt found
  apply Carries.of_scopeAt foundScope
  apply (carries_variableType kept found).after
  intro type _ carried _
  cases initialized : property.initializer with
  | none =>
      simp only [Tree.Member.checkedTally, initialized, Option.map_none, Option.getD_none, ite_self]
      exact .of_pure trivial
  | some value =>
      simp only [Tree.Member.checkedTally, initialized, Option.map_some, Option.getD_some]
      split
      · exact carries_check (carried.includes kept) scope value type
      · exact .of_pure trivial

end Members

theorem carries_checkMembers (members : List Tree.Member)
    (kept : promised ⊆ before.state.deferred.keys)
    (ready : ∀ member ∈ members, before.state.ReadyMember member) :
    Carries promised before (checkMembers members) (Resolver.checkMembers members) 0
      (members.map Tree.Member.checkedTally).sum fun _ _ => True := by
  induction members generalizing before with
  | nil => exact .of_pure trivial
  | cons member rest ih =>
      rw [List.map_cons, List.sum_cons]
      obtain ⟨readyFirst, readyRest⟩ := List.forall_mem_cons.mp ready
      have goesOn {tally : Tally} (middle : Ledger)
          (carried : Carried promised 0 tally before middle) :=
        Carries.of_firm fun firm => ih (carried.includes kept) fun other inRest =>
          (readyRest other inRest).retained carried.retains firm
      apply Carries.cast _ (zero_add 0) rfl
      cases member with
      | function function =>
          exact (carries_checkFunction kept function readyFirst).bind
            fun _ middle carried _ => goesOn middle carried
      | property property =>
          exact (carries_checkProperty kept property readyFirst).bind
            fun _ middle carried _ => goesOn middle carried

theorem checkContents_cons (first : Tree.TopLevel) (rest : List Tree.TopLevel) :
    checkContents (first :: rest) =
      checkMembers first.members >>= fun _ => checkContents rest := by
  cases first <;> rfl

theorem carries_checkContents (contents : List Tree.TopLevel)
    (kept : promised ⊆ before.state.deferred.keys)
    (ready : ∀ member ∈ contents.flatMap Tree.TopLevel.members, before.state.ReadyMember member) :
    Carries promised before (checkContents contents) (Resolver.checkContents contents) 0
      ((contents.flatMap Tree.TopLevel.members).map Tree.Member.checkedTally).sum
      fun _ _ => True := by
  induction contents generalizing before with
  | nil => exact .of_pure trivial
  | cons first rest ih =>
      rw [List.flatMap_cons] at ready ⊢
      rw [List.map_append, List.sum_append, checkContents_cons, Resolver.checkContents_cons]
      obtain ⟨readyFirst, readyRest⟩ := List.forall_mem_append.mp ready
      apply Carries.cast _ (zero_add 0) rfl
      apply (carries_checkMembers first.members kept readyFirst).bind
      intro _ middle carried _
      apply Carries.of_firm
      intro firm
      exact ih (carried.includes kept) fun other inRest =>
        (readyRest other inRest).retained carried.retains firm

end Audit

end Gloss
