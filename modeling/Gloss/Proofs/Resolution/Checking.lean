import Gloss.Proofs.Resolution.Declaring
import Gloss.Proofs.Resolution.Inference
import Gloss.Proofs.Tree.Files
import Gloss.Resolution.Checking

/-!
# Checking the bodies

Checking infers every type that is still open and goes through the bodies that
were not put off.  Local variables are declared on the way, and no type is left
open in the end.
-/

namespace Gloss

namespace Resolver

open ResolutionState

variable {α : Type} {before after : ResolutionState} {node : NodeRef}
  {declared references : Multiset NodeRef} {step : Resolver α}
  {accept : α → ResolutionState → Prop}

/-- What is settled before a step that puts nothing off is settled after it. -/
theorem Takes.settled (takes : Takes before step declared 0 references accept)
    (settled : ¬ before.IsOpen node) :
    Takes before step declared 0 references fun _ after => ¬ after.IsOpen node :=
  fun grounded distinct =>
    ⟨(takes grounded distinct).1, (takes grounded distinct).1.not_isOpen settled⟩

theorem takes_infer (scope : Nat) (value : Tree.Expr) :
    Takes before (infer demand scope value) 0 0 (Node.expression value).references
      fun _ _ => True :=
  Takes.of_accounts fun grounded => accounts_infer (answers_demand grounded) grounded scope value

theorem takes_check (scope : Nat) (value : Tree.Expr) (expected : NominalType) :
    Takes before (check scope value expected) 0 0 (Node.expression value).references
      fun _ _ => True := by
  apply (takes_infer scope value).andThen
  intro _ _ _ _
  exact Takes.of_accounts fun _ => accounts_expect _ _ _

theorem takes_checkInitializer (scope : Nat) (written : Option NominalType)
    (initializer : Option Tree.Expr) :
    Takes before (checkInitializer scope written initializer) 0 0
      (Node.referencesOf? (initializer.map Node.expression)) fun _ _ => True := by
  cases initializer with
  | none => exact .of_pure trivial
  | some value =>
      apply (takes_infer scope value).andThen
      intro _ _ _ _
      cases written with
      | none => exact .of_pure trivial
      | some expected =>
          apply (Takes.of_accounts fun _ => accounts_expect _ _ _).after
          intro _ _ _ _
          exact .of_pure trivial

theorem takes_localType (declaration : Tree.Property) (type : Option NominalType) :
    Takes before (localType declaration type) 0 0 0 fun _ _ => True := by
  cases type with
  | some type => exact .of_pure trivial
  | none =>
      apply (Takes.of_accounts fun _ => accounts_report _ _).after
      intro _ _ _ _
      exact .of_pure trivial

theorem takes_declareLocal (scope : Nat) (declaration : Tree.Property) :
    Takes before (declareLocal scope declaration) (Node.property declaration).declarations 0
      (Node.property declaration).references fun _ _ => True := by
  rw [Node.declarations_property, Node.references_property]
  apply Takes.cast _ (zero_add _) (zero_add 0) rfl
  apply (Takes.of_accounts fun grounded =>
    accounts_resolveType? grounded scope declaration.type).bind
  intro written _ _ _
  apply Takes.cast _ (zero_add _) (zero_add 0) (add_zero _)
  apply (takes_checkInitializer scope written declaration.initializer).bind
  intro inferred _ _ _
  apply (takes_localType declaration _).after
  intro type middle _ _
  apply Takes.naming
  exact Takes.declaringLast (names_define middle _ _ _ (List.mem_singleton_self _)) ⟨rfl, rfl⟩
    nofun fun _ isMeaning => declares_of_mem isMeaning

theorem takes_checkStatements (scope : Nat) (statements : List Tree.Statement) :
    Takes before (checkStatements scope statements)
      (statements.map fun statement => statement.node.declarations).sum 0
      (statements.map fun statement => statement.node.references).sum fun _ _ => True := by
  induction statements generalizing before with
  | nil => exact .of_pure trivial
  | cons statement rest ih =>
      rw [List.map_cons, List.sum_cons, List.map_cons, List.sum_cons]
      apply Takes.cast _ rfl (zero_add 0) rfl
      cases statement with
      | «variable» declaration =>
          apply (takes_declareLocal scope declaration).bind
          intro _ _ _ _
          exact ih
      | expression value =>
          have declaresNothing : (Tree.Statement.expression value).node.declarations = 0 :=
            Node.declarations_expression value
          rw [declaresNothing]
          apply (takes_infer scope value).bind
          intro _ _ _ _
          exact ih

/-- Settling the type of a declaration leaves it closed. -/
theorem not_isOpen_of_settles (advances : before.Advances 0 0 0 after)
    (settles : node ∈ before.deferred.keys → (after.inferred.get? node).isSome) :
    ¬ after.IsOpen node := by
  intro isOpen
  rcases advances.opens node isOpen with ⟨put, -⟩ | none
  · have known := settles put
    rw [isOpen.2] at known
    cases known
  · exact Multiset.notMem_zero node none

/-- A step closes a declaration when it settles what the descriptor leaves open. -/
theorem takes_settling {descriptor : Descriptor}
    (found : before.declarations.get? node = some descriptor)
    (accounts : before.Grounded → Accounts before [] step 0 fun _ => True)
    (settles : descriptor.LeavesOpen → descriptor.declaration = some node →
      node ∈ before.deferred.keys → ((step.run before).2.inferred.get? node).isSome) :
    Takes before step 0 0 0 fun _ after => ¬ after.IsOpen node := by
  intro grounded distinct
  have takes : Takes before step 0 0 0 fun _ _ => True := Takes.of_accounts accounts
  obtain ⟨advances, -⟩ := takes grounded distinct
  refine ⟨advances, not_isOpen_of_settles advances ?_⟩
  intro put
  obtain ⟨known, foundKnown, leavesOpen⟩ := grounded.deferred node put
  rw [found, Option.some.injEq] at foundKnown
  rw [← foundKnown] at leavesOpen
  exact settles leavesOpen (grounded.declared node descriptor found).1 put

theorem takes_returnType {descriptor : FunctionDescriptor}
    (found : before.declarations.get? node = some (.function descriptor)) :
    Takes before (returnType demand descriptor) 0 0 0 fun _ after => ¬ after.IsOpen node := by
  apply takes_settling found
  · exact fun grounded => accounts_returnType (answers_demand grounded) descriptor
  · intro leavesOpen isDeclared put
    have isOpen : descriptor.returnType = none := leavesOpen
    have declaration : descriptor.declaration = some node := isDeclared
    rw [returnType, isOpen, declaration]
    exact inferred_of_settle put

theorem takes_variableType {descriptor : VariableDescriptor}
    (found : before.declarations.get? node = some (.variable descriptor)) :
    Takes before (variableType demand descriptor) 0 0 0 fun _ after => ¬ after.IsOpen node := by
  apply takes_settling found
  · exact fun grounded => accounts_variableType (answers_demand grounded) descriptor
  · intro leavesOpen isDeclared put
    cases descriptor with
    | parameter | «local» => exact leavesOpen.elim
    | property property =>
        have isOpen : property.type = none := leavesOpen
        have declaration : property.declaration = some node := isDeclared
        rw [variableType, isOpen, declaration]
        exact inferred_of_settle put

theorem takes_checkFunction (function : Tree.Function)
    (ready : before.ReadyMember (.function function)) :
    Takes before (checkFunction function)
      (Node.declarationsOf? (Tree.Member.function function).checkedBody?) 0
      (Node.referencesOf? (Tree.Member.function function).checkedBody?)
      fun _ after => ¬ after.IsOpen (Node.function function).ref := by
  obtain ⟨⟨descriptor, found⟩, hasScope⟩ := ready
  obtain ⟨scope, foundScope⟩ := Option.isSome_iff_exists.mp hasScope
  apply Takes.of_get
  simp only [found, foundScope]
  apply (takes_returnType found).after
  intro returned middle _ closed
  have stays {step : Resolver Unit} {declared references : Multiset NodeRef}
      (takes : Takes middle step declared 0 references fun _ _ => True) :=
    takes.settled closed
  cases body : function.body with
  | block block =>
      have checked : (Tree.Member.function function).checkedBody? = some (.block block) := by
        cases returned : function.returnType <;>
          simp [Tree.Member.checkedBody?, returned, body, Tree.Body.node]
      rw [checked, Node.declarationsOf?_some, Node.declarations_block, Node.referencesOf?_some,
        Node.references_block]
      apply stays
      apply (takes_openScope _ _ _).after
      intro inner _ _ _
      exact takes_checkStatements inner block.statements
  | expression value =>
      cases written : function.returnType with
      | none =>
          simp only [Tree.Member.checkedBody?, written, body]
          exact stays (.of_pure trivial)
      | some type =>
          simp only [Tree.Member.checkedBody?, written, body, Tree.Body.node]
          rw [Node.declarationsOf?_some, Node.declarations_expression]
          exact stays (takes_check scope value returned)

theorem takes_checkProperty (property : Tree.Property)
    (ready : before.ReadyMember (.property property)) :
    Takes before (checkProperty property)
      (Node.declarationsOf? (Tree.Member.property property).checkedBody?) 0
      (Node.referencesOf? (Tree.Member.property property).checkedBody?)
      fun _ after => ¬ after.IsOpen (Node.property property).ref := by
  obtain ⟨⟨descriptor, found⟩, hasScope⟩ := ready
  obtain ⟨scope, foundScope⟩ := Option.isSome_iff_exists.mp hasScope
  apply Takes.of_get
  simp only [found, foundScope]
  apply (takes_variableType found).after
  intro type middle _ closed
  have stays {step : Resolver Unit} {declared references : Multiset NodeRef}
      (takes : Takes middle step declared 0 references fun _ _ => True) :=
    takes.settled closed
  cases initialized : property.initializer with
  | none =>
      have unchecked : (Tree.Member.property property).checkedBody? = none := by
        cases written : property.type <;> simp [Tree.Member.checkedBody?, written, initialized]
      rw [unchecked]
      exact stays (.of_pure trivial)
  | some value =>
      cases written : property.type with
      | none =>
          simp only [Tree.Member.checkedBody?, written]
          exact stays (.of_pure trivial)
      | some declared =>
          simp only [Tree.Member.checkedBody?, written, initialized, Option.map_some]
          rw [Node.declarationsOf?_some, Node.declarations_expression]
          exact stays (takes_check scope value type)

/-- Members stay settled while others are settled. -/
theorem Takes.bindSettling {members others : List Tree.Member} {next : Resolver Unit}
    {laterDeclared laterReferences : Multiset NodeRef} {step : Resolver Unit}
    (takes : Takes before step declared 0 references
      fun _ after => ∀ member ∈ members, ¬ after.IsOpen member.node.ref)
    (goesOn : ∀ middle, before.Advances declared 0 references middle →
      Takes middle next laterDeclared 0 laterReferences
        fun _ after => ∀ member ∈ others, ¬ after.IsOpen member.node.ref) :
    Takes before (step >>= fun _ => next) (declared + laterDeclared) 0
      (references + laterReferences)
      fun _ after => ∀ member ∈ members ++ others, ¬ after.IsOpen member.node.ref := by
  apply Takes.cast _ rfl (zero_add 0) rfl
  apply takes.bind
  intro _ middle advances settled grounded distinct
  obtain ⟨later, settledOthers⟩ := goesOn middle advances grounded distinct
  refine ⟨later, List.forall_mem_append.mpr ⟨?_, settledOthers⟩⟩
  exact fun member inMembers => later.not_isOpen (settled member inMembers)

/-- Going through members settles the types of all of them. -/
theorem takes_checkMembers (members : List Tree.Member)
    (ready : ∀ member ∈ members, before.ReadyMember member) :
    Takes before (checkMembers members)
      (members.map fun member => Node.declarationsOf? member.checkedBody?).sum 0
      (members.map fun member => Node.referencesOf? member.checkedBody?).sum
      fun _ after => ∀ member ∈ members, ¬ after.IsOpen member.node.ref := by
  induction members generalizing before with
  | nil => exact .of_pure fun _ none => absurd none List.not_mem_nil
  | cons member rest ih =>
      rw [List.map_cons, List.sum_cons, List.map_cons, List.sum_cons, ← List.singleton_append]
      have readyFirst := ready member List.mem_cons_self
      have goesOn {declared references : Multiset NodeRef} (middle : ResolutionState)
          (advances : before.Advances declared 0 references middle) :=
        ih fun other inRest => (ready other (List.mem_cons_of_mem _ inRest)).mono advances.keeps
      have single {after : ResolutionState} (closed : ¬ after.IsOpen member.node.ref) :
          ∀ other ∈ [member], ¬ after.IsOpen other.node.ref :=
        List.forall_mem_singleton.mpr closed
      cases member with
      | function function =>
          have takes := takes_checkFunction function readyFirst
          exact Takes.bindSettling (Takes.weaken takes fun _ _ => single) goesOn
      | property property =>
          have takes := takes_checkProperty property readyFirst
          exact Takes.bindSettling (Takes.weaken takes fun _ _ => single) goesOn

theorem checkContents_cons (first : Tree.TopLevel) (rest : List Tree.TopLevel) :
    checkContents (first :: rest) =
      checkMembers first.members >>= fun _ => checkContents rest := by
  cases first <;> rfl

theorem takes_checkContents (contents : List Tree.TopLevel)
    (ready : ∀ member ∈ contents.flatMap Tree.TopLevel.members, before.ReadyMember member) :
    Takes before (checkContents contents)
      (contents.map fun declaration =>
        (declaration.members.map fun member => Node.declarationsOf? member.checkedBody?).sum).sum 0
      (contents.map fun declaration =>
        (declaration.members.map fun member => Node.referencesOf? member.checkedBody?).sum).sum
      fun _ after => ∀ member ∈ contents.flatMap Tree.TopLevel.members,
        ¬ after.IsOpen member.node.ref := by
  induction contents generalizing before with
  | nil => exact .of_pure fun _ none => absurd none List.not_mem_nil
  | cons first rest ih =>
      rw [List.flatMap_cons] at ready ⊢
      rw [List.map_cons, List.sum_cons, List.map_cons, List.sum_cons, checkContents_cons]
      obtain ⟨readyFirst, readyRest⟩ := List.forall_mem_append.mp ready
      apply (takes_checkMembers first.members readyFirst).bindSettling
      intro middle advances
      exact ih fun other inRest => (readyRest other inRest).mono advances.keeps

end Resolver

end Gloss

/-!
### Resolved files

A resolution of a whole file enters each reference outside of the package line
once, and nothing else.  Whatever it enters as a target is declared in the file
or comes from the library, and every declaration of the file is declared.
-/

namespace Gloss

namespace ResolutionState

theorem mem_library_of_mem_librarySymbols {symbol : Symbol Descriptor}
    (provided : symbol ∈ librarySymbols) : symbol.descriptor ∈ Library.descriptors := by
  apply List.mem_append_left
  rcases List.mem_append.mp provided with isClass | isFunction
  · obtain ⟨entry, inClasses, rfl⟩ := List.mem_map.mp isClass
    exact List.mem_append_left _ (List.mem_map.mpr ⟨entry, inClasses, rfl⟩)
  · obtain ⟨declared, inFunctions, rfl⟩ := List.mem_map.mp isFunction
    exact List.mem_append_right _ (List.mem_map.mpr ⟨declared, inFunctions, rfl⟩)

theorem mem_librarySymbols {symbol : Symbol Descriptor} {scope : Scope Descriptor}
    (inScopes : scope ∈ libraryScopes.newestFirst) (member : symbol ∈ scope.symbols) :
    symbol ∈ librarySymbols := by
  rcases Scopes.mem_symbols_of_foldl_define inScopes member with isNew | ⟨older, isRoot, inRoot⟩
  · exact isNew
  · rw [List.mem_singleton.mp isRoot] at inRoot
    cases inRoot

/-- Where no type is open, nothing is pending. -/
theorem pending_eq_zero {state : ResolutionState} (settled : ∀ node, ¬ state.IsOpen node) :
    state.pending [] = 0 := by
  rw [pending_eq_openWeight]
  exact openWeight_eq_zero fun node put none => settled node ⟨put, none⟩

/-- Before anything is declared, all names mean something in the library. -/
theorem grounded_initial : initial.Grounded where
  mentioned := by
    intro descriptor given
    rcases given with ⟨scope, inScopes, symbol, inScope, rfl⟩ | ⟨constructor, entry, found, -⟩
    · rcases List.mem_cons.mp inScopes with rfl | inLibrary
      · cases inScope
      · apply backs_of_mem_library
        exact mem_library_of_mem_librarySymbols (mem_librarySymbols inLibrary inScope)
    · cases found
  declared := fun _ _ found => by cases found
  parameters := fun _ _ found => by cases found
  constructed := fun _ none => by cases none
  constructorOnly := fun _ known => by cases known
  deferred := fun _ none => by cases none
  deferredOnce := List.nodup_nil
  inferred := fun _ known => by cases known

end ResolutionState

namespace Resolver

open ResolutionState

/-- A whole file is resolved with nothing left open. -/
theorem takes_resolveFile {before : ResolutionState} (file : Tree.File) :
    Takes before (resolveFile file) file.declaredNodes
      (file.members.map fun member => {member.node.ref}).sum file.references
      fun _ after => (∀ parameter ∈ file.constructorParameters, after.Constructs parameter) ∧
        ∀ member ∈ file.members, ¬ after.IsOpen member.node.ref := by
  rw [file.declaredNodes_eq, file.references_eq]
  apply Takes.cast _ rfl (add_zero _) rfl
  apply (takes_declareFile file).bind
  intro _ _ _ declared
  apply (takes_checkContents file.declarations declared.2).keeping _ declared.1
  exact fun _ _ keeps constructs parameter isOne => (constructs parameter isOne).mono keeps

/-- A resolved file: its references are entered once each, and its declarations
are declared. -/
structure Completes (file : Tree.File) (state : ResolutionState) : Prop where
  grounded : state.Grounded
  declarations : (state.declarations.keys : Multiset NodeRef) = file.declaredNodes
  constructs : ∀ parameter ∈ file.constructorParameters, state.Constructs parameter
  settled : ∀ node, ¬ state.IsOpen node
  entries : ∃ entries : List (NodeRef × Meaning Descriptor),
    state.bindings = entries.foldl Bindings.enter .empty ∧
      (∀ entry ∈ entries, entry.2.Backed state) ∧
      ((entries.map Prod.fst : List NodeRef) : Multiset NodeRef) = file.references

theorem mem_sum_singletons {members : List Tree.Member} {node : NodeRef}
    (isOne : node ∈ (members.map fun member => ({member.node.ref} : Multiset NodeRef)).sum) :
    ∃ member ∈ members, member.node.ref = node := by
  induction members with
  | nil => cases Multiset.notMem_zero node isOne
  | cons first rest ih =>
      rw [List.map_cons, List.sum_cons, Multiset.mem_add, Multiset.mem_singleton] at isOne
      rcases isOne with rfl | inRest
      · exact ⟨first, List.mem_cons_self, rfl⟩
      · obtain ⟨member, inMembers, same⟩ := ih inRest
        exact ⟨member, List.mem_cons_of_mem _ inMembers, same⟩

theorem completes_resolveFile (file : Tree.File) (distinct : file.declaredNodes.Nodup) :
    Completes file ((resolveFile file).run .initial).2 := by
  have nothingDeclared : (initial.declarations.keys : Multiset NodeRef) = 0 := rfl
  have distinctAll :
      ((initial.declarations.keys : Multiset NodeRef) + file.declaredNodes).Nodup := by
    rwa [nothingDeclared, zero_add]
  obtain ⟨advances, constructs, closed⟩ := takes_resolveFile file grounded_initial distinctAll
  have settled : ∀ node, ¬ ((resolveFile file).run .initial).2.IsOpen node := by
    intro node isOpen
    rcases advances.opens node isOpen with ⟨put, -⟩ | postponed
    · cases put
    · obtain ⟨member, inFile, rfl⟩ := mem_sum_singletons postponed
      exact closed member inFile isOpen
  obtain ⟨entries, bindings, backed, count⟩ := advances.entered
  refine ⟨advances.grounded, ?_, constructs, settled, entries, bindings, backed, ?_⟩
  · rw [advances.declarations, nothingDeclared, zero_add]
  · have nonePending := pending_eq_zero settled
    have nonePendingBefore : initial.pending [] = 0 := rfl
    rwa [nonePending, nonePendingBefore, add_zero, add_zero] at count

/-- Each reference has the meaning with which it was entered. -/
theorem Completes.exists_holds {file : Tree.File} {state : ResolutionState}
    (completes : Completes file state) (distinct : file.references.Nodup)
    (reference : NodeRef) :
    ∃ meaning : Option (Meaning Descriptor), state.bindings.Holds reference meaning ∧
      (meaning.isSome ↔ reference ∈ file.references) ∧
        ∀ entered ∈ meaning, entered.Backed state := by
  obtain ⟨entries, bindings, backed, count⟩ := completes.entries
  rw [← count, Multiset.coe_nodup] at distinct
  rw [← count, Multiset.mem_coe, bindings]
  by_cases isEntered : reference ∈ entries.map Prod.fst
  · obtain ⟨⟨_, entered⟩, member, rfl⟩ := List.mem_map.mp isEntered
    refine ⟨some entered, Bindings.holds_foldl_of_mem distinct member, ?_, ?_⟩
    · simpa using isEntered
    · intro _ none
      cases none
      exact backed _ member
  · refine ⟨none, ?_, ?_, ?_⟩
    · exact Bindings.holds_foldl_of_notMem (Bindings.holds_empty reference) isEntered
    · simpa using isEntered
    · intro _ none
      cases none

end Resolver

end Gloss
