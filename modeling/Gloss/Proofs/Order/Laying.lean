import Gloss.Proofs.Order.Checking
import Gloss.Proofs.Order.Heads
import Gloss.Proofs.Resolution.Runs

/-!
# What declaring adds

A step that declares adds symbols to scopes, parameters and members to classes, and
remarks to the journal; it notes scopes for some nodes and leaves all the rest alone.
-/

namespace Gloss

/-- The values under a key, in their order. -/
def valuesAt {κ ν : Type} [DecidableEq κ] (key : κ) (entries : List (κ × ν)) : List ν :=
  (entries.filter fun entry => entry.1 = key).map Prod.snd

section ValuesAt

variable {κ ν α : Type} [DecidableEq κ] {key : κ}

@[simp] theorem valuesAt_nil : valuesAt key ([] : List (κ × ν)) = [] := rfl

theorem valuesAt_append (first second : List (κ × ν)) :
    valuesAt key (first ++ second) = valuesAt key first ++ valuesAt key second := by
  rw [valuesAt, List.filter_append, List.map_append]
  rfl

theorem valuesAt_map_self (values : List α) (value : α → ν) :
    valuesAt key (values.map fun element => (key, value element)) = values.map value := by
  simp [valuesAt, List.filter_map, Function.comp_def]

theorem valuesAt_singleton_self (key : κ) (value : ν) : valuesAt key [(key, value)] = [value] := by
  simp [valuesAt]

theorem valuesAt_eq_nil {entries : List (κ × ν)} (apart : ∀ entry ∈ entries, entry.1 ≠ key) :
    valuesAt key entries = [] := by
  rw [valuesAt, List.filter_eq_nil_iff.mpr]
  · rfl
  · simpa using apart

theorem mem_of_mem_valuesAt {entries : List (κ × ν)} {value : ν}
    (member : value ∈ valuesAt key entries) : (key, value) ∈ entries := by
  obtain ⟨⟨other, _⟩, inEntries, rfl⟩ := List.mem_map.mp member
  obtain ⟨inEntries, same⟩ := List.mem_filter.mp inEntries
  have isKey : other = key := of_decide_eq_true same
  exact isKey ▸ inEntries

end ValuesAt

/-- A class with more parameters and members. -/
def ClassEntry.extend (parameters : List ParameterDescriptor) (members : List Descriptor)
    (entry : ClassEntry) : ClassEntry :=
  { entry with
    parameters := entry.parameters ++ parameters
    members := entry.members ++ members }

theorem ClassEntry.extend_extend (first second : List ParameterDescriptor)
    (members others : List Descriptor) (entry : ClassEntry) :
    (entry.extend first members).extend second others =
      entry.extend (first ++ second) (members ++ others) := by
  simp [extend]

@[simp] theorem ClassEntry.extend_nil : ClassEntry.extend [] [] = id := by
  funext entry
  simp [extend]

/-- What is added, the nodes for which something is noted, and the classes that are new. -/
structure Yield where
  remarks : List Remark := []
  symbols : List (Nat × Symbol Descriptor) := []
  parameters : List (TypeConstructor × ParameterDescriptor) := []
  members : List (TypeConstructor × Descriptor) := []
  nodes : List NodeRef := []
  classes : List (NodeRef × TypeConstructor) := []

instance : Append Yield where
  append first second :=
    { remarks := first.remarks ++ second.remarks
      symbols := first.symbols ++ second.symbols
      parameters := first.parameters ++ second.parameters
      members := first.members ++ second.members
      nodes := first.nodes ++ second.nodes
      classes := first.classes ++ second.classes }

namespace Yield

variable (first second : Yield)

@[simp] theorem remarks_append : (first ++ second).remarks = first.remarks ++ second.remarks := rfl

@[simp] theorem symbols_append : (first ++ second).symbols = first.symbols ++ second.symbols := rfl

@[simp] theorem parameters_append :
    (first ++ second).parameters = first.parameters ++ second.parameters := rfl

@[simp] theorem members_append : (first ++ second).members = first.members ++ second.members := rfl

@[simp] theorem nodes_append : (first ++ second).nodes = first.nodes ++ second.nodes := rfl

@[simp] theorem classes_append : (first ++ second).classes = first.classes ++ second.classes := rfl

end Yield

namespace ResolutionState

/-- What is noted for a node. -/
structure Notes where
  function : Option Nat
  initializer : Option Nat
  deferred : Option Deferred

def notes (state : ResolutionState) (node : NodeRef) : Notes where
  function := state.functionScopes.get? node
  initializer := state.initializerScopes.get? node
  deferred := state.deferred.get? node

/-- From one state to another something is added. -/
structure Lays (before : ResolutionState) (yield : Yield) (after : ResolutionState) : Prop where
  size : before.scopes.size ≤ after.scopes.size
  chain : ∀ number < before.scopes.size,
    after.scopes.chain number = before.scopes.chain number
  symbols : ∀ number < before.scopes.size,
    after.scopes.symbolsOf number =
      before.scopes.symbolsOf number ++ valuesAt number yield.symbols
  journal : after.journal = before.journal.remarkAll yield.remarks
  inferred : after.inferred = before.inferred
  headerScopes : ∀ node ∉ yield.classes.map Prod.fst,
    after.headerScopes.get? node = before.headerScopes.get? node
  classes : ∀ constructor ∉ yield.classes.map Prod.snd,
    after.classes.get? constructor = (before.classes.get? constructor).map
      (ClassEntry.extend (valuesAt constructor yield.parameters)
        (valuesAt constructor yield.members))
  notes : ∀ node ∉ yield.nodes, after.notes node = before.notes node

variable {before middle after : ResolutionState} {yield later : Yield}

theorem Lays.refl (state : ResolutionState) : state.Lays {} state where
  size := le_rfl
  chain _ _ := rfl
  symbols _ _ := (List.append_nil _).symm
  journal := rfl
  inferred := rfl
  headerScopes _ _ := rfl
  classes constructor _ := by simp
  notes _ _ := rfl

theorem Lays.trans (lays : before.Lays yield middle) (laysLater : middle.Lays later after) :
    before.Lays (yield ++ later) after where
  size := lays.size.trans laysLater.size
  chain number inside :=
    (laysLater.chain number (inside.trans_le lays.size)).trans (lays.chain number inside)
  symbols number inside := by
    rw [laysLater.symbols number (inside.trans_le lays.size), lays.symbols number inside,
      Yield.symbols_append, valuesAt_append, List.append_assoc]
  journal := by
    rw [laysLater.journal, lays.journal, Yield.remarks_append, Journal.remarkAll_append]
  inferred := laysLater.inferred.trans lays.inferred
  headerScopes node isOther := by
    rw [Yield.classes_append, List.map_append, List.mem_append, not_or] at isOther
    rw [laysLater.headerScopes node isOther.2, lays.headerScopes node isOther.1]
  classes constructor isOther := by
    rw [Yield.classes_append, List.map_append, List.mem_append, not_or] at isOther
    rw [laysLater.classes constructor isOther.2, lays.classes constructor isOther.1, Option.map_map,
      Yield.parameters_append, Yield.members_append, valuesAt_append, valuesAt_append]
    congr 1
    funext entry
    exact ClassEntry.extend_extend _ _ _ _ entry
  notes node isOther := by
    rw [Yield.nodes_append, List.mem_append, not_or] at isOther
    rw [laysLater.notes node isOther.2, lays.notes node isOther.1]

/-- What is added to scopes that were opened on the way need not be told. -/
theorem Lays.cast (lays : before.Lays yield after) (remarks : yield.remarks = later.remarks)
    (symbols : ∀ number < before.scopes.size,
      valuesAt number yield.symbols = valuesAt number later.symbols)
    (parameters : yield.parameters = later.parameters) (members : yield.members = later.members)
    (nodes : yield.nodes ⊆ later.nodes) (classes : yield.classes ⊆ later.classes) :
    before.Lays later after where
  size := lays.size
  chain := lays.chain
  symbols number inside := by rw [lays.symbols number inside, symbols number inside]
  journal := by rw [lays.journal, remarks]
  inferred := lays.inferred
  headerScopes node isOther :=
    lays.headerScopes node fun isIn => isOther (List.map_subset Prod.fst classes isIn)
  classes constructor isOther := by
    rw [lays.classes constructor fun isIn => isOther (List.map_subset Prod.snd classes isIn),
      parameters, members]
  notes node isOther := lays.notes node (mt (@nodes node) isOther)

/-! ### Classifiers -/

end ResolutionState

/-- What the names of types mean depends on the levels alone. -/
theorem Surroundings.classifiers_eq_foldr (around : Surroundings) :
    around.classifiers =
      around.levels.foldr (fun level outer => Classifiers.inside outer level) fun _ => none := by
  funext name
  rw [classifiers, lookup]
  induction around.levels with
  | nil => rfl
  | cons level outer ih =>
      rw [List.map_cons, List.foldr_cons, Classifiers.inside, ← ih]
      cases (level.filter fun symbol => symbol.name = name).filter
          fun symbol => symbol.kind.isClassifier with
      | nil => rfl
      | cons found others => rfl

namespace ResolutionState

theorem classifiers_eq_foldr (state : ResolutionState) (scope : Nat) :
    state.classifiers scope =
      ((state.scopes.chain scope).map state.scopes.symbolsOf).foldr
        (fun level outer => Classifiers.inside outer level) fun _ => none := by
  rw [← state.around_classifiers scope ⟨.file, ⟨0, 0⟩⟩, ← Scopes.map_symbols_levels]
  exact Surroundings.classifiers_eq_foldr _

/-- Inside of a scope its classifiers come first. -/
theorem classifiers_of_chain {state : ResolutionState} {scope outer : Nat}
    (chain : state.scopes.chain scope = scope :: state.scopes.chain outer) :
    state.classifiers scope =
      (state.classifiers outer).inside (state.scopes.symbolsOf scope) := by
  rw [classifiers_eq_foldr, classifiers_eq_foldr, chain]
  rfl

end ResolutionState

/-- Other symbols do not change what the names of types mean. -/
theorem Classifiers.inside_append (outer : Classifiers) (level : List (Symbol Descriptor))
    {others : List (Symbol Descriptor)}
    (plain : ∀ symbol ∈ others, symbol.kind.isClassifier = false) :
    outer.inside (level ++ others) = outer.inside level := by
  funext name
  have nothing : (others.filter fun symbol => symbol.name = name).filter
      (fun symbol => symbol.kind.isClassifier) = [] := by
    rw [List.filter_eq_nil_iff]
    intro symbol isNamed
    rw [plain symbol (List.mem_of_mem_filter isNamed)]
    exact Bool.false_ne_true
  rw [inside, inside, List.filter_append, List.filter_append, nothing, List.append_nil]

/-- Inside of a level without classifiers the names of types mean what they mean around it. -/
theorem Classifiers.inside_eq_self (outer : Classifiers) {level : List (Symbol Descriptor)}
    (plain : ∀ symbol ∈ level, symbol.kind.isClassifier = false) : outer.inside level = outer :=
  outer.inside_append [] plain

namespace ResolutionState

variable {before after : ResolutionState} {yield : Yield} {scope : Nat}

theorem Lays.classifiers_eq (lays : before.Lays yield after) (inside : scope < before.scopes.size)
    (plain : ∀ entry ∈ yield.symbols, entry.1 ≤ scope → entry.2.kind.isClassifier = false) :
    after.classifiers scope = before.classifiers scope := by
  rw [classifiers_eq_foldr, classifiers_eq_foldr, lays.chain scope inside, List.foldr_map,
    List.foldr_map]
  apply List.foldr_ext
  intro number inChain outer
  have := Scopes.le_of_mem_chain inChain
  rw [lays.symbols number (by omega)]
  apply Classifiers.inside_append
  exact fun symbol isNew => plain (number, symbol) (mem_of_mem_valuesAt isNew) this

/-! ### Single steps -/

section Steps

open Resolver

theorem lays_remark (state : ResolutionState) (remark : Remark) :
    state.Lays { remarks := [remark] } (state.remark remark) := by
  have journal : (state.remark remark).journal = state.journal.remarkAll [remark] :=
    state.journal_remark remark
  cases remark with
  | arity count =>
      rw [ResolutionState.remark] at journal ⊢
      split at journal
      · next known => simpa [known] using { Lays.refl state with journal }
      · next new => simpa [new] using { Lays.refl state with journal }
  | _ => exact { Lays.refl state with journal }

theorem lays_remarkAll (state : ResolutionState) (remarks : List Remark) :
    state.Lays { remarks } (state.remarkAll remarks) := by
  induction remarks generalizing state with
  | nil => exact .refl state
  | cons remark rest ih => exact (state.lays_remark remark).trans (ih _)

theorem lays_openScope (state : ResolutionState) (parent : Nat) (name kind : String) :
    state.Lays {} { state with scopes := state.scopes.openIn parent name kind } where
  size := Nat.le_succ _
  chain _ older := Scopes.chain_openIn_of_lt parent name kind older
  symbols number older := by
    rw [Scopes.symbolsOf_openIn_of_lt parent name kind older]
    exact (List.append_nil _).symm
  journal := rfl
  inferred := rfl
  headerScopes _ _ := rfl
  classes constructor _ := by simp
  notes _ _ := rfl

theorem lays_defined (state : ResolutionState) (scope : Nat) (symbol : Symbol Descriptor) :
    state.Lays { symbols := [(scope, symbol)] }
      { state with scopes := state.scopes.define scope symbol } where
  size := (Scopes.size_define _ _ _).ge
  chain number _ := Scopes.chain_define _ _ _ _
  symbols number inside := by
    by_cases same : scope = number
    · subst same
      rw [Scopes.symbolsOf_define_self _ _ inside]
      simp [valuesAt]
    · rw [Scopes.symbolsOf_define_of_ne _ _ (Ne.symm same)]
      simp [valuesAt, same]
  journal := rfl
  inferred := rfl
  headerScopes _ _ := rfl
  classes constructor _ := by simp
  notes _ _ := rfl

theorem lays_define (state : ResolutionState) (scope : Nat) (introduction : Introduction) :
    state.Lays
      { remarks := introduction.clash (state.scopes.symbolsOf scope)
        symbols := [(scope, introduction.symbol)] }
      ((define scope introduction.symbol introduction.node).run state).2 := by
  rw [run_define_eq, Scopes.conflict?_eq, Introduction.clash]
  cases ((state.scopes.symbolsOf scope).filter fun earlier =>
      earlier.name = introduction.symbol.name).find? _ with
  | none => exact state.lays_defined scope introduction.symbol
  | some earlier =>
      exact (state.lays_remark _).trans (lays_defined _ scope introduction.symbol)

theorem lays_declare (state : ResolutionState) (introduction : Introduction) :
    state.Lays { remarks := [introduction.declared] }
      ((declare introduction.node introduction.symbol.descriptor).run state).2 :=
  state.lays_remark introduction.declared

theorem lays_updateClass (state : ResolutionState) (constructor : TypeConstructor)
    (parameters : List ParameterDescriptor) (members : List Descriptor) :
    state.Lays
      { parameters := parameters.map fun parameter => (constructor, parameter)
        members := members.map fun member => (constructor, member) }
      ((updateClass constructor (ClassEntry.extend parameters members)).run state).2 := by
  have classes : ∀ other,
      ((updateClass constructor (ClassEntry.extend parameters members)).run
        state).2.classes.get? other =
      (state.classes.get? other).map (ClassEntry.extend
        (valuesAt other (parameters.map fun parameter => (constructor, parameter)))
        (valuesAt other (members.map fun member => (constructor, member)))) := by
    intro other
    by_cases same : constructor = other
    · subst same
      rw [valuesAt_map_self, valuesAt_map_self, List.map_id', List.map_id']
      cases found : state.classes.get? constructor with
      | none => rw [run_updateClass_of_none found, found, Option.map_none]
      | some entry =>
          rw [run_updateClass_of_some found, Table.get?_insert, if_pos rfl, Option.map_some]
    · rw [valuesAt_eq_nil (by simpa using fun _ _ => same),
        valuesAt_eq_nil (by simpa using fun _ _ => same), ClassEntry.extend_nil, Option.map_id]
      cases found : state.classes.get? constructor with
      | none =>
          rw [run_updateClass_of_none found]
          rfl
      | some entry =>
          rw [run_updateClass_of_some found, Table.get?_insert, if_neg same]
          rfl
  rw [run_updateClass] at classes ⊢
  exact { Lays.refl state with classes := fun other _ => classes other }

theorem lays_addMember (state : ResolutionState) (owner : Option ClassDescriptor)
    (member : Descriptor) :
    state.Lays { members := owner.toList.map fun owner => (owner.constructor, member) }
      ((addMember owner member).run state).2 := by
  cases owner with
  | none => exact .refl state
  | some owner =>
      have same : (fun entry : ClassEntry => { entry with members := entry.members ++ [member] }) =
          ClassEntry.extend [] [member] := by
        funext entry
        simp [ClassEntry.extend]
      rw [addMember, same]
      exact state.lays_updateClass owner.constructor [] [member]

theorem lays_functionScope (state : ResolutionState) (node : NodeRef) (scope : Nat) :
    state.Lays { nodes := [node] }
      { state with functionScopes := state.functionScopes.insert node scope } where
  __ := Lays.refl state
  notes other isOther := by
    have different : node ≠ other := Ne.symm (by simpa using isOther)
    simp [ResolutionState.notes, Table.get?_insert, different]

theorem lays_initializerScope (state : ResolutionState) (node : NodeRef) (scope : Nat) :
    state.Lays { nodes := [node] }
      { state with initializerScopes := state.initializerScopes.insert node scope } where
  __ := Lays.refl state
  notes other isOther := by
    have different : node ≠ other := Ne.symm (by simpa using isOther)
    simp [ResolutionState.notes, Table.get?_insert, different]

theorem lays_defer (state : ResolutionState) (node : NodeRef) (deferred : Deferred) :
    state.Lays { nodes := [node] }
      { state with deferred := state.deferred.insert node deferred } where
  __ := Lays.refl state
  notes other isOther := by
    have different : node ≠ other := Ne.symm (by simpa using isOther)
    simp [ResolutionState.notes, Table.get?_insert, different]

end Steps

end ResolutionState

end Gloss
