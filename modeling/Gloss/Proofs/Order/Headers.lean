import Gloss.Proofs.Order.Filing
import Gloss.Proofs.Order.Slots

/-!
# Headers of classes

Before anything else is declared, each class gets its header and an entry that is
filled later.
-/

namespace Gloss

open Resolver Gloss.Tree ResolutionState

theorem Journal.get?_declarations_remarkAll (journal : Journal) {remarks : List Remark}
    {node : NodeRef} (notDeclared : node ∉ Remark.nodes .declaration remarks) :
    (journal.remarkAll remarks).declarations.get? node = journal.declarations.get? node := by
  induction remarks generalizing journal with
  | nil => rfl
  | cons remark rest ih =>
      rw [← List.singleton_append, Remark.nodes_append, List.mem_append, not_or] at notDeclared
      refine (ih (journal.remark remark) notDeclared.2).trans ?_
      cases remark with
      | declared other descriptor =>
          have different : other ≠ node := fun same => notDeclared.1 (same ▸ List.mem_cons_self)
          exact (Table.get?_insert _ _ _ _).trans (if_neg different)
      | _ => rfl

namespace ResolutionState

variable {before after state : ResolutionState} {yield : Yield} {declaration : Tree.Class}

theorem Lays.get?_declarations (lays : before.Lays yield after) {node : NodeRef}
    (notDeclared : node ∉ Remark.filled yield.remarks .declaration) :
    after.declarations.get? node = before.declarations.get? node := by
  have same := congrArg (fun journal : Journal => journal.declarations.get? node) lays.journal
  exact same.trans (Journal.get?_declarations_remarkAll _ notDeclared)

/-- A class keeps its entry while others get theirs. -/
theorem Lays.get?_classes (lays : before.Lays yield after) {constructor : TypeConstructor}
    (notNew : ∀ entry ∈ yield.classes, entry.2 ≠ constructor)
    (parameters : ∀ entry ∈ yield.parameters, entry.1 ≠ constructor)
    (members : ∀ entry ∈ yield.members, entry.1 ≠ constructor) :
    after.classes.get? constructor = before.classes.get? constructor := by
  rw [lays.classes, valuesAt_eq_nil parameters, valuesAt_eq_nil members, ClassEntry.extend_nil,
    Option.map_id, id_eq]
  intro isNew
  obtain ⟨entry, isEntry, same⟩ := List.mem_map.mp isNew
  exact notNew entry isEntry same

theorem Headed.mono (headed : before.Headed declaration) (lays : before.Lays yield after)
    (notDeclared : (Node.class declaration).ref ∉ Remark.filled yield.remarks .declaration)
    (apart : ∀ entry ∈ yield.symbols, entry.1 ≤ fileScope)
    (notNew : ∀ entry ∈ yield.classes, entry.1 ≠ (Node.class declaration).ref ∧
      entry.2 ≠ declaration.describe.constructor)
    (parameters : ∀ entry ∈ yield.parameters, entry.1 ≠ declaration.describe.constructor)
    (members : ∀ entry ∈ yield.members, entry.1 ≠ declaration.describe.constructor) :
    after.Headed declaration where
  declared := (lays.get?_declarations notDeclared).trans headed.declared
  header := by
    obtain ⟨header, isHeader, reaches⟩ := headed.header
    refine ⟨header, ?_, reaches.mono lays apart⟩
    rw [lays.headerScopes, isHeader]
    intro isNew
    obtain ⟨entry, isEntry, same⟩ := List.mem_map.mp isNew
    exact (notNew entry isEntry).1 same
  entry :=
    (lays.get?_classes (fun entry isEntry => (notNew entry isEntry).2) parameters members).trans
      headed.entry

/-! ### Headers of classes -/

theorem lays_header (state : ResolutionState) (declaration : Tree.Class) (header : Nat) :
    state.Lays
      { classes := [((Node.class declaration).ref, declaration.describe.constructor)] }
      { state with
        classes := state.classes.insert declaration.describe.constructor
          { descriptor := declaration.describe }
        headerScopes := state.headerScopes.insert (Node.class declaration).ref header } where
  __ := Lays.refl state
  headerScopes node isOther := by
    rw [Table.get?_insert, if_neg]
    exact fun same => isOther (by simp [same])
  classes constructor isOther := by
    rw [Table.get?_insert, if_neg]
    · simp
    · exact fun same => isOther (by simp [same])

/-- The state in which the type parameters of a class are declared. -/
def openingHeader (state : ResolutionState) (declaration : Tree.Class) : ResolutionState :=
  ((declareTypeParameters state.scopes.size (some declaration.name)
    declaration.typeParameters).run
      { state with
        scopes := state.scopes.openIn fileScope ("class " ++ declaration.name) "class" }).2

/-- The state in which the name of a class is introduced to the file. -/
def namingClass (head : ResolutionState) (declaration : Tree.Class) : ResolutionState :=
  ((declare declaration.introduction.node declaration.introduction.symbol.descriptor).run
    ((define fileScope declaration.introduction.symbol declaration.introduction.node).run head).2).2

theorem lays_openingHeader (declaration : Tree.Class) (state : ResolutionState)
    (inside : fileScope < state.scopes.size) :
    ((declareTypeParameters state.scopes.size (some declaration.name)
        declaration.typeParameters).run
      { state with
        scopes := state.scopes.openIn fileScope ("class " ++ declaration.name) "class" }).1 =
          declaration.describe.typeParameters ∧
      state.Lays
        { remarks := Introduction.remarksOfAll [] declaration.header
          symbols := declaration.header.map
            fun introduction => (state.scopes.size, introduction.symbol) }
        (state.openingHeader declaration) ∧
      (state.openingHeader declaration).Reaches state.scopes.size fileScope
        [declaration.header.map Introduction.symbol] := by
  let opened : ResolutionState :=
    { state with
      scopes := state.scopes.openIn fileScope ("class " ++ declaration.name) "class" }
  have opens : state.Lays {} opened := state.lays_openScope _ _ _
  have openedInside : state.scopes.size < opened.scopes.size := Nat.lt_succ_self _
  have noSymbols : opened.scopes.symbolsOf state.scopes.size = [] :=
    Scopes.symbolsOf_openIn_size _ _ _ _
  have chain : opened.scopes.chain state.scopes.size =
      state.scopes.size :: opened.scopes.chain fileScope := by
    rw [opens.chain fileScope inside]
    exact Scopes.chain_openIn_size _ _ _ _
  obtain ⟨typeParameters, lays⟩ := run_declareTypeParameters (some declaration.name)
    declaration.typeParameters opened openedInside
  rw [noSymbols] at lays
  refine ⟨typeParameters, opens.trans lays, ?_⟩
  apply Reaches.of_chain (openedInside.trans_le lays.size) inside
  · exact (lays.chain _ openedInside).trans (chain.trans (congrArg _
      (lays.chain fileScope (inside.trans openedInside)).symm))
  · refine (lays.symbolsOf_eq_append openedInside (valuesAt_map_self _ _)).trans ?_
    rw [noSymbols]
    rfl

theorem lays_declareClass (declaration : Tree.Class) (state : ResolutionState)
    (inside : fileScope < state.scopes.size) :
    state.Lays
        { remarks := declaration.headRemarks (state.scopes.symbolsOf fileScope)
          symbols := [(fileScope, declaration.introduction.symbol)]
          classes := [((Node.class declaration).ref, declaration.describe.constructor)] }
        ((declareClass declaration).run state).2 ∧
      ((declareClass declaration).run state).2.Headed declaration := by
  obtain ⟨typeParameters, laysHeader, reaches⟩ := lays_openingHeader declaration state inside
  have run : ((declareClass declaration).run state).2 =
      { (state.openingHeader declaration).namingClass declaration with
        classes := ((state.openingHeader declaration).namingClass
          declaration).classes.insert declaration.describe.constructor
            { descriptor := declaration.describe }
        headerScopes := ((state.openingHeader declaration).namingClass
          declaration).headerScopes.insert (Node.class declaration).ref state.scopes.size } := by
    have isOpened : (openScope fileScope ("class " ++ declaration.name) "class").run state =
        (state.scopes.size, { state with
          scopes := state.scopes.openIn fileScope ("class " ++ declaration.name) "class" }) := rfl
    rw [declareClass, run_bind, isOpened]
    dsimp only
    rw [run_bind, typeParameters]
    rfl
  rw [run]
  have level : (state.openingHeader declaration).scopes.symbolsOf fileScope =
      state.scopes.symbolsOf fileScope := by
    rw [laysHeader.symbols fileScope inside, valuesAt_eq_nil, List.append_nil]
    intro entry isEntry
    obtain ⟨introduction, -, rfl⟩ := List.mem_map.mp isEntry
    exact inside.ne'
  have named := lays_introduce (state.openingHeader declaration) fileScope declaration.introduction
  rw [level] at named
  have noted := ((state.openingHeader declaration).namingClass declaration).lays_header
    declaration state.scopes.size
  have laysAll := (laysHeader.trans named).trans noted
  refine ⟨laysAll.cast ?_ ?_ rfl rfl (fun _ => id) (fun _ => id), ?_, ?_, ?_⟩
  · simp [Class.headRemarks]
  · intro number isInside
    rw [Yield.symbols_append, Yield.symbols_append, valuesAt_append, valuesAt_append,
      valuesAt_eq_nil, List.nil_append]
    · exact List.append_nil _
    · intro entry isEntry
      obtain ⟨introduction, -, rfl⟩ := List.mem_map.mp isEntry
      exact isInside.ne'
  · exact (Table.get?_insert _ _ _ _).trans (if_pos rfl)
  · refine ⟨state.scopes.size, ?_, (reaches.mono named (by simp)).mono noted (by simp)⟩
    exact (Table.get?_insert _ _ _ _).trans (if_pos rfl)
  · exact (Table.get?_insert _ _ _ _).trans (if_pos rfl)

end ResolutionState

namespace Tree

theorem Class.constructor_ne {first second : Tree.Class}
    (different : (Node.class first).ref ≠ (Node.class second).ref) :
    first.describe.constructor ≠ second.describe.constructor := by
  intro same
  have origins := congrArg TypeConstructor.origin same
  exact different (Origin.declared.inj origins)

namespace TopLevel

/-- No two declarations are about the same node. -/
def Distinct (contents : List TopLevel) : Prop :=
  ((contents.map fun declared => declared.node.filled).sum .declaration).Nodup

theorem distinct_cons {first : TopLevel} {rest : List TopLevel} :
    Distinct (first :: rest) ↔
      (first.node.filled .declaration).Nodup ∧ Distinct rest ∧
        Disjoint (first.node.filled .declaration)
          ((rest.map fun declared => declared.node.filled).sum .declaration) := by
  rw [Distinct, List.map_cons, List.sum_cons, Pi.add_apply, Multiset.nodup_add]
  rfl

theorem mem_sum_map {α : Type} {items : List α} {amount : α → Slot → Multiset NodeRef}
    {slot : Slot} {item : α} {node : NodeRef} (isItem : item ∈ items)
    (inItem : node ∈ amount item slot) : node ∈ (items.map amount).sum slot := by
  induction items with
  | nil => cases isItem
  | cons first rest ih =>
      rw [List.map_cons, List.sum_cons, Pi.add_apply, Multiset.mem_add]
      rcases List.mem_cons.mp isItem with rfl | inRest
      · exact .inl inItem
      · exact .inr (ih inRest)

theorem mem_filled_of_mem_headFilled {declared : TopLevel} {node : NodeRef}
    (inHead : node ∈ declared.headFilled .declaration) :
    node ∈ declared.node.filled .declaration := by
  rw [filled_eq, Pi.add_apply, Pi.add_apply, Multiset.mem_add, Multiset.mem_add]
  exact .inl (.inl inHead)

theorem mem_filled_of_mem_contentFilled {declared : TopLevel} {node : NodeRef}
    (inContent : node ∈ declared.contentFilled .declaration) :
    node ∈ declared.node.filled .declaration := by
  rw [filled_eq, Pi.add_apply, Pi.add_apply, Multiset.mem_add, Multiset.mem_add]
  exact .inl (.inr inContent)

theorem mem_classes {contents : List TopLevel} {declaration : Tree.Class} :
    declaration ∈ classes contents ↔ TopLevel.class declaration ∈ contents := by
  induction contents with
  | nil => simp [classes]
  | cons first rest ih => cases first <;> simp [classes, ih]

/-- A class is declared at a node of its own. -/
theorem mem_filled_class (declaration : Tree.Class) :
    (Node.class declaration).ref ∈ (TopLevel.class declaration).node.filled .declaration :=
  mem_filled_of_mem_headFilled (Multiset.mem_add.mpr (.inr (Multiset.mem_singleton_self _)))

/-- A class is about a node of its own, apart from what is declared besides. -/
theorem Distinct.notMem_of_mem_classes {first : TopLevel} {rest : List TopLevel}
    (distinct : Distinct (first :: rest)) {declaration : Tree.Class}
    (isClass : declaration ∈ classes rest) :
    (Node.class declaration).ref ∉ first.node.filled .declaration := by
  intro inFirst
  exact Multiset.disjoint_left.mp (distinct_cons.mp distinct).2.2 inFirst
    (mem_sum_map (mem_classes.mp isClass) (mem_filled_class declaration))

theorem mem_sum_of_mem_sum_headFilled {contents : List TopLevel} {node : NodeRef}
    (inHeads : node ∈ (contents.map headFilled).sum .declaration) :
    node ∈ (contents.map fun declared => declared.node.filled).sum .declaration := by
  induction contents with
  | nil => exact inHeads
  | cons first rest ih =>
      rw [List.map_cons, List.sum_cons, Pi.add_apply, Multiset.mem_add] at inHeads ⊢
      exact inHeads.imp mem_filled_of_mem_headFilled ih

/-- What is added where the classes among some declarations are declared. -/
def headYield (level : List (Symbol Descriptor)) (contents : List TopLevel) : Yield where
  remarks := classRemarks level contents
  symbols := (classes contents).map fun declaration => (fileScope, declaration.introduction.symbol)
  classes := (classes contents).map fun declaration =>
    ((Node.class declaration).ref, declaration.describe.constructor)

end TopLevel

end Tree

namespace ResolutionState

theorem lays_declareClasses (contents : List TopLevel) (state : ResolutionState)
    (inside : fileScope < state.scopes.size)
    (distinct : TopLevel.Distinct contents) :
    state.Lays (TopLevel.headYield (state.scopes.symbolsOf fileScope) contents)
        ((declareClasses contents).run state).2 ∧
      ∀ declaration ∈ TopLevel.classes contents,
        ((declareClasses contents).run state).2.Headed declaration := by
  induction contents generalizing state with
  | nil => exact ⟨.refl state, nofun⟩
  | cons first rest ih =>
      obtain ⟨-, distinctRest, apart⟩ := TopLevel.distinct_cons.mp distinct
      cases first with
      | member declared => exact ih state inside distinctRest
      | «class» declared =>
          obtain ⟨laysFirst, headed⟩ := lays_declareClass declared state inside
          rw [declareClasses, run_bind]
          generalize ((declareClass declared).run state).2 = middle at laysFirst headed ⊢
          obtain ⟨laysRest, headedRest⟩ := ih middle (inside.trans_le laysFirst.size) distinctRest
          rw [laysFirst.symbolsOf_eq_append inside (valuesAt_singleton_self _ _)] at laysRest
          refine ⟨laysFirst.trans laysRest, List.forall_mem_cons.mpr ⟨?_, headedRest⟩⟩
          apply headed.mono laysRest
          · rw [TopLevel.headYield, TopLevel.filled_classRemarks]
            intro inHeads
            exact Multiset.disjoint_left.mp apart (TopLevel.mem_filled_class declared)
              (TopLevel.mem_sum_of_mem_sum_headFilled inHeads)
          · intro entry isEntry
            obtain ⟨other, -, rfl⟩ := List.mem_map.mp isEntry
            exact le_rfl
          · intro entry isEntry
            obtain ⟨other, isOther, rfl⟩ := List.mem_map.mp isEntry
            have different : (Node.class other).ref ≠ (Node.class declared).ref := fun same =>
              distinct.notMem_of_mem_classes isOther (same ▸ TopLevel.mem_filled_class declared)
            exact ⟨different, Class.constructor_ne different⟩
          · intro entry isEntry
            cases isEntry
          · intro entry isEntry
            cases isEntry

end ResolutionState

end Gloss
