import Gloss.Proofs.Resolution.Entries
import Gloss.Resolution.State
import Mathlib.Data.List.Forall2
import Mathlib.Data.List.Perm.Basic

/-!
# What a resolution writes down

Apart from scopes and classes a resolution only ever adds to what it has found.
Each addition is a remark.  Where no two remarks are about the same thing, what was
found in the end does not depend on their order, and candidates between which a
reference is ambiguous may be listed in any order too.
-/

namespace Gloss

/-- Something that a step of a resolution writes down. -/
inductive Remark where
  | meaning (reference : NodeRef) (meant : Meaning Descriptor)
  | typed (node : NodeRef) (type : NominalType)
  | declared (node : NodeRef) (descriptor : Descriptor)
  | problem (found : Diagnostic)
  | arity (count : Nat)

/-- What can be written down once for a node. -/
inductive Slot where
  | meaning
  | type
  | declaration
  deriving DecidableEq

/-- The part of a state that answers questions about a resolved file. -/
structure Journal where
  bindings : Bindings NodeRef Descriptor
  types : Table NodeRef NominalType
  declarations : Table NodeRef Descriptor
  diagnostics : List Diagnostic

namespace ResolutionState

def journal (state : ResolutionState) : Journal where
  bindings := state.bindings
  types := state.types
  declarations := state.declarations
  diagnostics := state.diagnostics

/-- The state in which a remark is written down. -/
def remark (state : ResolutionState) : Remark → ResolutionState
  | .meaning reference meant =>
      { state with bindings := state.bindings.enter (reference, meant) }
  | .typed node type => { state with types := state.types.insert node type }
  | .declared node descriptor =>
      { state with declarations := state.declarations.insert node descriptor }
  | .problem found => { state with diagnostics := state.diagnostics ++ [found] }
  | .arity count =>
      if count ∈ state.functionArities then state
      else { state with functionArities := state.functionArities ++ [count] }

end ResolutionState

namespace Journal

def empty : Journal := ⟨.empty, .empty, .empty, []⟩

def remark (journal : Journal) : Remark → Journal
  | .meaning reference meant =>
      { journal with bindings := journal.bindings.enter (reference, meant) }
  | .typed node type => { journal with types := journal.types.insert node type }
  | .declared node descriptor =>
      { journal with declarations := journal.declarations.insert node descriptor }
  | .problem found => { journal with diagnostics := journal.diagnostics ++ [found] }
  | .arity _ => journal

/-- Remarks are written down one after the other. -/
def remarkAll (journal : Journal) (remarks : List Remark) : Journal := remarks.foldl remark journal

theorem remarkAll_append (journal : Journal) (first second : List Remark) :
    journal.remarkAll (first ++ second) = (journal.remarkAll first).remarkAll second :=
  List.foldl_append

end Journal

theorem ResolutionState.journal_remark (state : ResolutionState) (remark : Remark) :
    (state.remark remark).journal = state.journal.remark remark := by
  cases remark with
  | arity count =>
      rw [ResolutionState.remark]
      split <;> rfl
  | _ => rfl

namespace Remark

/-- The meaning that a remark gives to a reference. -/
def meaning? : Remark → Option (NodeRef × Meaning Descriptor)
  | meaning reference meant => some (reference, meant)
  | _ => none

def typed? : Remark → Option (NodeRef × NominalType)
  | typed node type => some (node, type)
  | _ => none

def declared? : Remark → Option (NodeRef × Descriptor)
  | declared node descriptor => some (node, descriptor)
  | _ => none

def problem? : Remark → Option Diagnostic
  | problem found => some found
  | _ => none

/-- The node that a remark is about, where it fills the slot. -/
def node? : Slot → Remark → Option NodeRef
  | .meaning, remark => remark.meaning?.map Prod.fst
  | .type, remark => remark.typed?.map Prod.fst
  | .declaration, remark => remark.declared?.map Prod.fst

/-- The nodes for which remarks fill a slot. -/
def nodes (slot : Slot) (remarks : List Remark) : List NodeRef := remarks.filterMap (node? slot)

/-- Remarks that differ at most in the order of candidates. -/
inductive Alike : Remark → Remark → Prop
  | refl (remark : Remark) : Alike remark remark
  | ambiguous (reference : NodeRef) {first second : List Descriptor}
      (perm : first.Perm second) :
      Alike (meaning reference (.ambiguous first)) (meaning reference (.ambiguous second))

/-- The same remarks in another order, up to the order of candidates. -/
def AllAlike (first second : List Remark) : Prop :=
  ∃ middle, first.Perm middle ∧ List.Forall₂ Alike middle second

variable {first second third fourth remarks : List Remark}

theorem nodes_append (slot : Slot) (first second : List Remark) :
    nodes slot (first ++ second) = nodes slot first ++ nodes slot second :=
  List.filterMap_append

theorem AllAlike.of_perm (perm : first.Perm second) : AllAlike first second :=
  ⟨second, perm, List.forall₂_same.mpr fun remark _ => .refl remark⟩

theorem AllAlike.of_forall₂ (alike : List.Forall₂ Alike first second) : AllAlike first second :=
  ⟨first, .refl first, alike⟩

theorem AllAlike.append (alike : AllAlike first second) (later : AllAlike third fourth) :
    AllAlike (first ++ third) (second ++ fourth) := by
  obtain ⟨middle, perm, same⟩ := alike
  obtain ⟨laterMiddle, laterPerm, laterSame⟩ := later
  exact ⟨middle ++ laterMiddle, perm.append laterPerm, List.rel_append same laterSame⟩

theorem AllAlike.perm_left (perm : first.Perm second) (alike : AllAlike second third) :
    AllAlike first third := by
  obtain ⟨middle, later, same⟩ := alike
  exact ⟨middle, perm.trans later, same⟩

theorem AllAlike.perm_right (alike : AllAlike first second) (perm : second.Perm third) :
    AllAlike first third := by
  obtain ⟨middle, earlier, same⟩ := alike
  have composed : Relation.Comp (List.Forall₂ Alike) List.Perm middle third :=
    ⟨second, same, perm⟩
  rw [List.forall₂_comp_perm_eq_perm_comp_forall₂] at composed
  obtain ⟨other, later, sameLater⟩ := composed
  exact ⟨other, earlier.trans later, sameLater⟩

/-- What is written down piece by piece, in another order of the pieces. -/
theorem AllAlike.flatMap {α : Type} {pieces others : List α} (perm : pieces.Perm others)
    {written rewritten : α → List Remark}
    (alike : ∀ piece ∈ pieces, List.Forall₂ Alike (written piece) (rewritten piece)) :
    AllAlike (pieces.flatMap written) (others.flatMap rewritten) := by
  have pieceByPiece : List.Forall₂ Alike (pieces.flatMap written) (pieces.flatMap rewritten) := by
    clear perm
    induction pieces with
    | nil => exact .nil
    | cons first rest ih =>
        obtain ⟨alikeFirst, alikeRest⟩ := List.forall_mem_cons.mp alike
        exact List.rel_append alikeFirst (ih alikeRest)
  exact (AllAlike.of_forall₂ pieceByPiece).perm_right (perm.flatMap_right rewritten)

/-- Remarks that are alike are about the same nodes. -/
theorem Alike.node?_eq {one other : Remark} (alike : Alike one other) (slot : Slot) :
    one.node? slot = other.node? slot := by
  cases alike with
  | refl => rfl
  | ambiguous => cases slot <;> rfl

/-- What is picked from remarks whatever the order of candidates is picked from
remarks that are alike, in some order. -/
theorem AllAlike.filterMap_perm {α : Type} (alike : AllAlike first second)
    (pick : Remark → Option α)
    (same : ∀ {one other : Remark}, Alike one other → pick one = pick other) :
    (first.filterMap pick).Perm (second.filterMap pick) := by
  obtain ⟨middle, perm, allAlike⟩ := alike
  have samePicked : middle.filterMap pick = second.filterMap pick := by
    clear perm
    induction allAlike with
    | nil => rfl
    | cons alike _ ih => rw [List.filterMap_cons, List.filterMap_cons, same alike, ih]
  exact samePicked ▸ perm.filterMap pick

theorem AllAlike.nodes_perm (alike : AllAlike first second) (slot : Slot) :
    (nodes slot first).Perm (nodes slot second) :=
  alike.filterMap_perm (node? slot) fun alike => alike.node?_eq slot

/-- Every remark has a counterpart. -/
theorem AllAlike.exists_alike (alike : AllAlike first second) {remark : Remark}
    (member : remark ∈ first) : ∃ other ∈ second, Alike remark other := by
  obtain ⟨middle, perm, allAlike⟩ := alike
  replace member := perm.mem_iff.mp member
  clear perm
  induction allAlike with
  | nil => cases member
  | cons alike _ ih =>
      rcases List.mem_cons.mp member with rfl | inRest
      · exact ⟨_, List.mem_cons_self, alike⟩
      · obtain ⟨other, inOthers, alike⟩ := ih inRest
        exact ⟨other, List.mem_cons_of_mem _ inOthers, alike⟩

end Remark

/-- Entries with different keys are found in the table that they are inserted
into. -/
theorem Table.get?_foldl_insert {κ ν : Type} [DecidableEq κ] {entries : List (κ × ν)}
    (distinct : (entries.map Prod.fst).Nodup) (table : Table κ ν) (key : κ) :
    (entries.foldl (fun table entry => table.insert entry.1 entry.2) table).get? key =
      (lookupIn key entries).or (table.get? key) := by
  induction entries generalizing table with
  | nil => rfl
  | cons entry rest ih =>
      obtain ⟨new, distinctRest⟩ := List.nodup_cons.mp distinct
      rw [List.foldl_cons, ih distinctRest, get?_insert, lookupIn]
      split
      · next same =>
          subst same
          rw [lookupIn_eq_none_iff.mpr new]
          rfl
      · rfl

theorem Table.lookupIn_eq_some_iff {κ ν : Type} [DecidableEq κ] {entries : List (κ × ν)}
    (distinct : (entries.map Prod.fst).Nodup) {key : κ} {value : ν} :
    lookupIn key entries = some value ↔ (key, value) ∈ entries := by
  refine ⟨mem_of_lookupIn, fun member => ?_⟩
  induction entries with
  | nil => cases member
  | cons entry rest ih =>
      obtain ⟨new, distinctRest⟩ := List.nodup_cons.mp distinct
      rcases List.mem_cons.mp member with rfl | inRest
      · simp [lookupIn]
      · have different : entry.1 ≠ key := by
          rintro rfl
          exact new (List.mem_map.mpr ⟨_, inRest, rfl⟩)
        rw [lookupIn, if_neg different]
        exact ih distinctRest inRest

/-- Which entry is found does not depend on their order. -/
theorem Table.lookupIn_eq_of_perm {κ ν : Type} [DecidableEq κ] {first second : List (κ × ν)}
    (distinct : (first.map Prod.fst).Nodup) (perm : first.Perm second) (key : κ) :
    lookupIn key first = lookupIn key second := by
  have distinctSecond : (second.map Prod.fst).Nodup := (perm.map Prod.fst).nodup_iff.mp distinct
  ext value
  rw [lookupIn_eq_some_iff distinct, lookupIn_eq_some_iff distinctSecond, perm.mem_iff]

namespace Journal

open Remark

variable {first second : List Remark}

theorem types_remarkAll (journal : Journal) (remarks : List Remark) :
    (journal.remarkAll remarks).types =
      (remarks.filterMap typed?).foldl (fun table entry => table.insert entry.1 entry.2)
        journal.types := by
  induction remarks generalizing journal with
  | nil => rfl
  | cons remark rest ih =>
      rw [remarkAll, List.foldl_cons, ← remarkAll, ih]
      cases remark <;> rfl

theorem declarations_remarkAll (journal : Journal) (remarks : List Remark) :
    (journal.remarkAll remarks).declarations =
      (remarks.filterMap declared?).foldl (fun table entry => table.insert entry.1 entry.2)
        journal.declarations := by
  induction remarks generalizing journal with
  | nil => rfl
  | cons remark rest ih =>
      rw [remarkAll, List.foldl_cons, ← remarkAll, ih]
      cases remark <;> rfl

theorem bindings_remarkAll (journal : Journal) (remarks : List Remark) :
    (journal.remarkAll remarks).bindings =
      (remarks.filterMap meaning?).foldl Bindings.enter journal.bindings := by
  induction remarks generalizing journal with
  | nil => rfl
  | cons remark rest ih =>
      rw [remarkAll, List.foldl_cons, ← remarkAll, ih]
      cases remark <;> rfl

theorem diagnostics_remarkAll (journal : Journal) (remarks : List Remark) :
    (journal.remarkAll remarks).diagnostics = journal.diagnostics ++ remarks.filterMap problem? := by
  induction remarks generalizing journal with
  | nil => exact (List.append_nil _).symm
  | cons remark rest ih =>
      rw [remarkAll, List.foldl_cons, ← remarkAll, ih]
      cases remark <;> simp [Journal.remark, problem?, List.filterMap_cons]

/-- Two journals that answer all questions alike: candidates and diagnostics
may be listed in any order. -/
structure Alike (first second : Journal) : Prop where
  targets : ∀ reference,
    first.bindings.targets.get? reference = second.bindings.targets.get? reference
  ambiguous : ∀ reference, Option.Rel List.Perm (first.bindings.ambiguous.get? reference)
    (second.bindings.ambiguous.get? reference)
  unresolved : ∀ reference,
    first.bindings.isUnresolved reference = second.bindings.isUnresolved reference
  types : ∀ node, first.types.get? node = second.types.get? node
  declarations : ∀ node, first.declarations.get? node = second.declarations.get? node
  diagnostics : first.diagnostics.Perm second.diagnostics

theorem map_fst_filterMap_meaning? (remarks : List Remark) :
    (remarks.filterMap meaning?).map Prod.fst = nodes .meaning remarks := by
  rw [List.map_filterMap]
  rfl

theorem map_fst_filterMap_typed? (remarks : List Remark) :
    (remarks.filterMap typed?).map Prod.fst = nodes .type remarks := by
  rw [List.map_filterMap]
  rfl

theorem map_fst_filterMap_declared? (remarks : List Remark) :
    (remarks.filterMap declared?).map Prod.fst = nodes .declaration remarks := by
  rw [List.map_filterMap]
  rfl

theorem holds_remarkAll {remarks : List Remark} (distinct : (nodes .meaning remarks).Nodup)
    (reference : NodeRef) :
    ((empty.remarkAll remarks).bindings).Holds reference
      (Table.lookupIn reference (remarks.filterMap meaning?)) := by
  rw [bindings_remarkAll]
  rw [← map_fst_filterMap_meaning?] at distinct
  cases found : Table.lookupIn reference (remarks.filterMap meaning?) with
  | none =>
      exact Bindings.holds_foldl_of_notMem (Bindings.holds_empty reference)
        (Table.lookupIn_eq_none_iff.mp found)
  | some meant => exact Bindings.holds_foldl_of_mem distinct (Table.mem_of_lookupIn found)

/-! ### What is found

What is found for a node is what was written down about it, where nothing is written down
about a node twice. -/

section Found

variable {remarks : List Remark} {node reference : NodeRef}

theorem get?_types (distinct : (nodes .type remarks).Nodup) (node : NodeRef) :
    (empty.remarkAll remarks).types.get? node =
      Table.lookupIn node (remarks.filterMap typed?) := by
  rw [← map_fst_filterMap_typed?] at distinct
  rw [types_remarkAll, Table.get?_foldl_insert distinct]
  exact Option.or_none

theorem get?_declarations (distinct : (nodes .declaration remarks).Nodup) (node : NodeRef) :
    (empty.remarkAll remarks).declarations.get? node =
      Table.lookupIn node (remarks.filterMap declared?) := by
  rw [← map_fst_filterMap_declared?] at distinct
  rw [declarations_remarkAll, Table.get?_foldl_insert distinct]
  exact Option.or_none

theorem get?_types_iff (distinct : (nodes .type remarks).Nodup) {type : NominalType} :
    (empty.remarkAll remarks).types.get? node = some type ↔ .typed node type ∈ remarks := by
  rw [get?_types distinct]
  rw [← map_fst_filterMap_typed?] at distinct
  rw [Table.lookupIn_eq_some_iff distinct, List.mem_filterMap]
  refine ⟨?_, fun isWritten => ⟨_, isWritten, rfl⟩⟩
  rintro ⟨remark, isWritten, isTyped⟩
  cases remark with
  | typed => cases isTyped; exact isWritten
  | _ => cases isTyped

theorem get?_declarations_iff (distinct : (nodes .declaration remarks).Nodup)
    {descriptor : Descriptor} :
    (empty.remarkAll remarks).declarations.get? node = some descriptor ↔
      .declared node descriptor ∈ remarks := by
  rw [get?_declarations distinct]
  rw [← map_fst_filterMap_declared?] at distinct
  rw [Table.lookupIn_eq_some_iff distinct, List.mem_filterMap]
  refine ⟨?_, fun isWritten => ⟨_, isWritten, rfl⟩⟩
  rintro ⟨remark, isWritten, isDeclared⟩
  cases remark with
  | declared => cases isDeclared; exact isWritten
  | _ => cases isDeclared

/-- A reference means what was written down that it means. -/
theorem lookupIn_meaning?_iff (distinct : (nodes .meaning remarks).Nodup)
    {meant : Meaning Descriptor} :
    Table.lookupIn reference (remarks.filterMap meaning?) = some meant ↔
      .meaning reference meant ∈ remarks := by
  rw [← map_fst_filterMap_meaning?] at distinct
  rw [Table.lookupIn_eq_some_iff distinct, List.mem_filterMap]
  refine ⟨?_, fun isWritten => ⟨_, isWritten, rfl⟩⟩
  rintro ⟨remark, isWritten, isMeaning⟩
  cases remark with
  | meaning => cases isMeaning; exact isWritten
  | _ => cases isMeaning

theorem get?_targets_iff (distinct : (nodes .meaning remarks).Nodup) {target : Descriptor} :
    (empty.remarkAll remarks).bindings.targets.get? reference = some target ↔
      .meaning reference (.target target) ∈ remarks :=
  ((holds_remarkAll distinct reference).targets target).trans (lookupIn_meaning?_iff distinct)

theorem get?_ambiguous_iff (distinct : (nodes .meaning remarks).Nodup)
    {candidates : List Descriptor} :
    (empty.remarkAll remarks).bindings.ambiguous.get? reference = some candidates ↔
      .meaning reference (.ambiguous candidates) ∈ remarks :=
  ((holds_remarkAll distinct reference).ambiguous candidates).trans
    (lookupIn_meaning?_iff distinct)

end Found

/-- A reference means the same in remarks that are alike, up to the order of
candidates. -/
theorem lookupIn_meaning?_of_alike (alike : AllAlike first second)
    (distinct : (nodes .meaning first).Nodup) (reference : NodeRef) :
    Table.lookupIn reference (first.filterMap meaning?) =
        Table.lookupIn reference (second.filterMap meaning?) ∨
      ∃ candidates others : List Descriptor, candidates.Perm others ∧
        Table.lookupIn reference (first.filterMap meaning?) = some (.ambiguous candidates) ∧
          Table.lookupIn reference (second.filterMap meaning?) = some (.ambiguous others) := by
  have distinctSecond := (alike.nodes_perm .meaning).nodup_iff.mp distinct
  have perm := alike.nodes_perm .meaning
  rw [← map_fst_filterMap_meaning?] at distinct distinctSecond
  cases found : Table.lookupIn reference (first.filterMap meaning?) with
  | none =>
      left
      symm
      rw [Table.lookupIn_eq_none_iff, map_fst_filterMap_meaning?] at found ⊢
      exact fun member => found (perm.mem_iff.mpr member)
  | some meant =>
      obtain ⟨remark, inFirst, isMeaning⟩ := List.mem_filterMap.mp (Table.mem_of_lookupIn found)
      obtain ⟨other, inSecond, same⟩ := alike.exists_alike inFirst
      cases same with
      | refl =>
          left
          symm
          rw [Table.lookupIn_eq_some_iff distinctSecond]
          exact List.mem_filterMap.mpr ⟨remark, inSecond, isMeaning⟩
      | ambiguous reference permuted =>
          cases isMeaning
          refine .inr ⟨_, _, permuted, rfl, ?_⟩
          rw [Table.lookupIn_eq_some_iff distinctSecond]
          exact List.mem_filterMap.mpr ⟨_, inSecond, rfl⟩

/-- Remarks that are alike lead to journals that are alike, where no two of them
are about the same thing. -/
theorem alike_remarkAll (alike : AllAlike first second)
    (distinct : ∀ slot, (nodes slot first).Nodup) :
    Alike (empty.remarkAll first) (empty.remarkAll second) := by
  have distinctSecond slot := (alike.nodes_perm slot).nodup_iff.mp (distinct slot)
  have holds := holds_remarkAll (distinct .meaning)
  have holdsSecond := holds_remarkAll (distinctSecond .meaning)
  have meanings := lookupIn_meaning?_of_alike alike (distinct .meaning)
  constructor
  · intro reference
    rw [(holds reference).target?_eq, (holdsSecond reference).target?_eq]
    rcases meanings reference with same | ⟨_, _, _, found, foundSecond⟩
    · rw [same]
    · rw [found, foundSecond]
      rfl
  · intro reference
    rw [(holds reference).candidates?_eq, (holdsSecond reference).candidates?_eq]
    rcases meanings reference with same | ⟨candidates, others, perm, found, foundSecond⟩
    · rw [same]
      cases (Table.lookupIn reference (second.filterMap meaning?)).bind Meaning.candidates? with
      | none => exact .none
      | some candidates => exact .some (.refl candidates)
    · rw [found, foundSecond]
      exact .some perm
  · intro reference
    rw [(holds reference).isUnresolved_eq, (holdsSecond reference).isUnresolved_eq]
    rcases meanings reference with same | ⟨_, _, _, found, foundSecond⟩
    · rw [same]
    · rw [found, foundSecond]
      rfl
  · intro node
    have perm := alike.filterMap_perm typed? fun alike => by cases alike <;> rfl
    rw [get?_types (distinct .type), get?_types (distinctSecond .type)]
    exact Table.lookupIn_eq_of_perm (map_fst_filterMap_typed? first ▸ distinct .type) perm node
  · intro node
    have perm := alike.filterMap_perm declared? fun alike => by cases alike <;> rfl
    have once := map_fst_filterMap_declared? first ▸ distinct .declaration
    rw [get?_declarations (distinct .declaration), get?_declarations (distinctSecond .declaration)]
    exact Table.lookupIn_eq_of_perm once perm node
  · rw [diagnostics_remarkAll, diagnostics_remarkAll]
    exact (alike.filterMap_perm problem? fun alike => by cases alike <;> rfl).append_left _

end Journal

end Gloss
