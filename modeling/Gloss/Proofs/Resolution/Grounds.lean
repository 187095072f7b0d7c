import Gloss.Proofs.Resolution.Entries
import Gloss.Proofs.Table
import Gloss.Proofs.Tree.Refs
import Gloss.Resolution.State
import Mathlib.Algebra.BigOperators.Group.List.Basic

/-!
# What a resolution relies on

Every expression that was put off has a weight, and as long as its type is open its weight
counts.  The weight may be any quantity that can be added up.

Whatever a name can mean while a file is resolved has been declared before, in
the library or at a node of the file.  A body or an initializer that was put
off stays pending until its type is inferred, and with it the references in it.
-/

namespace Gloss.ResolutionState

variable {M : Type} [AddCommMonoid M] {weight : Deferred → M}
  {isPending wasPending : NodeRef → Bool} {entries : List (NodeRef × Deferred)} {node : NodeRef}
  {deferred : Deferred}

/-- The weight of the entries that are pending. -/
def weightIn (weight : Deferred → M) (isPending : NodeRef → Bool)
    (entries : List (NodeRef × Deferred)) : M :=
  (entries.map fun entry => if isPending entry.1 then weight entry.2 else 0).sum

theorem weightIn_congr (same : ∀ node ∈ entries.map Prod.fst, isPending node = wasPending node) :
    weightIn weight isPending entries = weightIn weight wasPending entries := by
  unfold weightIn
  congr 1
  apply List.map_congr_left
  intro entry member
  rw [same entry.1 (List.mem_map_of_mem member)]

/-- One entry that is no longer pending makes all the difference. -/
theorem weightIn_settled (distinct : (entries.map Prod.fst).Nodup)
    (member : (node, deferred) ∈ entries) (was : wasPending node = true)
    (isNot : isPending node = false)
    (others : ∀ other, other ≠ node → isPending other = wasPending other) :
    weightIn weight wasPending entries = weight deferred + weightIn weight isPending entries := by
  obtain ⟨before, after, rfl⟩ := List.append_of_mem member
  rw [List.map_append, List.map_cons, List.nodup_append] at distinct
  obtain ⟨-, distinctAfter, apart⟩ := distinct
  have sameBefore : weightIn weight isPending before = weightIn weight wasPending before := by
    apply weightIn_congr
    intro other inBefore
    apply others
    exact fun same => apart _ inBefore _ List.mem_cons_self same
  have sameAfter : weightIn weight isPending after = weightIn weight wasPending after := by
    apply weightIn_congr
    intro other inAfter
    apply others
    rintro rfl
    exact (List.nodup_cons.mp distinctAfter).1 inAfter
  have split : ∀ test : NodeRef → Bool,
      weightIn weight test (before ++ (node, deferred) :: after) =
        weightIn weight test before +
          ((if test node then weight deferred else 0) + weightIn weight test after) := by
    intro test
    simp [weightIn]
  rw [split, split, sameBefore, sameAfter, was, isNot]
  simp only [if_true, Bool.false_eq_true, if_false, zero_add]
  rw [add_left_comm]

/-! ### Open types -/

/-- The weight of what was put off, is not yet inferred, and is not being inferred just now. -/
def openWeight (weight : Deferred → M) (state : ResolutionState) (active : List NodeRef) : M :=
  weightIn weight (fun node => (state.inferred.get? node).isNone && !active.contains node)
    state.deferred.entries

variable {state after : ResolutionState} {active : List NodeRef}

/-- What is remembered is as good as active. -/
theorem openWeight_remember (type : NominalType) :
    openWeight weight { state with inferred := state.inferred.insert node type } active =
      openWeight weight state (node :: active) := by
  apply weightIn_congr
  intro other _
  change (((state.inferred.insert node type).get? other).isNone && _) = _
  rw [Table.get?_insert]
  split
  · next same =>
      subst same
      simp
  · next different => simp [Ne.symm different]

/-- Nothing is active twice. -/
theorem openWeight_cons_of_mem (isActive : node ∈ active) :
    openWeight weight state (node :: active) = openWeight weight state active := by
  apply weightIn_congr
  intro other _
  by_cases same : other = node
  · subst same
    simp [isActive]
  · simp [same]

/-- An open type counts until its inference is begun. -/
theorem openWeight_eq_add (distinct : state.deferred.keys.Nodup)
    (found : state.deferred.get? node = some deferred)
    (notInferred : state.inferred.get? node = none) (notActive : node ∉ active) :
    openWeight weight state active =
      weight deferred + openWeight weight state (node :: active) := by
  refine weightIn_settled distinct (Table.mem_of_lookupIn found) ?_ ?_ ?_
  · simp [notInferred, notActive]
  · simp
  · intro other different
    simp [different]

/-- What is put off counts from then on. -/
theorem openWeight_putOff (new : node ∉ state.deferred.keys)
    (notInferred : state.inferred.get? node = none) :
    openWeight weight { state with deferred := state.deferred.insert node deferred } [] =
      weight deferred + openWeight weight state [] := by
  rw [Table.insert_of_notMem new]
  simp [openWeight, weightIn, notInferred, add_comm]

/-- Where no type is open, nothing counts. -/
theorem openWeight_eq_zero
    (settled : ∀ node ∈ state.deferred.keys, state.inferred.get? node ≠ none) :
    openWeight weight state active = 0 := by
  have nothing : ∀ node ∈ state.deferred.keys,
      ((state.inferred.get? node).isNone && !active.contains node) = false := by
    intro node put
    simp [Option.isNone_eq_false_iff.mpr (Option.isSome_iff_ne_none.mpr (settled node put))]
  rw [openWeight, weightIn_congr nothing]
  simp [weightIn]

end Gloss.ResolutionState

/-! ### Grounds -/

namespace Gloss

namespace Descriptor

/-- What a target comes from: the variable that a call goes through, the
generic form of a specialized function, of anything else itself. -/
def original (descriptor : Descriptor) : Descriptor := descriptor.unwrapVariable.generic

/-- A descriptor of what is declared at a node. -/
def Introduces (descriptor : Descriptor) (node : NodeRef) : Prop :=
  descriptor.declaration = some node ∧
    match descriptor with
    | .class _ => node.kind = .class
    | .typeParameter _ => node.kind = .typeParameter
    | .function _ => node.kind = .function
    | .variable (.parameter _ _) =>
        node.kind = .valueParameter ∨ node.kind = .constructorParameter
    | .variable (.property _) => node.kind = .property ∨ node.kind = .constructorParameter
    | .variable (.local _) => node.kind = .property
    | .specialized _ | .invoke _ _ | .error _ => False

/-- A descriptor whose type is left to be inferred. -/
def LeavesOpen : Descriptor → Prop
  | .function declared => declared.returnType = none
  | .variable (.property declared) => declared.type = none
  | _ => False

theorem Introduces.original_eq {descriptor : Descriptor} {node : NodeRef}
    (introduces : descriptor.Introduces node) : descriptor.original = descriptor := by
  cases descriptor with
  | specialized | invoke | error => exact introduces.2.elim
  | _ => rfl

end Descriptor

namespace Library

/-- The classes and functions of the library and the members of its classes. -/
def descriptors : List Descriptor :=
  classes.map (fun entry => .class entry.descriptor) ++ functions.map .function ++
    classes.flatMap ClassEntry.members

theorem undeclared_descriptors :
    ∀ target ∈ descriptors, target.original = target ∧ target.declaration = none := by
  decide

theorem mem_descriptors_of_mem_members {entry : ClassEntry} {member : Descriptor}
    (inLibrary : entry ∈ classes) (inEntry : member ∈ entry.members) : member ∈ descriptors :=
  List.mem_append_right _ (List.mem_flatMap.mpr ⟨entry, inLibrary, inEntry⟩)

end Library

namespace ResolutionState

/-- What is declared at a node, be it as a property or as a parameter. -/
def Declares (state : ResolutionState) (node : NodeRef) (descriptor : Descriptor) : Prop :=
  state.declarations.get? node = some descriptor ∨
    state.constructorParameters.get? node = some descriptor

/-- A target that the file has declared or that the library provides, or an
error. -/
def Backs (state : ResolutionState) (target : Descriptor) : Prop :=
  match target.original.declaration with
  | some node => state.Declares node target.original
  | none => target.original.isError = true ∨ target.original ∈ Library.descriptors

/-- Some name means the descriptor, in a scope or in a class. -/
def Mentions (state : ResolutionState) (descriptor : Descriptor) : Prop :=
  (∃ scope ∈ state.scopes.newestFirst, ∃ symbol ∈ scope.symbols,
    symbol.descriptor = descriptor) ∨
  ∃ constructor entry, state.classes.get? constructor = some entry ∧
    descriptor ∈ entry.members

/-- The meanings of names are declared, and so is everything that was put off. -/
structure Grounded (state : ResolutionState) : Prop where
  mentioned : ∀ descriptor, state.Mentions descriptor → state.Backs descriptor
  declared : ∀ node descriptor, state.declarations.get? node = some descriptor →
    descriptor.Introduces node
  parameters : ∀ node descriptor, state.constructorParameters.get? node = some descriptor →
    descriptor.Introduces node ∧ node ∈ state.declarations.keys
  constructed : ∀ node ∈ state.declarations.keys, node.kind = .constructorParameter →
    (state.constructorParameters.get? node).isSome
  constructorOnly : ∀ node, (state.constructorParameters.get? node).isSome →
    node.kind = .constructorParameter
  deferred : ∀ node ∈ state.deferred.keys, ∃ descriptor,
    state.declarations.get? node = some descriptor ∧ descriptor.LeavesOpen
  deferredOnce : state.deferred.keys.Nodup
  inferred : ∀ node, (state.inferred.get? node).isSome → node ∈ state.deferred.keys

variable {state : ResolutionState} {node : NodeRef} {target : Descriptor}

theorem Backs.declares (backs : state.Backs target)
    (isDeclared : target.original.declaration = some node) :
    state.Declares node target.original := by
  unfold Backs at backs
  rwa [isDeclared] at backs

theorem Backs.provided (backs : state.Backs target)
    (undeclared : target.original.declaration = none) :
    target.original.isError = true ∨ target.original ∈ Library.descriptors := by
  unfold Backs at backs
  rwa [undeclared] at backs

theorem backs_error (name : String) : state.Backs (.error name) := .inl rfl

theorem backs_of_mem_library (provided : target ∈ Library.descriptors) : state.Backs target := by
  obtain ⟨original, undeclared⟩ := Library.undeclared_descriptors target provided
  rw [Backs, original, undeclared]
  exact .inr provided

theorem Grounded.symbols (grounded : state.Grounded) :
    ∀ scope ∈ state.scopes.newestFirst, ∀ symbol ∈ scope.symbols,
      state.Backs symbol.descriptor :=
  fun scope inScopes symbol inScope =>
    grounded.mentioned _ (.inl ⟨scope, inScopes, symbol, inScope, rfl⟩)

theorem Grounded.members (grounded : state.Grounded) (constructor : TypeConstructor)
    (entry : ClassEntry) (found : state.classes.get? constructor = some entry) :
    ∀ member ∈ entry.members, state.Backs member :=
  fun member inEntry => grounded.mentioned member (.inr ⟨constructor, entry, found, inEntry⟩)

theorem Grounded.introduces (grounded : state.Grounded) (declares : state.Declares node target) :
    target.Introduces node :=
  declares.elim (grounded.declared node target)
    fun found => (grounded.parameters node target found).1

theorem Declares.backs (declares : state.Declares node target)
    (introduces : target.Introduces node) : state.Backs target := by
  rw [Backs, introduces.original_eq, introduces.1]
  exact declares

/-- Targets stay backed as more is declared. -/
theorem Backs.mono {later : ResolutionState} (backs : state.Backs target)
    (declares : ∀ node descriptor, state.Declares node descriptor →
      later.Declares node descriptor) : later.Backs target := by
  unfold Backs at backs ⊢
  split at backs
  · exact declares _ _ backs
  · exact backs

/-- The references in the bodies that are pending. -/
def pendingIn (isPending : NodeRef → Bool) (entries : List (NodeRef × Deferred)) :
    Multiset NodeRef :=
  (entries.map fun entry =>
    if isPending entry.1 then (Node.expression entry.2.body).references else 0).sum

/-- The references in the bodies that were put off, whose types are not yet
inferred, and that are not being inferred just now. -/
def pending (state : ResolutionState) (active : List NodeRef) : Multiset NodeRef :=
  pendingIn (fun node => (state.inferred.get? node).isNone && !active.contains node)
    state.deferred.entries

theorem pending_eq_openWeight (state : ResolutionState) (active : List NodeRef) :
    state.pending active =
      openWeight (fun deferred => (Node.expression deferred.body).references) state active :=
  rfl

/-- The type of a declaration that was put off and is not yet inferred. -/
def IsOpen (state : ResolutionState) (node : NodeRef) : Prop :=
  node ∈ state.deferred.keys ∧ state.inferred.get? node = none

end ResolutionState

end Gloss
