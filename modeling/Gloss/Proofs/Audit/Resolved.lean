import Gloss.Proofs.Audit.Visits
import Gloss.Proofs.Resolution.Outcomes
import Mathlib.Algebra.Order.BigOperators.Group.List

/-!
# Audited files

The audit of a whole file never lapses and ends in the state in which the
resolution ends.  Nothing is left open, so no expression is left unsettled and
the ledger has the tally of the file: every slot is filled once, and every root
of inference is visited once.
-/

namespace Gloss

namespace Tree

theorem Member.opened_le (member : Member) : member.opened ≤ member.headDeclarations := by
  have single : member.opened ≤ {member.node.ref} := by
    unfold opened
    split
    · exact le_rfl
    · exact Multiset.zero_le _
  refine single.trans ?_
  cases member with
  | function declared =>
      rw [headDeclarations, add_assoc]
      exact Multiset.le_add_right _ _
  | property declared => exact le_rfl

namespace File

variable {file : File}

/-- The declarations of a file whose types are put off. -/
def promised (file : File) : List NodeRef :=
  (file.members.filter fun member => member.openBody?.isSome).map fun member => member.node.ref

theorem coe_promised (file : File) :
    (file.promised : Multiset NodeRef) = (file.members.map Member.opened).sum := by
  rw [promised]
  induction file.members with
  | nil => rfl
  | cons member rest ih =>
      rw [List.map_cons, List.sum_cons, ← ih, Member.opened, List.filter_cons]
      split
      · rw [List.map_cons, ← Multiset.cons_coe, Multiset.singleton_add]
      · rw [zero_add]

theorem mem_promised {member : Member} (inFile : member ∈ file.members) :
    ∀ node ∈ member.opened, node ∈ file.promised := by
  intro node isOpened
  unfold Member.opened at isOpened
  split at isOpened
  · next isOpen =>
      rw [Multiset.mem_singleton.mp isOpened]
      exact List.mem_map_of_mem (List.mem_filter.mpr ⟨inFile, isOpen⟩)
  · cases Multiset.notMem_zero node isOpened

/-- Types are put off for different declarations. -/
theorem nodup_opened (distinct : file.declaredNodes.Nodup) :
    (file.members.map Member.opened).sum.Nodup := by
  have heads : (file.members.map Member.opened).sum ≤
      (file.declarations.map TopLevel.headDeclarations).sum := by
    rw [members, TopLevel.sum_map_members]
    refine List.sum_le_sum fun declared _ => ?_
    have inMembers : (declared.members.map Member.opened).sum ≤
        (declared.members.map Member.headDeclarations).sum :=
      List.sum_le_sum fun member _ => member.opened_le
    exact inMembers.trans (Multiset.le_add_left _ _)
  rw [declaredNodes_eq] at distinct
  refine Multiset.nodup_of_le (heads.trans ?_) distinct
  exact (Multiset.le_add_left _ _).trans (Multiset.le_add_right _ _)

end File

end Tree

namespace ResolutionState

/-- Before anything is declared, all names mean something sound in the library. -/
theorem firm_initial (promised : List NodeRef) : initial.Firm promised where
  symbols := by
    intro scope inScopes symbol inScope
    rcases List.mem_cons.mp inScopes with rfl | inLibrary
    · cases inScope
    · have provided := mem_librarySymbols inLibrary inScope
      refine ⟨Library.sound_of_mem_descriptors (mem_library_of_mem_librarySymbols provided)
        promised, ?_⟩
      rcases List.mem_append.mp provided with isClass | isFunction
      · obtain ⟨entry, -, rfl⟩ := List.mem_map.mp isClass
        exact fun _ => rfl
      · obtain ⟨declared, -, rfl⟩ := List.mem_map.mp isFunction
        exact fun isClassifier => Bool.noConfusion isClassifier
  classes _ _ found := by cases found
  declared _ _ found := by cases found
  inferred _ _ known := by cases known
  deferredOnce := List.nodup_nil

/-- Where no type is open, nothing is unsettled. -/
theorem unsettled_eq_zero {state : ResolutionState} (settled : ∀ node, ¬ state.IsOpen node) :
    state.unsettled [] = 0 := by
  rw [unsettled_eq_openWeight]
  exact openWeight_eq_zero fun node put none => settled node ⟨put, none⟩

end ResolutionState

namespace Audit

open ResolutionState

/-- The audit of a file does what the resolution does. -/
theorem carries_resolveFile {before : Ledger} (file : Tree.File) :
    Carries file.promised before (resolveFile file) (Resolver.resolveFile file) file.promised
      file.tally fun _ after => file.promised ⊆ after.deferred.keys := by
  rw [file.coe_promised, file.tally_eq]
  apply Carries.cast _ (add_zero _) rfl
  apply (carries_declareFile file fun _ => Tree.File.mem_promised).bind
  intro _ middle carried ready
  have kept : file.promised ⊆ middle.state.deferred.keys := by
    intro node isPromised
    rw [← Multiset.mem_coe, carried.deferred, ← file.coe_promised]
    exact Multiset.mem_add.mpr (.inr isPromised)
  intro firm faithful distinct
  obtain ⟨value, after, ran, same, carriedOn, -⟩ :=
    carries_checkContents file.declarations kept ready firm faithful distinct
  exact ⟨value, after, ran, same, carriedOn, carriedOn.includes kept⟩

/-- What a ledger says at the end of a file. -/
structure Closes (file : Tree.File) (ledger : Ledger) : Prop where
  state : ledger.state = ((Resolver.resolveFile file).run .initial).2
  faithful : ledger.Faithful
  tally : ledger.tally = file.tally
  firm : ledger.state.Firm ledger.state.deferred.keys
  settled : ∀ node, ¬ ledger.state.IsOpen node

/-- From the beginning on, the audit of a file comes to an end without a lapse. -/
theorem exists_closes (file : Tree.File) (distinct : file.declaredNodes.Nodup) :
    ∃ ledger, (resolveFile file).run { state := .initial } = .ok ((), ledger) ∧
      Closes file ledger := by
  have nothingPutOff : (initial.deferred.keys : Multiset NodeRef) = 0 := rfl
  have distinctPromises :
      ((initial.deferred.keys : Multiset NodeRef) + file.promised).Nodup := by
    rw [nothingPutOff, zero_add, file.coe_promised]
    exact Tree.File.nodup_opened distinct
  have faithful : Ledger.Faithful { state := .initial } := ⟨rfl, rfl, rfl⟩
  obtain ⟨_, ledger, ran, same, carried, kept⟩ :=
    carries_resolveFile file (firm_initial _) faithful distinctPromises
  have state : ledger.state = ((Resolver.resolveFile file).run .initial).2 :=
    (Prod.mk.inj same).2.symm
  have settled : ∀ node, ¬ ledger.state.IsOpen node :=
    state ▸ (Resolver.completes_resolveFile file distinct).settled
  have tally := carried.tally
  have nothingBefore : Ledger.tally { state := .initial } + initial.unsettled [] = 0 := rfl
  rw [unsettled_eq_zero settled, nothingBefore, add_zero, add_zero] at tally
  exact ⟨ledger, ran, state, carried.faithful, tally, carried.firm.mono kept, settled⟩

namespace Closes

variable {file : Tree.File} {ledger : Ledger} {node : NodeRef}

/-- Nothing that is declared has an open type in the end. -/
theorem isSome_inferred (closes : Closes file ledger) {descriptor : Descriptor}
    (found : ledger.state.declarations.get? node = some descriptor)
    (leavesOpen : descriptor.LeavesOpen) :
    (descriptor.declaration.bind ledger.state.inferred.get?).isSome := by
  obtain ⟨decided, put, declared⟩ := (closes.firm.declared node descriptor found).2.promise leavesOpen
  rw [declared, Option.bind_some, Option.isSome_iff_ne_none]
  exact fun none => closes.settled decided ⟨put, none⟩

theorem isSome_returnType? (closes : Closes file ledger) {function : FunctionDescriptor}
    (found : ledger.state.declarations.get? node = some (.function function)) :
    (function.returnType? ledger.state.inferred).isSome := by
  rw [FunctionDescriptor.returnType?]
  cases returned : function.returnType with
  | some type => rfl
  | none => exact closes.isSome_inferred found returned

theorem isSome_type? (closes : Closes file ledger) {holder : VariableDescriptor}
    (found : ledger.state.declarations.get? node = some (.variable holder)) :
    (holder.type? ledger.state.inferred).isSome := by
  cases holder with
  | parameter | «local» => rfl
  | property declared =>
      rw [VariableDescriptor.type?]
      cases typed : declared.type with
      | some type => rfl
      | none => exact closes.isSome_inferred found typed

end Closes

end Audit

namespace Resolution

variable {name : String} {text : List Char} {resolution : Resolution}

/-- A text that can be read is audited to the end. -/
theorem exists_closes_of_read (readable : read name text = .ok resolution) :
    ∃ ledger, (Audit.resolveFile resolution.file).run { state := .initial } = .ok ((), ledger) ∧
      Audit.Closes resolution.file ledger ∧ ledger.state = resolution.state := by
  obtain ⟨file, parsed, rfl⟩ := eq_ofFile_of_read readable
  have placed := Grammar.wellPlaced_of_read parsed
  obtain ⟨ledger, ran, closes⟩ := Audit.exists_closes file placed.nodup_declaredNodes
  exact ⟨ledger, ran, closes, closes.state⟩

/-- Nothing that the resolution of a text needs is ever missing: the audit ends in
the state of the resolution, and then every function has a return type and every
variable a type. -/
theorem audit_eq_ok_of_read (readable : read name text = .ok resolution) :
    (∃ ledger, (Audit.resolveFile resolution.file).run { state := .initial } = .ok ((), ledger) ∧
      ledger.state = resolution.state) ∧
    (∀ node function, resolution.descriptor? node = some (.function function) →
      (function.returnType? resolution.state.inferred).isSome) ∧
    ∀ node holder, resolution.descriptor? node = some (.variable holder) →
      (holder.type? resolution.state.inferred).isSome := by
  obtain ⟨ledger, ran, closes, same⟩ := exists_closes_of_read readable
  refine ⟨⟨ledger, ran, same⟩, ?_⟩
  rw [← same]
  constructor
  · intro node function found
    refine closes.isSome_returnType? (?_ : ledger.state.declarations.get? node = _)
    rw [same]
    exact found
  · intro node holder found
    refine closes.isSome_type? (?_ : ledger.state.declarations.get? node = _)
    rw [same]
    exact found

/-- Two functions that call each other are resolved, and both get a return type. -/
theorem audit_eq_ok_of_read_mutual_calls :
    ∃ resolution, read "sample" "fun a() = b()\nfun b() = a()".toList = .ok resolution ∧
      (∃ ledger, (Audit.resolveFile resolution.file).run { state := .initial } =
        .ok ((), ledger) ∧ ledger.state = resolution.state) ∧
      ∃ node function, resolution.descriptor? node = some (.function function) ∧
        function.returnType = none ∧ (function.returnType? resolution.state.inferred).isSome := by
  have computed :
      (match read "sample" "fun a() = b()\nfun b() = a()".toList with
        | .ok resolution => resolution.descriptor? ⟨.function, ⟨0, 13⟩⟩ = some (.function
            { name := "a", declaration := some ⟨.function, ⟨0, 13⟩⟩, container := none
              typeParameters := [], parameters := [], returnType := none })
        | .error _ => false) = true := by
    decide +kernel
  cases readable : read "sample" "fun a() = b()\nfun b() = a()".toList with
  | error fault =>
      rw [readable] at computed
      cases computed
  | ok resolution =>
      simp only [readable, decide_eq_true_eq] at computed
      obtain ⟨audited, returns, -⟩ := audit_eq_ok_of_read readable
      exact ⟨resolution, rfl, audited, _, _, computed, rfl, returns _ _ computed⟩

/-- Every expression body, every initializer and every statement is begun once, and
outside of the package line every slot is filled once: each type and each
outcome is written down a single time and then stays. -/
theorem count_visits_of_read (readable : read name text = .ok resolution) :
    ∃ ledger, (Audit.resolveFile resolution.file).run { state := .initial } = .ok ((), ledger) ∧
      ledger.state = resolution.state ∧
      resolution.state.bindings = (Journal.empty.remarkAll ledger.remarks).bindings ∧
      resolution.state.types = (Journal.empty.remarkAll ledger.remarks).types ∧
      ∀ occurrence ∈ resolution.file.occurrences,
        (∀ root ∈ occurrence.node.roots, ledger.visits.count root = 1) ∧
        ∀ slot : Slot, slot.accept occurrence.node.kind = true →
          (Remark.filled ledger.remarks slot).count occurrence.ref =
            if occurrence.ref ∈ resolution.file.packageNames then 0 else 1 := by
  obtain ⟨ledger, ran, closes, same⟩ := exists_closes_of_read readable
  have placed := (completes_of_read readable).1
  have filled : Remark.filled ledger.remarks = resolution.file.tally.1 :=
    congrArg Prod.fst closes.tally
  have visits : (ledger.visits : Multiset NodeRef) = resolution.file.tally.2 :=
    congrArg Prod.snd closes.tally
  refine ⟨ledger, ran, same, same ▸ closes.faithful.bindings, same ▸ closes.faithful.types, ?_⟩
  intro occurrence occurs
  constructor
  · intro root isRoot
    have inFile := Tree.File.mem_nodes_of_kind occurs (Node.kind_ne_file_of_mem_roots isRoot)
    have visited := Tree.File.mem_tally_of_mem_roots inFile isRoot
    rw [← Multiset.coe_count, visits]
    exact Multiset.count_eq_one_of_mem placed.nodup_visited visited
  · intro slot accepted
    have notFile : occurrence.node.kind ≠ .file := by
      intro isFile
      rw [isFile] at accepted
      cases slot <;> cases accepted
    rw [filled]
    exact placed.count_filled (Tree.File.mem_nodes_of_kind occurs notFile) accepted

/-- The body of a function that depends on itself is begun once. -/
theorem count_visits_of_read_recursive_call :
    ∃ resolution ledger, read "sample" "fun a() = a()".toList = .ok resolution ∧
      (Audit.resolveFile resolution.file).run { state := .initial } = .ok ((), ledger) ∧
      ∃ occurrence ∈ resolution.file.occurrences,
        ∃ root ∈ occurrence.node.roots, ledger.visits.count root = 1 := by
  have computed :
      (match read "sample" "fun a() = a()".toList with
        | .ok resolution => resolution.file.occurrences.any fun occurrence =>
            !occurrence.node.roots.isEmpty
        | .error _ => false) = true := by
    decide +kernel
  cases readable : read "sample" "fun a() = a()".toList with
  | error fault =>
      rw [readable] at computed
      cases computed
  | ok resolution =>
      simp only [readable, List.any_eq_true, Bool.not_eq_true', List.isEmpty_eq_false_iff_exists_mem]
        at computed
      obtain ⟨occurrence, occurs, root, isRoot⟩ := computed
      obtain ⟨ledger, ran, -, -, -, counts⟩ := count_visits_of_read readable
      exact ⟨resolution, ledger, rfl, ran, occurrence, occurs, root, isRoot,
        (counts occurrence occurs).1 root isRoot⟩

end Resolution

end Gloss

/-!
### What is on record for a resolved file

Every declaration of a resolved file has a descriptor of its own, and every
expression and written type has a type.  What a reference means leads back to
one of these descriptors, or to the parameter that a constructor parameter is
beside its property.
-/

namespace Gloss

/-- A node is known by its reference. -/
theorem Tree.File.WellPlaced.occurrence_eq {file : Tree.File} {text : List Char}
    (placed : file.WellPlaced text) {first second : Occurrence} (inFile : first ∈ file.occurrences)
    (otherInFile : second ∈ file.occurrences) (notFile : first.node.kind ≠ .file)
    (same : first.ref = second.ref) : first = second := by
  obtain ⟨below, occurrences, nodes⟩ := file.occurrences_eq
  have distinct : (below.map Occurrence.ref).Nodup := by
    have refs : below.map Occurrence.ref = file.nodes.map Node.ref := by
      rw [← nodes, List.map_map]
      rfl
    rw [refs]
    exact placed.nodup_refs
  have isBelow {occurrence : Occurrence} (occurs : occurrence ∈ file.occurrences)
      (notFile : occurrence.node.kind ≠ .file) : occurrence ∈ below := by
    rw [occurrences] at occurs
    refine (List.mem_cons.mp occurs).resolve_left ?_
    rintro rfl
    exact notFile rfl
  have otherNotFile : second.node.kind ≠ .file := by
    have sameKind : first.node.kind = second.node.kind := congrArg NodeRef.kind same
    rwa [← sameKind]
  exact List.inj_on_of_nodup_map distinct (isBelow inFile notFile)
    (isBelow otherInFile otherNotFile) same

/-- A slot that remarks fill for a node is filled. -/
theorem Journal.isSome_type? {remarks : List Remark} (distinct : (Remark.nodes .type remarks).Nodup)
    {node : NodeRef} (isFilled : node ∈ Remark.nodes .type remarks) :
    ((empty.remarkAll remarks).types.get? node).isSome := by
  rw [← map_fst_filterMap_typed?] at distinct isFilled
  rw [types_remarkAll, Table.get?_foldl_insert distinct, Option.isSome_or,
    Option.isSome_iff_ne_none.mpr fun none => Table.lookupIn_eq_none_iff.mp none isFilled,
    Bool.true_or]

namespace Resolution

variable {name : String} {text : List Char} {resolution : Resolution} {occurrence : Occurrence}

section Recorded

variable (completes : Resolver.Completes resolution.file resolution.state)

include completes

theorem exists_descriptor (occurs : occurrence ∈ resolution.file.occurrences)
    (isDeclaration : occurrence.node.kind.isDeclaration = true) :
    ∃ descriptor, resolution.descriptor? occurrence.ref = some descriptor ∧
      descriptor.declaration = some occurrence.ref := by
  have notFile := NodeKind.ne_file_of_accept isDeclaration rfl
  have inFile := Tree.File.mem_nodes_of_kind occurs notFile
  have declared := Tree.File.mem_declaredNodes_of_mem_nodes inFile isDeclaration
  obtain ⟨descriptor, found⟩ := (mem_declaredNodes_iff completes).mp declared
  exact ⟨descriptor, found, (completes.grounded.declared _ _ found).1⟩

/-- A constructor parameter is something else beside its descriptor just when it
has a binding. -/
theorem descriptor?_ne_iff (occurs : occurrence ∈ resolution.file.occurrences)
    {described : Descriptor}
    (constructed : resolution.constructorParameter? occurrence.ref = some described) :
    resolution.descriptor? occurrence.ref ≠ some described ↔
      ∃ parameter, occurrence.node = .constructorParameter parameter ∧
        parameter.binding.isSome := by
  have kind : occurrence.node.kind = .constructorParameter :=
    completes.grounded.constructorOnly _ (Option.isSome_iff_exists.mpr ⟨_, constructed⟩)
  have inFile := Tree.File.mem_nodes_of_kind occurs (kind ▸ nofun)
  obtain ⟨node, above⟩ := occurrence
  obtain ⟨parameter, rfl⟩ := Node.exists_constructorParameter_of_kind kind
  have constructs := completes.constructs parameter (Tree.File.mem_constructorParameters inFile)
  unfold ResolutionState.Constructs at constructs
  split at constructs
  · next unbound =>
      obtain ⟨descriptor, declared, isParameter⟩ := constructs
      have same := Option.some.inj (isParameter.symm.trans constructed)
      refine ⟨fun different => absurd (same ▸ declared) different, ?_⟩
      rintro ⟨_, ⟨⟩, bound⟩
      rw [unbound] at bound
      cases bound
  · next bound =>
      obtain ⟨property, owner, parameterDescribed, declared, isParameter⟩ := constructs
      refine ⟨fun _ => ⟨parameter, rfl, by rw [bound]; rfl⟩, fun _ same => ?_⟩
      have isProperty := Option.some.inj (declared.symm.trans same)
      have isDescribed := Option.some.inj (isParameter.symm.trans constructed)
      rw [← isProperty] at isDescribed
      cases isDescribed

end Recorded

/-- Outside of the package line a node with a slot for a type has a type. -/
theorem isSome_type?_of_read (readable : read name text = .ok resolution)
    (occurs : occurrence ∈ resolution.file.occurrences)
    (accepted : Slot.type.accept occurrence.node.kind = true)
    (notName : occurrence.ref ∉ resolution.file.packageNames) :
    (resolution.type? occurrence.ref).isSome := by
  obtain ⟨ledger, -, closes, same⟩ := exists_closes_of_read readable
  have placed := (completes_of_read readable).1
  have nodes : (Remark.nodes .type ledger.remarks : Multiset NodeRef) =
      resolution.file.tally.1 .type :=
    congrFun (congrArg Prod.fst closes.tally) .type
  have notFile := NodeKind.ne_file_of_accept accepted rfl
  have counted : (resolution.file.tally.1 .type).count occurrence.ref = 1 :=
    (placed.count_filled (Tree.File.mem_nodes_of_kind occurs notFile) accepted).trans
      (if_neg notName)
  have types : resolution.state.types = (Journal.empty.remarkAll ledger.remarks).types :=
    same ▸ closes.faithful.types
  rw [type?, types]
  apply Journal.isSome_type?
  · rw [← Multiset.coe_nodup, nodes]
    exact placed.nodup_filled .type
  · rw [← Multiset.mem_coe, nodes, ← Multiset.count_pos, counted]
    exact Nat.one_pos

/-- Every declaration has a descriptor of its own, every expression outside of the
package line and every written type has a type, and what a reference comes from
is declared in the file: by its descriptor, or by the parameter that a
constructor parameter with a binding is beside its property. -/
theorem recorded_of_read (readable : read name text = .ok resolution) :
    (∀ occurrence ∈ resolution.file.occurrences, occurrence.node.kind.isDeclaration = true →
      ∃ descriptor, resolution.descriptor? occurrence.ref = some descriptor ∧
        descriptor.declaration = some occurrence.ref) ∧
    (∀ first ∈ resolution.file.occurrences, ∀ second ∈ resolution.file.occurrences,
      first.node.kind.isDeclaration = true → second.node.kind.isDeclaration = true →
        resolution.descriptor? first.ref = resolution.descriptor? second.ref →
          first = second) ∧
    (∀ occurrence ∈ resolution.file.occurrences,
      occurrence.node.kind.isExpression = true ∧
          occurrence.ref ∉ resolution.file.packageNames ∨
        occurrence.node.kind = .namedType ∨ occurrence.node.kind = .functionType →
      (resolution.type? occurrence.ref).isSome) ∧
    (∀ reference target declaration, resolution.target? reference = some target →
      target.original.declaration = some declaration →
        (∃ occurrence ∈ resolution.file.occurrences,
          occurrence.node.kind.isDeclaration = true ∧ occurrence.ref = declaration) ∧
        (resolution.descriptor? declaration = some target.original ∨
          resolution.constructorParameter? declaration = some target.original)) ∧
    ∀ occurrence ∈ resolution.file.occurrences, ∀ described,
      resolution.constructorParameter? occurrence.ref = some described →
        (resolution.descriptor? occurrence.ref ≠ some described ↔
          ∃ parameter, occurrence.node = .constructorParameter parameter ∧
            parameter.binding.isSome) := by
  obtain ⟨placed, completes⟩ := completes_of_read readable
  refine ⟨fun _ occurs => exists_descriptor completes occurs, ?_, ?_, ?_,
    fun _ occurs _ => descriptor?_ne_iff completes occurs⟩
  · intro first occurs second otherOccurs isDeclaration otherIsDeclaration same
    obtain ⟨descriptor, found, declared⟩ := exists_descriptor completes occurs isDeclaration
    obtain ⟨other, otherFound, otherDeclared⟩ :=
      exists_descriptor completes otherOccurs otherIsDeclaration
    rw [found, otherFound, Option.some.injEq] at same
    rw [same, otherDeclared, Option.some.injEq] at declared
    refine placed.occurrence_eq occurs otherOccurs ?_ declared.symm
    intro isFile
    rw [isFile] at isDeclaration
    cases isDeclaration
  · rintro occurrence occurs (⟨isExpression, notName⟩ | isType)
    · refine isSome_type?_of_read readable occurs ?_ notName
      rw [Slot.accept, isExpression, Bool.true_or, Bool.true_or]
    · have accepted : Slot.type.accept occurrence.node.kind = true := by
        rcases isType with kind | kind <;> rw [kind] <;> rfl
      refine isSome_type?_of_read readable occurs accepted fun isName => ?_
      obtain ⟨header, -, inHeader⟩ := List.mem_flatMap.mp isName
      obtain ⟨name, -, same⟩ := List.mem_map.mp inHeader
      have kind : NodeKind.name = occurrence.node.kind := congrArg NodeRef.kind same
      rw [← kind] at isType
      exact isType.elim nofun nofun
  · intro reference target declaration hasTarget isDeclared
    have declares := declares_of_target completes placed.nodup_references hasTarget
      ((targetDeclaration?_eq hasTarget).trans isDeclared)
    refine ⟨?_, declares⟩
    have isKnown := mem_declaredNodes_of_declares completes declares
    obtain ⟨node, inDeclarations, isDeclaration, same⟩ := Tree.File.mem_declaredNodes_iff.mp isKnown
    obtain ⟨occurrence, occurs, rfl⟩ :=
      Tree.File.exists_occurrence (Tree.File.mem_nodes_of_mem_declarationNodes inDeclarations)
    exact ⟨occurrence, occurs, isDeclaration, same⟩

/-- A constructor parameter with a binding is a property that references lead back
to, and a parameter beside it. -/
theorem recorded_of_read_property_parameter :
    ∃ resolution, read "sample" "class A(val x: Int)\nfun f(a: A) = a.x".toList = .ok resolution ∧
      (∃ reference target declaration, resolution.target? reference = some target ∧
        target.original.declaration = some declaration ∧
        (resolution.descriptor? declaration = some target.original ∨
          resolution.constructorParameter? declaration = some target.original)) ∧
      ∃ occurrence ∈ resolution.file.occurrences, ∃ described,
        resolution.constructorParameter? occurrence.ref = some described ∧
          resolution.descriptor? occurrence.ref ≠ some described := by
  have computed :
      (match read "sample" "class A(val x: Int)\nfun f(a: A) = a.x".toList with
        | .ok resolution =>
            (resolution.file.occurrences.any fun occurrence =>
              (resolution.target? occurrence.ref).any fun target =>
                target.original.declaration.isSome) &&
            resolution.file.occurrences.any fun occurrence =>
              occurrence.node.constructorParameters.any fun parameter =>
                parameter.binding.isSome &&
                  (resolution.constructorParameter? occurrence.ref).isSome
        | .error _ => false) = true := by
    decide +kernel
  cases readable : read "sample" "class A(val x: Int)\nfun f(a: A) = a.x".toList with
  | error fault =>
      rw [readable] at computed
      cases computed
  | ok resolution =>
      simp only [readable, Bool.and_eq_true, List.any_eq_true, Option.any_eq_true] at computed
      obtain ⟨⟨occurrence, -, target, hasTarget, isDeclared⟩, parameterAt, occurs, parameter,
        isParameter, bound, constructed⟩ := computed
      obtain ⟨declaration, isDeclared⟩ := Option.isSome_iff_exists.mp isDeclared
      obtain ⟨-, -, -, targets, parameters⟩ := recorded_of_read readable
      refine ⟨resolution, rfl, ⟨_, target, declaration, hasTarget, isDeclared,
        (targets _ target declaration hasTarget isDeclared).2⟩, parameterAt, occurs, ?_⟩
      obtain ⟨described, constructed⟩ := Option.isSome_iff_exists.mp constructed
      exact ⟨described, constructed, (parameters parameterAt occurs described constructed).mpr
        ⟨parameter, Node.mem_constructorParameters_iff.mp isParameter, bound⟩⟩

end Resolution

end Gloss
