import Gloss.Proofs.Resolution.Steps
import Gloss.Resolution.Inference

/-!
# Calls account for what is called

A call is resolved to one of the candidates that were looked up for it, so its
target is declared when the candidates are.  Asking for open types on the way
makes no entries of its own.
-/

namespace Gloss

namespace Choice

variable {signatures : List Signature} {arguments : List NominalType}

/-- What is accepted has the result of the signature, with what was inferred put in. -/
theorem of_accept? {signature : Signature} {applicable : Applicable}
    (accepted : signature.accept? arguments = some applicable) :
    applicable.candidate = signature.candidate ∧
      applicable.substitution = signature.inferred arguments ∧
        applicable.result = signature.result.substitute (signature.inferred arguments) := by
  unfold Signature.accept? at accepted
  split at accepted
  · cases accepted
  · simp only at accepted
    split at accepted
    · cases accepted
      exact ⟨rfl, rfl, rfl⟩
    · cases accepted

theorem candidate_of_accept? {signature : Signature} {applicable : Applicable}
    (accepted : signature.accept? arguments = some applicable) :
    applicable.candidate = signature.candidate :=
  (of_accept? accepted).1

/-- The winner among candidates is one of those that accept the arguments. -/
theorem exists_accept?_of_among_eq_chosen {best : Applicable}
    (chosen : among signatures arguments = .chosen best) :
    ∃ signature ∈ signatures, signature.accept? arguments = some best := by
  have member : best ∈ signatures.filterMap fun signature => signature.accept? arguments := by
    unfold among at chosen
    simp only at chosen
    split at chosen
    · next winners =>
        cases chosen
        apply List.mem_of_mem_filter
        rw [winners]
        exact List.mem_cons_self
    all_goals cases chosen
  exact List.mem_filterMap.mp member

/-- The candidate that is chosen is that of one of the signatures. -/
theorem exists_of_among_eq_chosen {best : Applicable}
    (chosen : among signatures arguments = .chosen best) :
    ∃ signature ∈ signatures, best.candidate = signature.candidate := by
  obtain ⟨signature, inSignatures, accepted⟩ := exists_accept?_of_among_eq_chosen chosen
  exact ⟨signature, inSignatures, candidate_of_accept? accepted⟩

theorem mem_of_among_eq_mismatch {only : Signature}
    (mismatch : among signatures arguments = .mismatch only) : only ∈ signatures := by
  unfold among at mismatch
  simp only at mismatch
  split at mismatch
  all_goals cases mismatch
  exact List.mem_cons_self

end Choice

namespace ResolutionState

variable {start state : ResolutionState}

theorem Grounded.backs_of_class? (grounded : start.Grounded) (agrees : start.Agrees state)
    {constructor : TypeConstructor} {entry : ClassEntry}
    (found : state.class? constructor = some entry) {member : Descriptor}
    (inEntry : member ∈ entry.members) : start.Backs member := by
  unfold class? at found
  split at found
  · cases found
    exact absurd inEntry List.not_mem_nil
  · apply backs_of_mem_library
    exact Library.mem_descriptors_of_mem_members (List.mem_of_find?_eq_some found) inEntry
  · rw [agrees.classes] at found
    exact grounded.members constructor entry found member inEntry
  · cases found

theorem backs_of_membersNamed {entry : ClassEntry} {name : String}
    (backs : ∀ member ∈ entry.members, start.Backs member) :
    ∀ member ∈ entry.membersNamed name, start.Backs member :=
  fun member named => backs member (List.mem_filter.mp named).1

theorem backs_of_anyClass (name : String) :
    ∀ member ∈ Library.anyClass.membersNamed name, start.Backs member :=
  backs_of_membersNamed fun _ inClass =>
    backs_of_mem_library (Library.mem_descriptors_of_mem_members List.mem_cons_self inClass)

end ResolutionState

namespace Resolver

open ResolutionState

/-- The answers to a demand for an open type account for what they enter. -/
def Answers (start : ResolutionState) (active : List NodeRef) (demand : Demand) : Prop :=
  ∀ node state, start.Agrees state → state.inferred.get? node = none →
    start.Resolves active 0 state ((demand node).run state).2

variable {start : ResolutionState} {active : List NodeRef} {demand : Demand}

/-- What was inferred is not inferred again. -/
theorem run_settle_of_some {state : ResolutionState} {node : NodeRef} {type : NominalType}
    (known : state.inferred.get? node = some type) :
    (settle demand none (some node)).run state = (type, state) := by
  simp only [settle, StateT.run_bind, StateT.run_get, pure_bind, known]
  rfl

theorem run_settle_of_none {state : ResolutionState} {node : NodeRef}
    (isOpen : state.inferred.get? node = none) :
    (settle demand none (some node)).run state = (demand node).run state := by
  simp only [settle, StateT.run_bind, StateT.run_get, pure_bind, isOpen]

section Types

variable (answers : Answers start active demand)

include answers

theorem accounts_settle (known : Option NominalType) (declaration : Option NodeRef) :
    Accounts start active (settle demand known declaration) 0 fun _ => True := by
  cases known with
  | some type => exact .of_pure trivial
  | none =>
      cases declaration with
      | none => exact .of_pure trivial
      | some node =>
          intro state agrees
          cases inferred : state.inferred.get? node with
          | some type =>
              have known : Accounts start active (pure type) 0 fun _ => True := .of_pure trivial
              rw [run_settle_of_some inferred]
              exact known state agrees
          | none =>
              rw [run_settle_of_none inferred]
              exact ⟨answers node state agrees inferred, trivial⟩

theorem accounts_variableType (holder : VariableDescriptor) :
    Accounts start active (variableType demand holder) 0 fun _ => True := by
  cases holder with
  | parameter owner parameter => exact .of_pure trivial
  | property property => exact accounts_settle answers _ _
  | «local» declared => exact .of_pure trivial

theorem accounts_returnType (function : FunctionDescriptor) :
    Accounts start active (returnType demand function) 0 fun _ => True :=
  accounts_settle answers _ _

theorem accounts_functionValueType (function : FunctionDescriptor) :
    Accounts start active (functionValueType demand function) 0 fun _ => True := by
  apply (accounts_returnType answers function).after
  intro _ _
  apply (accounts_noteArity _).after
  intro _ _
  exact .of_pure trivial

theorem accounts_valueType (descriptor : Descriptor) :
    Accounts start active (valueType demand descriptor) 0 fun _ => True := by
  cases descriptor with
  | «variable» holder => exact accounts_variableType answers holder
  | invoke called type => exact accounts_variableType answers called
  | function function => exact accounts_functionValueType answers function
  | specialized | «class» | typeParameter | error => exact .of_pure trivial

/-- What a call could go to is backed by what has the called meaning. -/
theorem accounts_asCallable {descriptor : Descriptor} (backs : start.Backs descriptor) :
    Accounts start active (asCallable demand descriptor) 0
      fun callable => ∀ found ∈ callable, start.Backs found := by
  cases descriptor with
  | «variable» holder =>
      apply (accounts_variableType answers holder).after
      intro type _
      apply Accounts.of_pure
      intro found isFound
      obtain ⟨arity, -, rfl⟩ := Option.map_eq_some_iff.mp isFound
      exact backs
  | «class» | function | specialized =>
      apply Accounts.of_pure
      intro found none
      cases none
      exact backs
  | typeParameter | invoke | error =>
      apply Accounts.of_pure
      intro found none
      cases none

theorem accounts_callables {descriptors : List Descriptor}
    (backs : ∀ descriptor ∈ descriptors, start.Backs descriptor) :
    Accounts start active (callables demand descriptors) 0
      fun found => ∀ callable ∈ found, start.Backs callable := by
  induction descriptors with
  | nil => exact .of_pure fun _ member => absurd member List.not_mem_nil
  | cons descriptor rest ih =>
      obtain ⟨backsFirst, backsRest⟩ := List.forall_mem_cons.mp backs
      apply (accounts_asCallable answers backsFirst).after
      intro callable backsCallable
      apply (ih backsRest).after
      intro later backsLater
      apply Accounts.of_pure
      intro found member
      rcases List.mem_append.mp member with isCallable | inLater
      · exact backsCallable found (Option.mem_toList.mp isCallable)
      · exact backsLater found inLater

theorem accounts_callablesAt (name : String) {levels : List (Scope Descriptor)}
    (backs : ∀ level ∈ levels, ∀ symbol ∈ level.symbols, start.Backs symbol.descriptor) :
    Accounts start active (callablesAt demand name levels) 0
      fun found => ∀ callable ∈ found, start.Backs callable := by
  induction levels with
  | nil => exact .of_pure fun _ member => absurd member List.not_mem_nil
  | cons level outer ih =>
      obtain ⟨backsLevel, backsOuter⟩ := List.forall_mem_cons.mp backs
      have backsNamed : ∀ descriptor ∈ ((level.symbolsNamed name).filter fun symbol =>
          symbol.kind ≠ .typeParameter).map Symbol.descriptor, start.Backs descriptor := by
        intro descriptor member
        obtain ⟨symbol, inFiltered, rfl⟩ := List.mem_map.mp member
        have named := (List.mem_filter.mp inFiltered).1
        exact backsLevel symbol (List.mem_filter.mp named).1
      apply (accounts_callables answers backsNamed).after
      intro found backsFound
      cases found with
      | nil => exact ih backsOuter
      | cons first rest => exact .of_pure backsFound

theorem accounts_signature (receiver : Substitution) (candidate : Descriptor) :
    Accounts start active (signature demand receiver candidate) 0
      fun judged => judged.candidate = candidate := by
  cases candidate with
  | function descriptor =>
      apply (accounts_returnType answers descriptor).after
      intro _ _
      exact .of_pure rfl
  | «class» descriptor => exact .of_get fun _ _ => .of_pure rfl
  | invoke | specialized | «variable» | typeParameter | error => exact .of_pure rfl

theorem accounts_signatures (receiver : Substitution) (candidates : List Descriptor) :
    Accounts start active (signatures demand receiver candidates) 0
      fun judged => ∀ signature ∈ judged, signature.candidate ∈ candidates := by
  induction candidates with
  | nil => exact .of_pure fun _ member => absurd member List.not_mem_nil
  | cons candidate rest ih =>
      apply (accounts_signature answers receiver candidate).after
      intro first isFirst
      apply ih.after
      intro later inRest
      apply Accounts.of_pure
      intro signature member
      rcases List.mem_cons.mp member with rfl | inLater
      · exact isFirst ▸ List.mem_cons_self
      · exact List.mem_cons_of_mem _ (inRest signature inLater)

end Types

theorem accounts_membersOf (grounded : start.Grounded) (receiver : NominalType)
    (name : String) :
    Accounts start active (membersOf receiver name) 0
      fun found => ∀ member ∈ found.1, start.Backs member := by
  apply Accounts.of_get
  intro state agrees
  cases found : state.class? receiver.constructor with
  | none => exact .of_pure (backs_of_anyClass name)
  | some entry =>
      have backs : ∀ member ∈ entry.membersNamed name, start.Backs member :=
        backs_of_membersNamed fun _ => grounded.backs_of_class? agrees found
      apply Accounts.of_pure
      simp only
      split
      · exact backs_of_anyClass name
      · exact backs

theorem backs_callTarget {inferred : InferredTypes} {choice : Applicable}
    (backs : start.Backs choice.candidate) : start.Backs (callTarget inferred choice) := by
  unfold callTarget
  split
  · next descriptor isFunction =>
      rw [isFunction] at backs
      split
      · exact backs
      · exact backs
  · exact backs

/-- Whatever becomes of a call, one entry is made for what is called. -/
theorem accounts_resolveCall (answers : Answers start active demand) (reference : NodeRef)
    (name : String) {candidates : List Descriptor}
    (backs : ∀ candidate ∈ candidates, start.Backs candidate)
    (arguments : List NominalType) (receiver : Substitution) :
    Accounts start active (resolveCall demand reference name candidates arguments receiver)
      {reference} fun _ => True := by
  apply (accounts_signatures answers receiver candidates).after
  intro judged fromCandidates
  apply Accounts.of_get
  intro state agrees
  cases choice : Choice.among judged arguments with
  | none =>
      apply (accounts_unresolved reference name).andThen
      intro _ _
      exact .of_pure trivial
  | mismatch only =>
      have member := Choice.mem_of_among_eq_mismatch choice
      apply (accounts_record reference (backs _ (fromCandidates only member))).andThen
      intro _ _
      apply (accounts_report _ _).after
      intro _ _
      exact .of_pure trivial
  | inapplicable =>
      apply (accounts_report _ _).after
      intro _ _
      apply (accounts_markUnresolved reference).andThen
      intro _ _
      exact .of_pure trivial
  | ambiguous winners =>
      apply (accounts_markAmbiguous reference _).andThen
      intro _ _
      apply (accounts_report _ _).after
      intro _ _
      exact .of_pure trivial
  | chosen best =>
      obtain ⟨signature, inJudged, same⟩ := Choice.exists_of_among_eq_chosen choice
      have backsBest : start.Backs best.candidate :=
        same ▸ backs _ (fromCandidates signature inJudged)
      apply (accounts_record reference (backs_callTarget backsBest)).andThen
      intro _ _
      exact .of_pure trivial

end Resolver

end Gloss
