import Gloss.Check
import Gloss.Proofs.Order.Likeness
import Gloss.Proofs.Resolution.Calls
import Mathlib.Data.List.Forall2

/-!
# Overloads in any order

A call whose candidates have known types asks for nothing while it judges them, so all that
counts is which of them accept the arguments.  Listing the candidates in another order changes
the order of an ambiguous reference's candidates at most.  Where one of them accepts the
arguments, those that do not might as well be left out.
-/

namespace Gloss

namespace Choice

variable {first second : List Signature} {arguments : List NominalType}

/-- By induction from the end of the list, where the best score so far is at hand. -/
theorem exists_score_eq_best {applicable : List Applicable} (notNil : applicable ≠ []) :
    ∃ candidate ∈ applicable, candidate.score = best applicable := by
  induction applicable using List.reverseRecOn with
  | nil => exact absurd rfl notNil
  | append_singleton earlier last ih =>
      have isMax : best (earlier ++ [last]) = max (best earlier) last.score := by
        rw [best, best, List.foldl_append]
        rfl
      by_cases beats : best earlier ≤ last.score
      · refine ⟨last, List.mem_append_right _ List.mem_cons_self, ?_⟩
        rw [isMax, max_eq_right beats]
      · have stillBest := isMax.trans (max_eq_left (Nat.le_of_not_le beats))
        have notFirst : earlier ≠ [] := by
          rintro rfl
          exact beats (Nat.zero_le _)
        obtain ⟨candidate, isEarlier, isBest⟩ := ih notFirst
        exact ⟨candidate, List.mem_append_left _ isEarlier, isBest.trans stillBest.symm⟩

theorem winners_ne_nil {applicable : List Applicable} (notNil : applicable ≠ []) :
    winners applicable ≠ [] := by
  obtain ⟨candidate, isApplicable, isBest⟩ := exists_score_eq_best notNil
  have wins : candidate ∈ winners applicable :=
    List.mem_filter.mpr ⟨isApplicable, decide_eq_true isBest⟩
  exact List.ne_nil_of_mem wins

/-- Where some candidate accepts the arguments, only those that do matter. -/
theorem among_alike_of_accepted
    (perm : (accepted first arguments).Perm (accepted second arguments))
    (notNil : accepted first arguments ≠ []) :
    Alike (among first arguments) (among second arguments) :=
  among_alike_of_winners (winners_perm perm) fun lost => absurd lost (winners_ne_nil notNil)

theorem among_ne_inapplicable (notNil : accepted first arguments ≠ []) :
    among first arguments ≠ .inapplicable := by
  have won := winners_ne_nil notNil
  unfold winners accepted at won
  intro nothing
  unfold among at nothing
  dsimp only at nothing
  split at nothing
  · cases nothing
  · cases nothing
  · cases nothing
  · cases nothing
  · next lost => exact won lost

/-- A single candidate is chosen just where it accepts the arguments. -/
theorem among_singleton (signature : Signature) (arguments : List NominalType) :
    among [signature] arguments =
      match signature.accept? arguments with
      | .some applicable => .chosen applicable
      | .none => .mismatch signature := by
  cases accepted : signature.accept? arguments with
  | none => simp [among, accepted]
  | some applicable => simp [among, accepted, best]

end Choice

/-- Two states that differ at most in the order in which the candidates of ambiguous references
are listed. -/
structure ResolutionState.Matches (one other : ResolutionState) : Prop where
  ambiguous : ∀ reference, Option.Rel List.Perm (one.bindings.ambiguous.get? reference)
    (other.bindings.ambiguous.get? reference)
  rest : { one with bindings := { one.bindings with ambiguous := .empty } } =
    { other with bindings := { other.bindings with ambiguous := .empty } }

theorem ResolutionState.Matches.refl (state : ResolutionState) : state.Matches state where
  ambiguous reference := by
    cases state.bindings.ambiguous.get? reference with
    | none => exact .none
    | some candidates => exact .some (.refl candidates)
  rest := rfl

/-- Whether the type of what a call of the candidate comes to is known. -/
def Descriptor.hasKnownResult (inferred : InferredTypes) : Descriptor → Bool
  | .function declared => (declared.returnType? inferred).isSome
  | _ => true

namespace Resolver

variable {demand : Demand} {state : ResolutionState} {receiver : Substitution}
  {candidate : Descriptor} {candidates others : List Descriptor} {arguments : List NominalType}

/-- The signature of a candidate, as a call in a state sees it. -/
def signatureIn (demand : Demand) (state : ResolutionState) (receiver : Substitution)
    (candidate : Descriptor) : Signature :=
  ((signature demand receiver candidate).run state).1

/-- Whether a candidate is applicable. -/
def accepts (demand : Demand) (state : ResolutionState) (receiver : Substitution)
    (arguments : List NominalType) (candidate : Descriptor) : Bool :=
  ((signatureIn demand state receiver candidate).accept? arguments).isSome

/-- A type that is written or was inferred is read off, and nothing is inferred. -/
theorem run_settle_of_known {written : Option NominalType} {declaration : Option NodeRef}
    {type : NominalType}
    (known : written.or (declaration.bind state.inferred.get?) = some type) :
    (settle demand written declaration).run state = pure (type, state) := by
  cases written with
  | some given =>
      cases known
      rfl
  | none =>
      rw [Option.none_or] at known
      obtain ⟨node, declared, isInferred⟩ := Option.bind_eq_some_iff.mp known
      rw [declared]
      exact run_settle_of_some isInferred

theorem run_returnType_of_known {function : FunctionDescriptor} {type : NominalType}
    (known : function.returnType? state.inferred = some type) :
    (returnType demand function).run state = pure (type, state) := by
  apply run_settle_of_known
  rw [← known, FunctionDescriptor.returnType?]
  cases function.returnType <;> rfl

theorem run_signature_of_known (known : candidate.hasKnownResult state.inferred = true) :
    (signature demand receiver candidate).run state =
      pure (signatureIn demand state receiver candidate, state) := by
  cases candidate with
  | function function =>
      obtain ⟨type, isKnown⟩ := Option.isSome_iff_exists.mp known
      have found : (returnType demand function).run state = pure (type, state) :=
        run_returnType_of_known isKnown
      simp only [signatureIn, signature, StateT.run_bind, found, pure_bind, StateT.run_pure]
      rfl
  | «class» | invoke | specialized | «variable» | typeParameter | error => rfl

theorem run_signatures_of_known
    (known : ∀ candidate ∈ candidates, candidate.hasKnownResult state.inferred = true) :
    (signatures demand receiver candidates).run state =
      pure (candidates.map (signatureIn demand state receiver), state) := by
  induction candidates with
  | nil => rfl
  | cons candidate rest ih =>
      obtain ⟨knownFirst, knownRest⟩ := List.forall_mem_cons.mp known
      simp only [signatures, StateT.run_bind, run_signature_of_known knownFirst, pure_bind,
        ih knownRest]
      rfl

/-- What follows on the signatures of candidates with known types starts in the same state. -/
theorem run_signatures_bind_of_known {α : Type} (next : List Signature → Resolver α)
    (known : ∀ candidate ∈ candidates, candidate.hasKnownResult state.inferred = true) :
    (signatures demand receiver candidates >>= next).run state =
      (next (candidates.map (signatureIn demand state receiver))).run state := by
  rw [StateT.run_bind, run_signatures_of_known known, pure_bind]

theorem accepted_eq (candidates : List Descriptor) :
    Choice.accepted (candidates.map (signatureIn demand state receiver)) arguments =
      (candidates.filter (accepts demand state receiver arguments)).filterMap fun candidate =>
        (signatureIn demand state receiver candidate).accept? arguments := by
  rw [Choice.accepted, List.filterMap_map, List.filterMap_filter]
  congr 1
  funext candidate
  rw [Function.comp_apply, accepts]
  cases (signatureIn demand state receiver candidate).accept? arguments <;> rfl

theorem accepted_ne_nil (isCandidate : candidate ∈ candidates)
    (fits : accepts demand state receiver arguments candidate = true) :
    Choice.accepted (candidates.map (signatureIn demand state receiver)) arguments ≠ [] := by
  obtain ⟨applicable, accepted⟩ := Option.isSome_iff_exists.mp fits
  apply List.ne_nil_of_mem (a := applicable)
  exact List.mem_filterMap.mpr ⟨_, List.mem_map_of_mem isCandidate, accepted⟩

/-- What a call comes to depends on the choice among its candidates; their number shows only
where none of several is applicable. -/
theorem matches_resolveCall_of_alike {reference : NodeRef} {name : String}
    (known : ∀ candidate ∈ candidates, candidate.hasKnownResult state.inferred = true)
    (knownOthers : ∀ candidate ∈ others, candidate.hasKnownResult state.inferred = true)
    (alike : Choice.Alike
      (Choice.among (candidates.map (signatureIn demand state receiver)) arguments)
      (Choice.among (others.map (signatureIn demand state receiver)) arguments))
    (count : Choice.among (candidates.map (signatureIn demand state receiver)) arguments =
      .inapplicable → candidates.length = others.length) :
    let one := (resolveCall demand reference name candidates arguments receiver).run state
    let other := (resolveCall demand reference name others arguments receiver).run state
    one.1 = other.1 ∧ one.2.Matches other.2 := by
  intro one other
  unfold one other resolveCall
  rw [run_signatures_bind_of_known _ known, run_signatures_bind_of_known _ knownOthers]
  revert alike count
  generalize Choice.among (candidates.map (signatureIn demand state receiver)) arguments = chosen
  generalize Choice.among (others.map (signatureIn demand state receiver)) arguments = another
  intro alike count
  cases alike with
  | refl =>
      cases chosen with
      | inapplicable =>
          rw [count rfl]
          exact ⟨rfl, .refl _⟩
      | none | mismatch | ambiguous | chosen => exact ⟨rfl, .refl _⟩
  | @ambiguous first second perm =>
      dsimp only
      rw [perm.length_eq]
      refine ⟨rfl, fun other => ?_, rfl⟩
      show Option.Rel List.Perm
        ((state.bindings.ambiguous.insert reference (first.map Applicable.candidate)).get? other)
        ((state.bindings.ambiguous.insert reference (second.map Applicable.candidate)).get? other)
      rw [Table.get?_insert, Table.get?_insert]
      split
      · exact .some (perm.map _)
      · exact (ResolutionState.Matches.refl state).ambiguous other

/-- Where the types of all candidates are known, listing them in another order changes neither
the type of a call nor its outcome, up to the order of an ambiguous reference's candidates.
Where a candidate is applicable, neither does adding or leaving out any that are not. -/
theorem matches_resolveCall (demand : Demand) (state : ResolutionState) (reference : NodeRef)
    (name : String) (candidates others : List Descriptor) (arguments : List NominalType)
    (receiver : Substitution)
    (known : ∀ candidate ∈ candidates ++ others, candidate.hasKnownResult state.inferred = true)
    (same : candidates.Perm others ∨
      (∃ candidate ∈ candidates, accepts demand state receiver arguments candidate = true) ∧
        (candidates.filter (accepts demand state receiver arguments)).Perm
          (others.filter (accepts demand state receiver arguments))) :
    let one := (resolveCall demand reference name candidates arguments receiver).run state
    let other := (resolveCall demand reference name others arguments receiver).run state
    one.1 = other.1 ∧ one.2.Matches other.2 := by
  obtain ⟨knownHere, knownThere⟩ := List.forall_mem_append.mp known
  apply matches_resolveCall_of_alike knownHere knownThere
  · rcases same with perm | ⟨⟨candidate, isCandidate, fits⟩, perm⟩
    · exact Choice.among_alike (perm.map _) arguments
    · refine Choice.among_alike_of_accepted ?_ (accepted_ne_nil isCandidate fits)
      rw [accepted_eq, accepted_eq]
      exact perm.filterMap _
  · intro nothing
    rcases same with perm | ⟨⟨candidate, isCandidate, fits⟩, -⟩
    · exact perm.length_eq
    · exact absurd nothing (Choice.among_ne_inapplicable (accepted_ne_nil isCandidate fits))

/-- A class, a value of function type and a generic function compete for one call.  The class
takes no arguments; without it, and in another order, the call comes to the same. -/
theorem matches_resolveCall_without_class :
    let state := ResolutionState.initial
    let answer := Resolver.demand
    let reference : NodeRef := ⟨.name, ⟨0, 1⟩⟩
    let type := Library.functionType [Library.any] Library.string false
    let value : Descriptor := .invoke
      (.local { name := "pick", declaration := none, type, binding := .val }) type
    let generic : Descriptor := .function (Library.genericFunction "pick" "it" id)
    let candidates := [.class Library.anyClass.descriptor, value, generic]
    let others := [generic, value]
    let one := (resolveCall answer reference "pick" candidates [Library.int] .empty).run state
    let other := (resolveCall answer reference "pick" others [Library.int] .empty).run state
    (∀ candidate ∈ candidates ++ others, candidate.hasKnownResult state.inferred = true) ∧
      (∃ candidate ∈ candidates, accepts answer state .empty [Library.int] candidate = true) ∧
        (candidates.filter (accepts answer state .empty [Library.int])).Perm
          (others.filter (accepts answer state .empty [Library.int])) ∧
          one.1 = Library.int ∧ one.1 = other.1 ∧ one.2.Matches other.2 := by
  intro state answer reference type value generic candidates others one other
  have known : ∀ candidate ∈ candidates ++ others,
      candidate.hasKnownResult state.inferred = true := by decide
  have applicable : ∃ candidate ∈ candidates,
      accepts answer state .empty [Library.int] candidate = true := by decide
  have perm : (candidates.filter (accepts answer state .empty [Library.int])).Perm
      (others.filter (accepts answer state .empty [Library.int])) := by decide
  have isInt : one.1 = Library.int := by decide
  exact ⟨known, applicable, perm, isInt, matches_resolveCall answer state reference "pick"
    candidates others [Library.int] .empty known (.inr ⟨applicable, perm⟩)⟩

end Resolver

end Gloss
