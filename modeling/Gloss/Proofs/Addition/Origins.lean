import Gloss.Proofs.Order.Playing
import Gloss.Proofs.Typing.Hygiene

/-!
# Where types come from

A class or a type parameter of a file is known by the node that declares it.  A type comes from
some nodes if all constructors that it mentions and that a file declares are declared there; so
do the types that are made from such types, and what is inferred from them.
-/

namespace Gloss

open NominalType

namespace NominalType

/-- The nodes that declare what a type mentions. -/
def nodes (type : NominalType) : List NodeRef :=
  type.constructors.filterMap TypeConstructor.declaration?

/-- All that the type mentions is declared at some nodes or in the library. -/
def From (home : NodeRef → Prop) (type : NominalType) : Prop := ∀ node ∈ type.nodes, home node

variable {home : NodeRef → Prop} {type result : NominalType} {substitution : Substitution}

theorem from_iff : type.From home ↔
    (∀ node ∈ type.constructor.declaration?, home node) ∧
      ∀ argument ∈ type.arguments, argument.From home := by
  unfold From nodes
  rw [constructors_eq, constructorsOfAll_eq_flatMap]
  constructor
  · intro whole
    refine ⟨fun node isOwn => whole node ?_, fun argument isArgument node isMentioned => ?_⟩
    · exact List.mem_filterMap.mpr ⟨_, List.mem_cons_self, isOwn⟩
    · obtain ⟨constructor, occurs, isOwn⟩ := List.mem_filterMap.mp isMentioned
      refine whole node (List.mem_filterMap.mpr ⟨constructor, List.mem_cons_of_mem _ ?_, isOwn⟩)
      exact List.mem_flatMap.mpr ⟨argument, isArgument, occurs⟩
  · rintro ⟨own, arguments⟩ node isMentioned
    obtain ⟨constructor, occurs, isOwn⟩ := List.mem_filterMap.mp isMentioned
    rcases List.mem_cons.mp occurs with rfl | inside
    · exact own node isOwn
    · obtain ⟨argument, isArgument, occurs⟩ := List.mem_flatMap.mp inside
      exact arguments argument isArgument node (List.mem_filterMap.mpr ⟨constructor, occurs, isOwn⟩)

theorem From.arguments (comes : type.From home) :
    ∀ argument ∈ type.arguments, argument.From home :=
  (from_iff.mp comes).2

theorem from_of_nodes (library : type.nodes = []) : type.From home := by
  unfold From
  rw [library]
  exact List.forall_mem_nil _

theorem from_error : NominalType.error.From home := from_of_nodes rfl

theorem From.withNullable (comes : type.From home) (nullable : Bool) :
    (type.withNullable nullable).From home := by
  rw [from_iff] at comes ⊢
  exact comes

theorem from_functionType {types : List NominalType} (comes : ∀ type ∈ types, type.From home)
    (comesResult : result.From home) (nullable : Bool) :
    (Library.functionType types result nullable).From home := by
  refine from_iff.mpr ⟨fun node isOwn => ?_, ?_⟩
  · cases isOwn
  · exact List.forall_mem_append.mpr ⟨comes, List.forall_mem_singleton.mpr comesResult⟩

theorem From.of_functionParts? {types : List NominalType} (comes : type.From home)
    (parts : Library.functionParts? type = some (types, result)) : result.From home := by
  unfold Library.functionParts? at parts
  split at parts
  · next isLast =>
      cases parts
      exact comes.arguments _ (List.mem_of_getLast? isLast)
  · cases parts

theorem From.join {first second top : NominalType} (comes : first.From home)
    (comesSecond : second.From home) (comesTop : top.From home) :
    (first.join second top).From home := by
  unfold NominalType.join
  simp only
  split
  · exact from_error
  · split
    · exact comesSecond.withNullable _
    · split
      · exact comes.withNullable _
      · split
        · exact comes.withNullable _
        · exact comesTop.withNullable _

end NominalType

/-- All that is put in comes from some nodes. -/
def Substitution.From (home : NodeRef → Prop) (substitution : Substitution) : Prop :=
  ∀ constructor type, substitution.get? constructor = some type → type.From home

variable {home : NodeRef → Prop} {substitution : Substitution}

theorem Substitution.from_empty : Substitution.From home .empty :=
  fun _ _ found => by cases found

theorem Substitution.From.substitute (puts : substitution.From home) {type : NominalType}
    (comes : type.From home) : (type.substitute substitution).From home := by
  intro node isMentioned
  obtain ⟨constructor, occurs, isOwn⟩ := List.mem_filterMap.mp isMentioned
  rcases mem_constructors_substitute type occurs with isOld | ⟨key, replacement, found, isNew⟩
  · exact comes node (List.mem_filterMap.mpr ⟨constructor, isOld, isOwn⟩)
  · exact puts key replacement found node (List.mem_filterMap.mpr ⟨constructor, isNew, isOwn⟩)

/-- The arguments of a receiver stand for the type parameters of its class. -/
theorem Substitution.from_ofList_zip (constructors : List TypeConstructor)
    {arguments : List NominalType} (comes : ∀ argument ∈ arguments, argument.From home) :
    Substitution.From home (Table.ofList (constructors.zip arguments)) :=
  fun _ type isBound => comes type (List.of_mem_zip (Table.mem_of_get?_ofList isBound)).2

/-! ### Calls -/

theorem Signature.from_inferred (signature : Signature) {arguments : List NominalType}
    (comes : ∀ argument ∈ arguments, argument.From home) :
    Substitution.From home (signature.inferred arguments) := by
  intro constructor type isBound
  rw [signature.inferred_eq] at isBound
  exact forall_get?_inferAll (fun _ => From.arguments) (fun _ nullable whole =>
    whole.withNullable nullable) comes (fun _ _ found => by cases found) isBound

theorem Choice.from_of_among_eq_chosen {signatures : List Signature}
    {arguments : List NominalType} {best : Applicable}
    (chosen : Choice.among signatures arguments = .chosen best)
    (comes : ∀ argument ∈ arguments, argument.From home)
    (comesResults : ∀ signature ∈ signatures, signature.result.From home) :
    best.result.From home ∧ ∃ signature ∈ signatures, best.candidate = signature.candidate := by
  obtain ⟨signature, isJudged, accepted⟩ := Choice.exists_accept?_of_among_eq_chosen chosen
  obtain ⟨candidate, -, result⟩ := Choice.of_accept? accepted
  refine ⟨?_, signature, isJudged, candidate⟩
  rw [result]
  exact (signature.from_inferred comes).substitute (comesResults signature isJudged)

/-- Candidates that fit equally well are among those that were judged. -/
theorem Choice.exists_of_among_eq_ambiguous {signatures : List Signature}
    {arguments : List NominalType} {winners : List Applicable}
    (ambiguous : Choice.among signatures arguments = .ambiguous winners) :
    ∀ winner ∈ winners, ∃ signature ∈ signatures, winner.candidate = signature.candidate := by
  intro winner isWinner
  have isAccepted : winner ∈ signatures.filterMap fun signature => signature.accept? arguments := by
    unfold Choice.among at ambiguous
    simp only at ambiguous
    split at ambiguous
    · cases ambiguous
    · next found =>
        cases ambiguous
        rw [← found] at isWinner
        exact List.mem_of_mem_filter isWinner
    all_goals cases ambiguous
  obtain ⟨signature, isJudged, accepted⟩ := List.mem_filterMap.mp isAccepted
  exact ⟨signature, isJudged, Choice.candidate_of_accept? accepted⟩

/-! ### Descriptors -/

/-- The node that declares the owner of a parameter, if it is a function. -/
def ParameterOwner.function? : ParameterOwner → Option NodeRef
  | .function owner => owner.declaration
  | .class _ | .specialized _ => none

namespace VariableDescriptor

/-- The nodes that declare what is said about a variable. -/
def nodes : VariableDescriptor → List NodeRef
  | .parameter owner declared => owner.function?.toList ++ declared.type.nodes
  | .property declared =>
      declared.declaration.toList ++ (declared.type.map NominalType.nodes).getD []
  | .local declared => declared.type.nodes

end VariableDescriptor

namespace Descriptor

/-- The nodes that declare what is said about a declaration. -/
def nodes : Descriptor → List NodeRef
  | .class declared =>
      declared.constructor.declaration?.toList ++
        declared.typeParameters.filterMap fun parameter => parameter.constructor.declaration?
  | .typeParameter declared => declared.constructor.declaration?.toList
  | .function declared =>
      declared.declaration.toList ++
        ((declared.parameters.flatMap fun parameter => parameter.type.nodes) ++
          (declared.returnType.map NominalType.nodes).getD [])
  | .specialized declared => (declared.returnType.map NominalType.nodes).getD []
  | .variable holder => holder.nodes
  | .invoke called type => called.nodes ++ type.nodes
  | .error _ => []

/-- All that is said about a declaration is declared at some nodes or in the library. -/
def From (home : NodeRef → Prop) (descriptor : Descriptor) : Prop :=
  ∀ node ∈ descriptor.nodes, home node

variable {descriptor : Descriptor}

theorem from_of_nodes (library : descriptor.nodes = []) : descriptor.From home := by
  unfold From
  rw [library]
  exact List.forall_mem_nil _

theorem from_function_iff {function : FunctionDescriptor} :
    (Descriptor.function function).From home ↔ (∀ node ∈ function.declaration, home node) ∧
      (∀ parameter ∈ function.parameters, parameter.type.From home) ∧
        ∀ type ∈ function.returnType, type.From home := by
  unfold From nodes
  rw [List.forall_mem_append, List.forall_mem_append, List.forall_mem_flatMap]
  cases function.declaration <;> cases function.returnType <;> simp [NominalType.From]

theorem from_property_iff {property : PropertyDescriptor} :
    (Descriptor.variable (.property property)).From home ↔
      (∀ node ∈ property.declaration, home node) ∧ ∀ type ∈ property.type, type.From home := by
  unfold From nodes VariableDescriptor.nodes
  rw [List.forall_mem_append]
  cases property.declaration <;> cases property.type <;> simp [NominalType.From]

theorem from_parameter_iff {owner : ParameterOwner} {parameter : ParameterDescriptor} :
    (Descriptor.variable (.parameter owner parameter)).From home ↔
      (∀ node ∈ owner.function?, home node) ∧ parameter.type.From home := by
  unfold From nodes VariableDescriptor.nodes
  rw [List.forall_mem_append]
  simp [NominalType.From]

theorem from_invoke_iff {called : VariableDescriptor} {type : NominalType} :
    (Descriptor.invoke called type).From home ↔
      (Descriptor.variable called).From home ∧ type.From home :=
  List.forall_mem_append

theorem From.defaultType {declared : ClassDescriptor}
    (comes : (Descriptor.class declared).From home) : declared.defaultType.From home := by
  obtain ⟨own, parameters⟩ := List.forall_mem_append.mp comes
  refine from_iff.mpr ⟨fun node isOwn => own node (Option.mem_toList.mpr isOwn), ?_⟩
  refine List.forall_mem_map.mpr fun parameter isParameter => from_iff.mpr ⟨?_, ?_⟩
  · exact fun node isOwn => parameters node (List.mem_filterMap.mpr ⟨parameter, isParameter, isOwn⟩)
  · exact List.forall_mem_nil _

/-- What is shown with a descriptor is the type of a declaration among those nodes. -/
theorem From.shownOpen? (comes : descriptor.From home) :
    ∀ node ∈ descriptor.shownOpen?, home node := by
  have ofVariable {holder : VariableDescriptor} (comes : (Descriptor.variable holder).From home) :
      ∀ node ∈ (Descriptor.variable holder).shownOpen?, home node := by
    intro node isShown
    cases holder with
    | property declared =>
        simp only [Descriptor.shownOpen?, Option.mem_def, Option.ite_none_right_eq_some] at isShown
        exact (from_property_iff.mp comes).1 node isShown.2
    | parameter owner declared =>
        cases owner with
        | function function =>
            simp only [Descriptor.shownOpen?, Option.mem_def, Option.ite_none_right_eq_some]
              at isShown
            exact (from_parameter_iff.mp comes).1 node isShown.2
        | _ => cases isShown
    | «local» declared => cases isShown
  intro node isShown
  cases descriptor with
  | function declared =>
      simp only [Descriptor.shownOpen?, Option.mem_def, Option.ite_none_right_eq_some] at isShown
      exact (from_function_iff.mp comes).1 node isShown.2
  | «variable» holder => exact ofVariable comes node isShown
  | invoke called type =>
      rw [Descriptor.shownOpen?_invoke] at isShown
      exact ofVariable (from_invoke_iff.mp comes).1 node isShown
  | _ => cases isShown

/-- A function that is specialized for a call shows its type for good. -/
theorem From.shownOpen?_callTarget {best : Applicable} (comes : best.candidate.From home)
    (inferred : InferredTypes) :
    ∀ node ∈ (Resolver.callTarget inferred best).shownOpen?, home node := by
  have shown := comes.shownOpen?
  unfold Resolver.callTarget
  split
  · next declared isCandidate =>
      rw [isCandidate] at shown
      split
      · exact shown
      · simp [Descriptor.shownOpen?]
  · exact shown

end Descriptor

end Gloss
