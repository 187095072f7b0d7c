import Gloss.Proofs.Typing.FunctionMembers
import Gloss.Proofs.Typing.Renaming

/-!
# Type parameters of the receiver and of the function

A member function is seen through what the type parameters of its class stand for, and then its
own type parameters are inferred.  As long as the receiver mentions none of these, a call comes to
what it comes to when they are given new constructors first, whatever the arguments mention.  If
the receiver mentions one, it is inferred along with the rest.
-/

namespace Gloss

open NominalType

/-- The type mentions none but some constructors. -/
def NominalType.MentionsOnly (constructors : List TypeConstructor) (type : NominalType) : Prop :=
  ∀ constructor ∈ type.constructors, constructor ∈ constructors

/-! ### Signatures -/

namespace Signature

/-- The signature with other constructors. -/
def rename (change : TypeConstructor → TypeConstructor) (signature : Signature) : Signature where
  candidate := signature.candidate
  parameters := signature.parameters.map (.rename change)
  result := signature.result.rename change
  unknowns := signature.unknowns.map change

end Signature

/-- Two candidates are the same, fit equally well, and the one's result is the other's, renamed. -/
structure Applicable.Restored (back : TypeConstructor → TypeConstructor)
    (applicable renamed : Applicable) : Prop where
  candidate : renamed.candidate = applicable.candidate
  score : renamed.score = applicable.score
  result : renamed.result.rename back = applicable.result

namespace Signature

variable {signature : Signature} {inSight : List TypeConstructor} {arguments : List NominalType}

/-- A signature accepts arguments pair by pair, once its type variables are inferred. -/
theorem accept?_eq_ite (signature : Signature) (arguments : List NominalType) :
    let found := inferAll signature.unknowns signature.parameters arguments .empty
    signature.accept? arguments =
      if signature.parameters.length = arguments.length ∧
          ∀ pair ∈ arguments.zip signature.parameters,
            pair.1.isSubtype (pair.2.substitute found) = true then
        some
          { candidate := signature.candidate, substitution := found
            result := signature.result.substitute found
            score := (arguments.zip signature.parameters).countP fun pair =>
              pair.1.constructor = (pair.2.substitute found).constructor }
      else none := by
  intro found
  rw [accept?, signature.inferred_eq arguments]
  by_cases sameLength : signature.parameters.length = arguments.length
  · rw [if_neg (not_not.mpr sameLength)]
    simp only [List.zip_map_right, List.all_map, List.countP_map, List.all_eq_true, sameLength,
      true_and]
    rfl
  · rw [if_pos sameLength, if_neg fun both => sameLength both.1]

/-- Whatever constructors its type variables have, a signature accepts the same arguments, which
fit equally well; the result of the call is that with the new ones, renamed back. -/
theorem accept?_rename {unknowns : List TypeConstructor} (freshening : Freshening unknowns inSight)
    (areUnknowns : signature.unknowns = unknowns)
    (proper : ∀ unknown ∈ signature.unknowns, unknown.kind = .typeParameter)
    (seen : ∀ constructor ∈ constructorsOfAll (signature.result :: signature.parameters),
      constructor ∈ inSight)
    (seenArguments : ∀ constructor ∈ constructorsOfAll arguments, constructor ∈ inSight) :
    Option.Rel (Applicable.Restored freshening.back) (signature.accept? arguments)
      ((signature.rename freshening.fresh).accept? arguments) := by
  subst areUnknowns
  have seenResult : ∀ constructor ∈ signature.result.constructors, constructor ∈ inSight :=
    fun constructor occurs => seen constructor (List.mem_append_left _ occurs)
  have seenParameters : ∀ constructor ∈ constructorsOfAll signature.parameters,
      constructor ∈ inSight :=
    fun constructor occurs => seen constructor (List.mem_append_right _ occurs)
  have seenEach {types : List NominalType} {type : NominalType} (isType : type ∈ types)
      {constructor : TypeConstructor} (occurs : constructor ∈ type.constructors) :
      constructor ∈ constructorsOfAll types := by
    rw [constructorsOfAll_eq_flatMap]
    exact List.mem_flatMap.mpr ⟨type, isType, occurs⟩
  have mirrors := freshening.mirrors_inferAll seenParameters arguments
  have matched : ∀ pair ∈ arguments.zip signature.parameters,
      Freshening.Matched signature.unknowns
        (inferAll signature.unknowns signature.parameters arguments .empty) pair.2 pair.1 :=
    Freshening.matched_inferAll signature.parameters arguments
  have bound : ∀ constructor type, (inferAll signature.unknowns signature.parameters arguments
      .empty).get? constructor = some type → type.MentionsOnly inSight := by
    intro constructor type isBound
    refine forall_get?_inferAll ?_ ?_ ?_ ?_ isBound
    · exact fun type seenType argument isArgument inner occurs =>
        seenType inner (mem_constructors_of_argument isArgument occurs)
    · intro type nullable seenType inner occurs
      exact seenType inner (by rwa [constructors_eq] at occurs ⊢)
    · exact fun argument isArgument inner occurs =>
        seenArguments inner (seenEach isArgument occurs)
    · exact nofun
  have seenPair {pair : NominalType × NominalType}
      (isPair : pair ∈ arguments.zip signature.parameters) :
      ∀ constructor ∈ pair.2.constructors, constructor ∈ inSight :=
    fun constructor occurs =>
      seenParameters constructor (seenEach (List.of_mem_zip isPair).2 occurs)
  have fits {pair : NominalType × NominalType}
      (isPair : pair ∈ arguments.zip signature.parameters) :=
    mirrors.isSubtype_eq (seenPair isPair) (matched pair isPair)
  have fitsExactly {pair : NominalType × NominalType}
      (isPair : pair ∈ arguments.zip signature.parameters) :=
    mirrors.constructor_eq_iff proper (seenPair isPair) (matched pair isPair)
  rw [accept?_eq_ite, accept?_eq_ite]
  simp only [rename, List.length_map, List.zip_map_right, List.forall_mem_map, List.countP_map]
  by_cases accepted : signature.parameters.length = arguments.length ∧
      ∀ pair ∈ arguments.zip signature.parameters, pair.1.isSubtype (pair.2.substitute
        (inferAll signature.unknowns signature.parameters arguments .empty)) = true
  · rw [if_pos accepted, if_pos ⟨accepted.1, fun pair isPair =>
      (fits isPair).symm.trans (accepted.2 pair isPair)⟩]
    refine .some ⟨rfl, ?_, mirrors.rename_back_substitute bound _ seenResult⟩
    refine List.countP_congr fun pair isPair => ?_
    exact decide_eq_true_iff.trans ((fitsExactly isPair).symm.trans decide_eq_true_iff.symm)
  · rw [if_neg accepted, if_neg fun both => accepted ⟨both.1, fun pair isPair =>
      (fits isPair).trans (both.2 pair isPair)⟩]
    exact .none

end Signature

/-! ### Choices -/

/-- Two choices come to the same, up to renaming the result of the second one back. -/
inductive Choice.Restored (back : Descriptor → TypeConstructor → TypeConstructor) :
    Choice → Choice → Prop
  | none : Restored back .none .none
  | mismatch {only other : Signature} (candidate : other.candidate = only.candidate)
      (result : other.result.rename (back only.candidate) = only.result) :
      Restored back (.mismatch only) (.mismatch other)
  | inapplicable : Restored back .inapplicable .inapplicable
  | ambiguous {winners others : List Applicable}
      (candidates : others.map Applicable.candidate = winners.map Applicable.candidate) :
      Restored back (.ambiguous winners) (.ambiguous others)
  | chosen {best other : Applicable} (restored : best.Restored (back best.candidate) other) :
      Restored back (.chosen best) (.chosen other)

/-- Two signatures of one candidate accept the same, and the one's result is the other's,
renamed. -/
structure Signature.Restored (back : Descriptor → TypeConstructor → TypeConstructor)
    (arguments : List NominalType) (signature renamed : Signature) : Prop where
  candidate : renamed.candidate = signature.candidate
  result : renamed.result.rename (back signature.candidate) = signature.result
  accepts : Option.Rel (Applicable.Restored (back signature.candidate))
    (signature.accept? arguments) (renamed.accept? arguments)

namespace Choice

variable {back : Descriptor → TypeConstructor → TypeConstructor} {arguments : List NominalType}
  {signatures renamed : List Signature} {applicable others : List Applicable}

/-- The same candidates are accepted, up to renaming their results back. -/
def RestoresAll (back : Descriptor → TypeConstructor → TypeConstructor)
    (applicable others : List Applicable) : Prop :=
  List.Forall₂ (fun one other => one.Restored (back one.candidate) other) applicable others

theorem RestoresAll.accepted (restored : List.Forall₂ (Signature.Restored back arguments)
    signatures renamed) :
    RestoresAll back (accepted signatures arguments) (accepted renamed arguments) := by
  refine List.rel_filterMap (fun one other same => ?_) restored
  have accepts := same.accepts
  have ofSignature (found : Applicable) (accepted : one.accept? arguments = some found) :
      found.candidate = one.candidate :=
    candidate_of_accept? accepted
  revert accepts ofSignature
  generalize one.accept? arguments = first
  generalize other.accept? arguments = second
  intro accepts ofSignature
  cases accepts with
  | none => exact .none
  | some same => exact .some (ofSignature _ rfl ▸ same)

theorem RestoresAll.best_eq (restored : RestoresAll back applicable others) :
    best others = best applicable := by
  have go (least : Nat) :
      others.foldl (fun score candidate => max score candidate.score) least =
        applicable.foldl (fun score candidate => max score candidate.score) least := by
    induction restored generalizing least with
    | nil => rfl
    | cons same _ ih => rw [List.foldl_cons, List.foldl_cons, same.score, ih]
  exact go 0

theorem RestoresAll.winners (restored : RestoresAll back applicable others) :
    RestoresAll back (winners applicable) (winners others) := by
  refine List.rel_filter (fun one other same => ?_) restored
  simp only [decide_eq_true_eq, restored.best_eq, same.score]

theorem RestoresAll.map_candidate (restored : RestoresAll back applicable others) :
    others.map Applicable.candidate = applicable.map Applicable.candidate := by
  induction restored with
  | nil => rfl
  | cons same _ ih => rw [List.map_cons, List.map_cons, same.candidate, ih]

theorem among_eq_match (signatures : List Signature) (arguments : List NominalType) :
    among signatures arguments =
      match winners (accepted signatures arguments), signatures with
      | [winner], _ => .chosen winner
      | first :: second :: rest, _ => .ambiguous (first :: second :: rest)
      | [], [] => .none
      | [], [only] => .mismatch only
      | [], _ => .inapplicable := rfl

/-- The choice goes by what is accepted, and how well it fits. -/
theorem among_restored (restored : List.Forall₂ (Signature.Restored back arguments)
    signatures renamed) :
    Restored back (among signatures arguments) (among renamed arguments) := by
  have won := (RestoresAll.accepted restored).winners
  rw [among_eq_match, among_eq_match]
  revert won
  generalize winners (accepted signatures arguments) = first
  generalize winners (accepted renamed arguments) = second
  intro won
  cases won with
  | nil =>
      cases restored with
      | nil => exact .none
      | cons same rest =>
          cases rest with
          | nil => exact .mismatch same.candidate same.result
          | cons => exact .inapplicable
  | cons same rest =>
      cases rest with
      | nil => exact .chosen same
      | cons later rest =>
          exact .ambiguous (RestoresAll.map_candidate (.cons same (.cons later rest)))

end Choice

/-! ### Candidates of a member call -/

namespace NominalType

/-- What is mentioned after a substitution was mentioned before or is put in. -/
theorem mem_constructors_substitute {substitution : Substitution} (type : NominalType)
    {constructor : TypeConstructor}
    (occurs : constructor ∈ (type.substitute substitution).constructors) :
    constructor ∈ type.constructors ∨ ∃ key replacement,
      substitution.get? key = some replacement ∧ constructor ∈ replacement.constructors := by
  induction type using induct with
  | step type ih =>
      cases found : substitution.get? type.constructor with
      | some replacement =>
          rw [substitute_of_get?_eq_some found, constructors_eq] at occurs
          exact .inr ⟨_, replacement, found, by rwa [constructors_eq]⟩
      | none =>
          rw [substitute_of_get?_eq_none found, constructors_eq, constructorsOfAll_eq_flatMap]
            at occurs
          rcases List.mem_cons.mp occurs with rfl | inside
          · exact .inl type.constructor_mem_constructors
          · obtain ⟨argument, isArgument, occurs⟩ := List.mem_flatMap.mp inside
            obtain ⟨inner, isInner, rfl⟩ := List.mem_map.mp isArgument
            rcases ih inner isInner occurs with isMentioned | isPut
            · exact .inl (mem_constructors_of_argument isInner isMentioned)
            · exact .inr isPut

end NominalType

namespace Descriptor

/-- The type parameters that are inferred when a member is called. -/
def unknowns : Descriptor → List TypeConstructor
  | .function declared => declared.typeParameters.map TypeParameterDescriptor.constructor
  | _ => []

/-- The signature of a member as it is declared; a function returns the given type. -/
def declaredSignature : Descriptor → NominalType → Signature
  | .function declared, result =>
      { candidate := .function declared
        parameters := declared.parameters.map ParameterDescriptor.type, result
        unknowns := declared.typeParameters.map TypeParameterDescriptor.constructor }
  | .invoke called type, _ =>
      { candidate := .invoke called type
        parameters := ((Library.functionParts? type).getD ([], .error)).1
        result := ((Library.functionParts? type).getD ([], .error)).2, unknowns := [] }
  | other, _ => { candidate := other, parameters := [], result := .error, unknowns := [] }

theorem unknowns_declaredSignature (candidate : Descriptor) (result : NominalType) :
    (candidate.declaredSignature result).unknowns = candidate.unknowns := by
  cases candidate <;> rfl

theorem candidate_declaredSignature (candidate : Descriptor) (result : NominalType) :
    (candidate.declaredSignature result).candidate = candidate := by
  cases candidate <;> rfl

end Descriptor

namespace Signature

/-- The signature of a function is seen through what the type parameters of the receiver's class
stand for; that of a called value is not. -/
def seenThrough (receiver : Substitution) (signature : Signature) : Signature :=
  match signature.candidate with
  | .function _ =>
      { signature with
        parameters := signature.parameters.map (.substitute receiver)
        result := signature.result.substitute receiver }
  | _ => signature

/-- The receiver has nothing to do with the type variables: they are no type parameters of its
class, and what those stand for does not mention them. -/
structure Spares (receiver : Substitution) (unknowns : List TypeConstructor) : Prop where
  notKey : ∀ unknown ∈ unknowns, receiver.get? unknown = none
  notMentioned : ∀ key type, receiver.get? key = some type →
    ∀ constructor ∈ type.constructors, constructor ∉ unknowns

/-- All that a call looks at. -/
def inSight (signature : Signature) (receiver : Substitution) (arguments : List NominalType) :
    List TypeConstructor :=
  receiver.keys ++ constructorsOfAll
    (signature.result :: signature.parameters ++ (receiver.values ++ arguments))

variable {signature : Signature} {unknowns inSight : List TypeConstructor}
  {receiver : Substitution} {arguments : List NominalType}

theorem unknowns_seenThrough : (signature.seenThrough receiver).unknowns = signature.unknowns := by
  unfold seenThrough
  split <;> rfl

theorem candidate_seenThrough :
    (signature.seenThrough receiver).candidate = signature.candidate := by
  unfold seenThrough
  split <;> rfl

/-- Where the receiver spares the type variables, a type can be renamed before or after it is
seen through the receiver. -/
theorem substitute_rename (freshening : Freshening unknowns inSight)
    (spares : Spares receiver unknowns) (seenKeys : receiver.keys ⊆ inSight) (type : NominalType) :
    (type.rename freshening.fresh).substitute receiver =
      (type.substitute receiver).rename freshening.fresh := by
  refine type.rename_substitute (fun constructor _ => ?_) fun key replacement stands => ?_
  · by_cases isUnknown : constructor ∈ unknowns
    · have notKey : freshening.fresh constructor ∉ receiver.keys := fun isKey =>
        freshening.fresh_notMem constructor isUnknown (seenKeys isKey)
      rw [spares.notKey constructor isUnknown, Table.get?_eq_none_iff.mpr notKey]
    · rw [freshening.fresh_eq_self constructor isUnknown]
  · exact replacement.rename_eq_self fun constructor occurs =>
      freshening.fresh_eq_self constructor (spares.notMentioned key replacement stands _ occurs)

theorem seenThrough_rename (freshening : Freshening unknowns inSight)
    (spares : Spares receiver unknowns) (seenKeys : receiver.keys ⊆ inSight)
    (signature : Signature) :
    (signature.rename freshening.fresh).seenThrough receiver =
      (signature.seenThrough receiver).rename freshening.fresh := by
  obtain ⟨candidate, parameters, result, own⟩ := signature
  cases candidate with
  | function declared =>
      simp only [seenThrough, rename, List.map_map, Function.comp_def,
        substitute_rename freshening spares seenKeys]
  | _ => rfl

theorem mem_inSight_iff {constructor : TypeConstructor} :
    constructor ∈ signature.inSight receiver arguments ↔ constructor ∈ receiver.keys ∨
      ∃ type ∈ signature.result :: signature.parameters ++ (receiver.values ++ arguments),
        constructor ∈ type.constructors := by
  rw [Signature.inSight, List.mem_append, constructorsOfAll_eq_flatMap, List.mem_flatMap]

/-- What is in sight before is in sight after a signature is seen through the receiver. -/
theorem mem_inSight_of_seenThrough {constructor : TypeConstructor}
    (occurs : constructor ∈ constructorsOfAll ((signature.seenThrough receiver).result ::
      (signature.seenThrough receiver).parameters)) :
    constructor ∈ signature.inSight receiver arguments := by
  rw [constructorsOfAll_eq_flatMap] at occurs
  obtain ⟨type, isType, occurs⟩ := List.mem_flatMap.mp occurs
  have declared : type ∈ signature.result :: signature.parameters ∨
      ∃ other ∈ signature.result :: signature.parameters, other.substitute receiver = type := by
    unfold seenThrough at isType
    split at isType
    · exact .inr (List.mem_map.mp isType)
    · exact .inl isType
  rw [mem_inSight_iff]
  rcases declared with isDeclared | ⟨other, isDeclared, rfl⟩
  · exact .inr ⟨type, List.mem_append_left _ isDeclared, occurs⟩
  · rcases other.mem_constructors_substitute occurs with isMentioned | ⟨key, put, stands, isPut⟩
    · exact .inr ⟨other, List.mem_append_left _ isDeclared, isMentioned⟩
    · have isValue : put ∈ receiver.values :=
        List.mem_map_of_mem (f := Prod.snd) (Table.mem_of_lookupIn stands)
      exact .inr ⟨put, List.mem_append_right _ (List.mem_append_left _ isValue), isPut⟩

end Signature

namespace Descriptor

variable {candidate : Descriptor} {result : NominalType} {receiver : Substitution}
  {arguments : List NominalType} {inSight : List TypeConstructor}

/-- A member whose type parameters the receiver spares accepts the same arguments, whatever
constructors these have. -/
theorem restored_seenThrough
    (freshening : (candidate : Descriptor) → Freshening candidate.unknowns inSight)
    (proper : ∀ unknown ∈ candidate.unknowns, unknown.kind = .typeParameter)
    (spares : Signature.Spares receiver candidate.unknowns)
    (seen : (candidate.declaredSignature result).inSight receiver arguments ⊆ inSight) :
    Signature.Restored (fun candidate => (freshening candidate).back) arguments
      ((candidate.declaredSignature result).seenThrough receiver)
      (((candidate.declaredSignature result).rename (freshening candidate).fresh).seenThrough
        receiver) := by
  have seenKeys : receiver.keys ⊆ inSight := fun key isKey =>
    seen (Signature.mem_inSight_iff.mpr (.inl isKey))
  have seenArguments : ∀ constructor ∈ constructorsOfAll arguments, constructor ∈ inSight := by
    intro constructor occurs
    rw [constructorsOfAll_eq_flatMap] at occurs
    obtain ⟨argument, isArgument, occurs⟩ := List.mem_flatMap.mp occurs
    refine seen (Signature.mem_inSight_iff.mpr (.inr ⟨argument, ?_, occurs⟩))
    exact List.mem_append_right _ (List.mem_append_right _ isArgument)
  have areUnknowns : ((candidate.declaredSignature result).seenThrough receiver).unknowns =
      candidate.unknowns :=
    Signature.unknowns_seenThrough.trans (candidate.unknowns_declaredSignature result)
  have isCandidate : ((candidate.declaredSignature result).seenThrough receiver).candidate =
      candidate :=
    Signature.candidate_seenThrough.trans (candidate.candidate_declaredSignature result)
  have seenSignature : ∀ constructor ∈ constructorsOfAll
      (((candidate.declaredSignature result).seenThrough receiver).result ::
        ((candidate.declaredSignature result).seenThrough receiver).parameters),
      constructor ∈ inSight :=
    fun constructor occurs => seen (Signature.mem_inSight_of_seenThrough occurs)
  rw [Signature.seenThrough_rename (freshening candidate) spares seenKeys]
  constructor
  · rfl
  · rw [isCandidate]
    exact (freshening candidate).rename_back_rename _ fun constructor occurs =>
      seenSignature constructor (List.mem_append_left _ occurs)
  · rw [isCandidate]
    exact Signature.accept?_rename (freshening candidate) areUnknowns (areUnknowns ▸ proper)
      seenSignature seenArguments

end Descriptor

end Gloss
