import Gloss.Proofs.Typing.Matching

/-!
# Renaming type variables

The type variables of a signature can be given new constructors, told from all that is in sight.
Inference then goes the same way and binds the new ones to the types that the old ones were bound
to.  What stays unbound stands only where an argument is an error, so that neither what fits nor
how well it fits depends on which constructors stand for the type variables.
-/

namespace Gloss

namespace NominalType

variable {change : TypeConstructor → TypeConstructor}

mutual

/-- The type with other constructors. -/
def rename (change : TypeConstructor → TypeConstructor) : NominalType → NominalType
  | ⟨constructor, arguments, nullable⟩ =>
      ⟨change constructor, renameAll change arguments, nullable⟩

def renameAll (change : TypeConstructor → TypeConstructor) : List NominalType → List NominalType
  | [] => []
  | type :: rest => rename change type :: renameAll change rest

end

theorem renameAll_eq_map (change : TypeConstructor → TypeConstructor) (types : List NominalType) :
    renameAll change types = types.map (rename change) := by
  induction types with
  | nil => rfl
  | cons type rest ih => rw [renameAll, ih, List.map_cons]

theorem rename_eq (change : TypeConstructor → TypeConstructor) (type : NominalType) :
    type.rename change =
      { constructor := change type.constructor, arguments := type.arguments.map (rename change)
        nullable := type.nullable } := by
  obtain ⟨constructor, arguments, nullable⟩ := type
  rw [rename, renameAll_eq_map]

@[simp] theorem constructor_rename (type : NominalType) :
    (type.rename change).constructor = change type.constructor := by
  rw [rename_eq]

@[simp] theorem arguments_rename (type : NominalType) :
    (type.rename change).arguments = type.arguments.map (rename change) := by
  rw [rename_eq]

@[simp] theorem nullable_rename (type : NominalType) :
    (type.rename change).nullable = type.nullable := by
  rw [rename_eq]

/-- A type stays as it is where its constructors do. -/
theorem rename_eq_self (type : NominalType)
    (fixed : ∀ constructor ∈ type.constructors, change constructor = constructor) :
    type.rename change = type := by
  induction type using induct with
  | step type ih =>
      have each : ∀ argument ∈ type.arguments, argument.rename change = argument :=
        fun argument isArgument => ih argument isArgument fun constructor occurs =>
          fixed constructor (mem_constructors_of_argument isArgument occurs)
      have same : type.arguments.map (rename change) = type.arguments :=
        (List.map_congr_left each).trans (List.map_id' _)
      rw [rename_eq, same, fixed _ type.constructor_mem_constructors]
      cases type
      rfl

theorem rename_withNullable (type : NominalType) (nullable : Bool) :
    (type.withNullable nullable).rename change = (type.rename change).withNullable nullable := by
  rw [rename_eq, rename_eq]
  rfl

/-- Renaming goes through a substitution that neither puts in what is renamed nor puts anything
in for it. -/
theorem rename_substitute {substitution : Substitution} (type : NominalType)
    (kept : ∀ constructor ∈ type.constructors,
      substitution.get? (change constructor) = substitution.get? constructor)
    (fixed : ∀ constructor replacement, substitution.get? constructor = some replacement →
      replacement.rename change = replacement) :
    (type.rename change).substitute substitution =
      (type.substitute substitution).rename change := by
  induction type using induct with
  | step type ih =>
      have same := kept _ type.constructor_mem_constructors
      cases found : substitution.get? type.constructor with
      | some replacement =>
          have stays := fixed _ _ found
          have renamed : substitution.get? (type.rename change).constructor = some replacement := by
            rw [constructor_rename, same, found]
          rw [substitute_of_get?_eq_some renamed, substitute_of_get?_eq_some found, nullable_rename,
            rename_withNullable, stays]
      | none =>
          have renamed : substitution.get? (type.rename change).constructor = none := by
            rw [constructor_rename, same, found]
          rw [substitute_of_get?_eq_none renamed, substitute_of_get?_eq_none found, rename_eq,
            rename_eq]
          simp only [List.map_map]
          congr 1
          refine List.map_congr_left fun argument isArgument => ih argument isArgument ?_
          exact fun constructor occurs =>
            kept constructor (mem_constructors_of_argument isArgument occurs)

/-- A comparison looks at the arguments only where the constructors are the same. -/
theorem isSubtype_congr {sub super other : NominalType}
    (constructor : super.constructor = other.constructor)
    (nullable : super.nullable = other.nullable)
    (length : super.arguments.length = other.arguments.length)
    (agree : sub.isError = false → super.constructor = sub.constructor →
      ((sub.arguments.zip super.arguments).all fun pair => argumentsAgree pair.1 pair.2) =
        (sub.arguments.zip other.arguments).all fun pair => argumentsAgree pair.1 pair.2) :
    sub.isSubtype super = sub.isSubtype other := by
  have isError : super.isError = other.isError := by rw [isError, isError, constructor]
  unfold isSubtype
  rw [isError, nullable, length, ← constructor]
  by_cases failed : sub.isError = true
  · simp [failed]
  · by_cases same : sub.constructor = super.constructor
    · rw [agree (Bool.eq_false_iff.mpr failed) same.symm]
    · simp [same]

end NominalType

/-- New constructors in the place of type variables, and the way back from them.  They are told
from everything that is in sight. -/
structure Freshening (unknowns inSight : List TypeConstructor) where
  fresh : TypeConstructor → TypeConstructor
  back : TypeConstructor → TypeConstructor
  kind_fresh : ∀ unknown ∈ unknowns, (fresh unknown).kind = unknown.kind
  fresh_notMem : ∀ unknown ∈ unknowns, fresh unknown ∉ inSight
  fresh_eq_self : ∀ constructor ∉ unknowns, fresh constructor = constructor
  back_fresh : ∀ unknown ∈ unknowns, back (fresh unknown) = unknown
  back_eq_self : ∀ constructor ∈ inSight, back constructor = constructor

namespace Freshening

open NominalType

/-! ### New constructors -/

/-- The number of parameters of the class of functions that a constructor is a parameter of. -/
def arityOf (constructor : TypeConstructor) : Nat :=
  match constructor.origin with
  | .functionParameter arity _ => arity
  | _ => 0

def highestArity : List TypeConstructor → Nat
  | [] => 0
  | first :: rest => (arityOf first).max (highestArity rest)

theorem arityOf_le_highestArity {inSight : List TypeConstructor} {constructor : TypeConstructor}
    (seen : constructor ∈ inSight) : arityOf constructor ≤ highestArity inSight := by
  induction inSight with
  | nil => cases seen
  | cons first rest ih =>
      rcases List.mem_cons.mp seen with rfl | inRest
      · exact Nat.le_max_left _ _
      · exact (ih inRest).trans (Nat.le_max_right _ _)

/-- There are always new constructors: the parameters of a class of functions with more
parameters than any in sight. -/
def ofArity (unknowns inSight : List TypeConstructor) : Freshening unknowns inSight where
  fresh constructor :=
    if constructor ∈ unknowns then
      { constructor with
        origin := .functionParameter (highestArity inSight + 1) (unknowns.idxOf constructor) }
    else constructor
  back constructor :=
    match constructor.origin with
    | .functionParameter arity index =>
        if arity = highestArity inSight + 1 then unknowns.getD index constructor
        else constructor
    | _ => constructor
  kind_fresh unknown isUnknown := by rw [if_pos isUnknown]
  fresh_notMem unknown isUnknown seen := by
    rw [if_pos isUnknown] at seen
    exact Nat.not_succ_le_self _ (arityOf_le_highestArity seen)
  fresh_eq_self constructor notUnknown := if_neg notUnknown
  back_fresh unknown isUnknown := by
    rw [if_pos isUnknown]
    simp [List.getD_eq_getElem?_getD, List.getElem?_idxOf isUnknown]
  back_eq_self constructor seen := by
    have bounded := arityOf_le_highestArity seen
    unfold arityOf at bounded
    split
    · next arity index isParameter =>
        rw [isParameter] at bounded
        exact if_neg (Nat.ne_of_lt (Nat.lt_succ_of_le bounded))
    · rfl

variable {unknowns inSight : List TypeConstructor} (freshening : Freshening unknowns inSight)
  {constructor : TypeConstructor} {known renamed : Substitution}

theorem mem_map_fresh_iff (seen : constructor ∈ inSight) :
    freshening.fresh constructor ∈ unknowns.map freshening.fresh ↔ constructor ∈ unknowns := by
  refine ⟨fun isFresh => ?_, List.mem_map_of_mem⟩
  by_contra notUnknown
  obtain ⟨unknown, isUnknown, same⟩ := List.mem_map.mp isFresh
  rw [freshening.fresh_eq_self constructor notUnknown] at same
  exact freshening.fresh_notMem unknown isUnknown (same ▸ seen)

theorem back_fresh_of_inSight (seen : constructor ∈ inSight) :
    freshening.back (freshening.fresh constructor) = constructor := by
  by_cases isUnknown : constructor ∈ unknowns
  · exact freshening.back_fresh constructor isUnknown
  · rw [freshening.fresh_eq_self constructor isUnknown, freshening.back_eq_self constructor seen]

/-- A type in sight is renamed and renamed back. -/
theorem rename_back_rename (type : NominalType)
    (seen : ∀ constructor ∈ type.constructors, constructor ∈ inSight) :
    (type.rename freshening.fresh).rename freshening.back = type := by
  induction type using induct with
  | step type ih =>
      have each : ∀ argument ∈ type.arguments,
          (argument.rename freshening.fresh).rename freshening.back = argument :=
        fun argument isArgument => ih argument isArgument fun constructor occurs =>
          seen constructor (mem_constructors_of_argument isArgument occurs)
      have same : (type.arguments.map (rename freshening.fresh)).map (rename freshening.back) =
          type.arguments := by
        rw [List.map_map]
        exact (List.map_congr_left each).trans (List.map_id' _)
      rw [rename_eq, arguments_rename, nullable_rename, constructor_rename, same,
        freshening.back_fresh_of_inSight (seen _ type.constructor_mem_constructors)]
      cases type
      rfl

/-! ### Inference -/

/-- The new type variables are bound to what the old ones are bound to. -/
def Agrees (known renamed : Substitution) : Prop :=
  ∀ unknown ∈ unknowns, renamed.get? (freshening.fresh unknown) = known.get? unknown

variable {freshening}

theorem agrees_inferAll_of_forall {parameters : List NominalType}
    (each : ∀ parameter ∈ parameters, ∀ argument known renamed,
      freshening.Agrees known renamed →
        freshening.Agrees (infer unknowns parameter argument known)
          (infer (unknowns.map freshening.fresh) (parameter.rename freshening.fresh) argument
            renamed))
    (arguments : List NominalType) (agrees : freshening.Agrees known renamed) :
    freshening.Agrees (inferAll unknowns parameters arguments known)
      (inferAll (unknowns.map freshening.fresh) (parameters.map (rename freshening.fresh)) arguments
        renamed) := by
  induction parameters generalizing arguments known renamed with
  | nil =>
      simp only [List.map_nil]
      rw [inferAll, inferAll]
      · exact agrees
      · intro _ _ _ _ same
        cases same
      · intro _ _ _ _ same
        cases same
  | cons first rest ih =>
      obtain ⟨eachFirst, eachRest⟩ := List.forall_mem_cons.mp each
      cases arguments with
      | nil =>
          rw [inferAll, inferAll]
          · exact agrees
          · intro _ _ _ _ _ same
            cases same
          · intro _ _ _ _ _ same
            cases same
      | cons argument arguments =>
          rw [List.map_cons, inferAll, inferAll]
          exact ih eachRest arguments (eachFirst argument known renamed agrees)

/-- By induction on the parameter, which is told from the new type variables. -/
theorem agrees_infer (parameter argument : NominalType)
    (seen : ∀ constructor ∈ parameter.constructors, constructor ∈ inSight)
    (agrees : freshening.Agrees known renamed) :
    freshening.Agrees (infer unknowns parameter argument known)
      (infer (unknowns.map freshening.fresh) (parameter.rename freshening.fresh) argument
        renamed) := by
  induction parameter using induct generalizing argument known renamed with
  | step parameter ih =>
      have isSeen := seen _ parameter.constructor_mem_constructors
      cases failed : argument.isError with
      | true =>
          rw [infer_of_isError failed, infer_of_isError failed]
          exact agrees
      | false =>
          by_cases isUnknown : parameter.constructor ∈ unknowns
          · have isFresh : (parameter.rename freshening.fresh).constructor ∈
                unknowns.map freshening.fresh := by
              rw [constructor_rename]
              exact List.mem_map_of_mem isUnknown
            have sameBound := agrees _ isUnknown
            rw [infer_of_mem failed isUnknown, infer_of_mem failed isFresh, constructor_rename,
              nullable_rename, Table.contains, Table.contains, sameBound]
            split
            · exact agrees
            · intro unknown isOther
              rw [Table.get?_insert, Table.get?_insert, agrees unknown isOther]
              by_cases same : parameter.constructor = unknown
              · rw [if_pos same, if_pos (congrArg _ same)]
              · have apart : freshening.fresh parameter.constructor ≠ freshening.fresh unknown := by
                  intro sameFresh
                  have sameBack := congrArg freshening.back sameFresh
                  rw [freshening.back_fresh _ isUnknown,
                    freshening.back_fresh _ isOther] at sameBack
                  exact same sameBack
                rw [if_neg same, if_neg apart]
          · have notFresh : (parameter.rename freshening.fresh).constructor ∉
                unknowns.map freshening.fresh := by
              rw [constructor_rename, freshening.mem_map_fresh_iff isSeen]
              exact isUnknown
            rw [infer_of_notMem failed isUnknown, infer_of_notMem failed notFresh,
              constructor_rename, arguments_rename, freshening.fresh_eq_self _ isUnknown]
            split
            · refine agrees_inferAll_of_forall (fun inner isInner argument known renamed => ?_) _
                agrees
              exact ih inner isInner argument fun constructor occurs =>
                seen constructor (mem_constructors_of_argument isInner occurs)
            · exact agrees

/-- Inference for the new type variables goes the way that it goes for the old ones. -/
theorem agrees_inferAll {parameters : List NominalType}
    (seen : ∀ constructor ∈ constructorsOfAll parameters, constructor ∈ inSight)
    (arguments : List NominalType) :
    freshening.Agrees (inferAll unknowns parameters arguments .empty)
      (inferAll (unknowns.map freshening.fresh) (parameters.map (rename freshening.fresh)) arguments
        .empty) := by
  refine agrees_inferAll_of_forall (fun parameter isParameter argument known renamed => ?_)
    arguments fun _ _ => rfl
  refine agrees_infer parameter argument fun constructor occurs => seen constructor ?_
  rw [constructorsOfAll_eq_flatMap]
  exact List.mem_flatMap.mpr ⟨parameter, isParameter, occurs⟩

/-! ### What is inferred -/

variable {parameter argument : NominalType} {parameters arguments : List NominalType}
  {before after : Substitution}

/-- A type variable is bound, or it stands where an argument is an error. -/
def Settled (unknowns : List TypeConstructor) (known : Substitution)
    (parameter argument : NominalType) : Prop :=
  parameter.constructor ∈ unknowns →
    (known.get? parameter.constructor).isSome ∨ argument.isError = true

/-- All type variables that a comparison of the two types looks at are settled. -/
structure Matched (unknowns : List TypeConstructor) (known : Substitution)
    (parameter argument : NominalType) : Prop where
  outer : Settled unknowns known parameter argument
  inner : argument.isError = false → parameter.constructor ∉ unknowns →
    parameter.constructor = argument.constructor →
      ∀ pair ∈ argument.arguments.zip parameter.arguments, Settled unknowns known pair.2 pair.1

theorem Settled.mono (settled : Settled unknowns before parameter argument)
    (keeps : ∀ constructor type, before.get? constructor = some type →
      after.get? constructor = some type) : Settled unknowns after parameter argument := by
  intro isUnknown
  rcases settled isUnknown with isBound | failed
  · obtain ⟨type, bound⟩ := Option.isSome_iff_exists.mp isBound
    exact .inl (by rw [keeps _ _ bound]; rfl)
  · exact .inr failed

theorem Matched.mono (matched : Matched unknowns before parameter argument)
    (keeps : ∀ constructor type, before.get? constructor = some type →
      after.get? constructor = some type) : Matched unknowns after parameter argument where
  outer := matched.outer.mono keeps
  inner sound notUnknown same pair isPair :=
    (matched.inner sound notUnknown same pair isPair).mono keeps

theorem settled_infer (parameter argument : NominalType) (known : Substitution) :
    Settled unknowns (infer unknowns parameter argument known) parameter argument := by
  intro isUnknown
  cases failed : argument.isError with
  | true => exact .inr rfl
  | false =>
      left
      rw [infer_of_mem failed isUnknown]
      split
      · next isBound => exact isBound
      · rw [Table.get?_insert, if_pos rfl]
        rfl

/-- What holds of each pair when it has been gone through holds when all have been. -/
theorem forall_zip_inferAll {holds : Substitution → NominalType → NominalType → Prop}
    (each : ∀ parameter argument known,
      holds (infer unknowns parameter argument known) parameter argument)
    (mono : ∀ {before after : Substitution} {parameter argument : NominalType},
      holds before parameter argument → (∀ constructor type, before.get? constructor = some type →
        after.get? constructor = some type) → holds after parameter argument)
    (parameters arguments : List NominalType) (known : Substitution) :
    ∀ pair ∈ arguments.zip parameters,
      holds (inferAll unknowns parameters arguments known) pair.2 pair.1 := by
  induction parameters generalizing arguments known with
  | nil =>
      rw [List.zip_nil_right]
      exact nofun
  | cons first rest ih =>
      cases arguments with
      | nil => exact nofun
      | cons argument arguments =>
          rw [List.zip_cons_cons, inferAll]
          refine List.forall_mem_cons.mpr ⟨?_, ih arguments _⟩
          exact mono (each first argument known) (extends_inferAll unknowns rest arguments _).keeps

theorem matched_infer (parameter argument : NominalType) (known : Substitution) :
    Matched unknowns (infer unknowns parameter argument known) parameter argument where
  outer := settled_infer parameter argument known
  inner sound notUnknown same := by
    rw [infer_of_notMem sound notUnknown, if_pos same]
    exact forall_zip_inferAll settled_infer Settled.mono _ _ _

theorem matched_inferAll (parameters arguments : List NominalType) :
    ∀ pair ∈ arguments.zip parameters,
      Matched unknowns (inferAll unknowns parameters arguments .empty) pair.2 pair.1 :=
  forall_zip_inferAll matched_infer Matched.mono parameters arguments .empty

/-! ### What is put in -/

/-- The new type variables are bound as the old ones, and nothing else is bound. -/
structure Mirrors (freshening : Freshening unknowns inSight) (known renamed : Substitution) :
    Prop where
  agrees : freshening.Agrees known renamed
  only : ∀ constructor ∉ unknowns, known.get? constructor = none
  onlyFresh : ∀ constructor ∉ unknowns.map freshening.fresh, renamed.get? constructor = none

theorem mirrors_inferAll (freshening : Freshening unknowns inSight)
    (seen : ∀ constructor ∈ constructorsOfAll parameters, constructor ∈ inSight)
    (arguments : List NominalType) :
    freshening.Mirrors (inferAll unknowns parameters arguments .empty)
      (inferAll (unknowns.map freshening.fresh) (parameters.map (rename freshening.fresh)) arguments
        .empty) where
  agrees := agrees_inferAll seen arguments
  only constructor notUnknown := (extends_inferAll _ _ _ _).unbound constructor rfl
    fun isUnknown => absurd isUnknown notUnknown
  onlyFresh constructor notFresh := (extends_inferAll _ _ _ _).unbound constructor rfl
    fun isFresh => absurd isFresh notFresh

namespace Mirrors

variable (mirrors : freshening.Mirrors known renamed)

include mirrors

theorem get?_rename (type : NominalType)
    (seen : ∀ constructor ∈ type.constructors, constructor ∈ inSight) :
    renamed.get? (type.rename freshening.fresh).constructor = known.get? type.constructor := by
  rw [constructor_rename]
  by_cases isUnknown : type.constructor ∈ unknowns
  · exact mirrors.agrees _ isUnknown
  · rw [mirrors.only _ isUnknown, mirrors.onlyFresh]
    rwa [freshening.mem_map_fresh_iff (seen _ type.constructor_mem_constructors)]

/-- The way back from what the new type variables come to leads to what the old ones come to. -/
theorem rename_back_substitute
    (bound : ∀ constructor type, known.get? constructor = some type →
      ∀ inner ∈ type.constructors, inner ∈ inSight)
    (type : NominalType) (seen : ∀ constructor ∈ type.constructors, constructor ∈ inSight) :
    ((type.rename freshening.fresh).substitute renamed).rename freshening.back =
      type.substitute known := by
  induction type using induct with
  | step type ih =>
      have same := mirrors.get?_rename type seen
      cases found : known.get? type.constructor with
      | some replacement =>
          have stays : replacement.rename freshening.back = replacement :=
            replacement.rename_eq_self fun constructor occurs =>
              freshening.back_eq_self constructor (bound _ _ found constructor occurs)
          rw [substitute_of_get?_eq_some (same.trans found), substitute_of_get?_eq_some found,
            rename_withNullable, stays, nullable_rename]
      | none =>
          have goesBack := freshening.back_fresh_of_inSight
            (seen _ type.constructor_mem_constructors)
          rw [substitute_of_get?_eq_none (same.trans found), substitute_of_get?_eq_none found,
            rename_eq, rename_eq]
          simp only [goesBack, List.map_map]
          congr 1
          refine List.map_congr_left fun inner isInner => ih inner isInner ?_
          exact fun constructor occurs =>
            seen constructor (mem_constructors_of_argument isInner occurs)

/-- Arguments agree with what is settled as they agree with what it is renamed to. -/
theorem argumentsAgree_eq (seen : ∀ constructor ∈ parameter.constructors, constructor ∈ inSight)
    (settled : Settled unknowns known parameter argument) :
    argument.argumentsAgree (parameter.substitute known) =
      argument.argumentsAgree ((parameter.rename freshening.fresh).substitute renamed) := by
  have same := mirrors.get?_rename parameter seen
  cases found : known.get? parameter.constructor with
  | some type =>
      rw [substitute_of_get?_eq_some found, substitute_of_get?_eq_some (same.trans found),
        nullable_rename]
  | none =>
      rw [substitute_of_get?_eq_none found, substitute_of_get?_eq_none (same.trans found)]
      by_cases isUnknown : parameter.constructor ∈ unknowns
      · have failed : argument.isError = true :=
          (settled isUnknown).resolve_left (by rw [found]; exact Bool.false_ne_true)
        simp [argumentsAgree, failed]
      · simp [argumentsAgree, isError, freshening.fresh_eq_self _ isUnknown]

/-- A matched argument fits the parameter as it fits the renamed one. -/
theorem isSubtype_eq (seen : ∀ constructor ∈ parameter.constructors, constructor ∈ inSight)
    (matched : Matched unknowns known parameter argument) :
    argument.isSubtype (parameter.substitute known) =
      argument.isSubtype ((parameter.rename freshening.fresh).substitute renamed) := by
  have same := mirrors.get?_rename parameter seen
  cases found : known.get? parameter.constructor with
  | some type =>
      rw [substitute_of_get?_eq_some found, substitute_of_get?_eq_some (same.trans found),
        nullable_rename]
  | none =>
      rw [substitute_of_get?_eq_none found, substitute_of_get?_eq_none (same.trans found)]
      by_cases isUnknown : parameter.constructor ∈ unknowns
      · have failed : argument.isError = true :=
          (matched.outer isUnknown).resolve_left (by rw [found]; exact Bool.false_ne_true)
        simp [isSubtype, failed]
      · have stays := freshening.fresh_eq_self _ isUnknown
        simp only [constructor_rename, arguments_rename, nullable_rename, stays]
        refine isSubtype_congr rfl rfl (by simp) fun sound sameConstructor => ?_
        have settled := matched.inner sound isUnknown sameConstructor
        rw [Bool.eq_iff_iff, List.map_map, List.zip_map_right, List.zip_map_right, List.all_map,
          List.all_map, List.all_eq_true, List.all_eq_true]
        refine forall₂_congr fun pair isPair => ?_
        have seenInner : ∀ constructor ∈ pair.2.constructors, constructor ∈ inSight :=
          fun constructor occurs =>
            seen constructor (mem_constructors_of_argument (List.of_mem_zip isPair).2 occurs)
        exact Bool.eq_iff_iff.mp (mirrors.argumentsAgree_eq seenInner (settled pair isPair))

/-- A matched argument has the constructor of the parameter where it has that of the renamed
one. -/
theorem constructor_eq_iff (proper : ∀ unknown ∈ unknowns, unknown.kind = .typeParameter)
    (seen : ∀ constructor ∈ parameter.constructors, constructor ∈ inSight)
    (matched : Matched unknowns known parameter argument) :
    argument.constructor = (parameter.substitute known).constructor ↔ argument.constructor =
      ((parameter.rename freshening.fresh).substitute renamed).constructor := by
  have same := mirrors.get?_rename parameter seen
  cases found : known.get? parameter.constructor with
  | some type =>
      rw [substitute_of_get?_eq_some found, substitute_of_get?_eq_some (same.trans found)]
      exact Iff.rfl
  | none =>
      rw [substitute_of_get?_eq_none found, substitute_of_get?_eq_none (same.trans found),
        constructor_rename]
      by_cases isUnknown : parameter.constructor ∈ unknowns
      · have failed : argument.isError = true :=
          (matched.outer isUnknown).resolve_left (by rw [found]; exact Bool.false_ne_true)
        have isErrorKind : argument.constructor.kind = .error := of_decide_eq_true failed
        have apart {constructor : TypeConstructor}
            (isParameter : constructor.kind = .typeParameter) :
            argument.constructor ≠ constructor := by
          rintro same
          rw [same, isParameter] at isErrorKind
          cases isErrorKind
        have isParameter := proper _ isUnknown
        exact iff_of_false (apart isParameter)
          (apart ((freshening.kind_fresh _ isUnknown).trans isParameter))
      · rw [freshening.fresh_eq_self _ isUnknown]

end Mirrors

end Freshening

end Gloss
