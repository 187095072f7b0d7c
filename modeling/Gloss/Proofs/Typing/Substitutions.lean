import Gloss.Proofs.Table
import Gloss.Proofs.Typing.Subtypes
import Gloss.Resolution.Inference

/-!
# Substitutions

Two substitutions, one after the other, come to a single one.  So a call compares its arguments
with what the parameter types come to under one substitution, which puts in what the type
parameters of the receiver stand for and what was inferred for those of the called function.
-/

namespace Gloss

namespace NominalType

variable {substitution other : Substitution} {replacement : NominalType}

/-- What holds of a type as soon as it holds of its arguments holds of all types. -/
@[elab_as_elim]
theorem induct {motive : NominalType → Prop}
    (step : ∀ type : NominalType, (∀ argument ∈ type.arguments, motive argument) → motive type)
    (type : NominalType) : motive type :=
  step type fun argument _ => induct step argument
termination_by sizeOf type
decreasing_by
  obtain ⟨constructor, arguments, nullable⟩ := type
  have smaller : sizeOf argument < sizeOf arguments := List.sizeOf_lt_of_mem ‹_›
  simp only [NominalType.mk.sizeOf_spec]
  omega

/-! ### One substitution -/

theorem substituteAll_eq_map (substitution : Substitution) (types : List NominalType) :
    substituteAll substitution types = types.map (substitute substitution) := by
  induction types with
  | nil => rfl
  | cons type rest ih => rw [substituteAll, ih, List.map_cons]

theorem substitute_of_get?_eq_some {type : NominalType}
    (found : substitution.get? type.constructor = some replacement) :
    type.substitute substitution =
      replacement.withNullable (replacement.nullable || type.nullable) := by
  obtain ⟨constructor, arguments, nullable⟩ := type
  simp only [substitute, found]

theorem substitute_of_get?_eq_none {type : NominalType}
    (notFound : substitution.get? type.constructor = none) :
    type.substitute substitution =
      { type with arguments := type.arguments.map (substitute substitution) } := by
  obtain ⟨constructor, arguments, nullable⟩ := type
  simp only [substitute, notFound, substituteAll_eq_map]

mutual

/-- The constructors in a type, that of the type itself and those of its arguments. -/
def constructors : NominalType → List TypeConstructor
  | ⟨constructor, arguments, _⟩ => constructor :: constructorsOfAll arguments

def constructorsOfAll : List NominalType → List TypeConstructor
  | [] => []
  | type :: rest => constructors type ++ constructorsOfAll rest

end

theorem constructorsOfAll_eq_flatMap (types : List NominalType) :
    constructorsOfAll types = types.flatMap constructors := by
  induction types with
  | nil => rfl
  | cons type rest ih => rw [constructorsOfAll, ih, List.flatMap_cons]

theorem constructor_mem_constructors (type : NominalType) :
    type.constructor ∈ type.constructors := by
  obtain ⟨constructor, arguments, nullable⟩ := type
  exact List.mem_cons_self

theorem mem_constructors_of_argument {type argument : NominalType}
    (isArgument : argument ∈ type.arguments) {constructor : TypeConstructor}
    (occurs : constructor ∈ argument.constructors) : constructor ∈ type.constructors := by
  obtain ⟨_, arguments, _⟩ := type
  rw [constructors, constructorsOfAll_eq_flatMap]
  exact List.mem_cons_of_mem _ (List.mem_flatMap.mpr ⟨argument, isArgument, occurs⟩)

/-- Only what a substitution does to the constructors in a type matters. -/
theorem substitute_congr (type : NominalType)
    (agree : ∀ constructor ∈ type.constructors,
      substitution.get? constructor = other.get? constructor) :
    type.substitute substitution = type.substitute other := by
  induction type using induct with
  | step type ih =>
      have same := agree _ type.constructor_mem_constructors
      cases found : substitution.get? type.constructor with
      | some replacement =>
          rw [substitute_of_get?_eq_some found, substitute_of_get?_eq_some (same ▸ found)]
      | none =>
          rw [substitute_of_get?_eq_none found, substitute_of_get?_eq_none (same ▸ found)]
          congr 1
          refine List.map_congr_left fun argument isArgument => ih argument isArgument ?_
          exact fun constructor occurs =>
            agree constructor (mem_constructors_of_argument isArgument occurs)

/-! ### One after the other -/

/-- That an occurrence may be null can be taken into account before or after a substitution. -/
theorem substitute_withNullable_or (type : NominalType) (nullable : Bool) :
    (type.withNullable (type.nullable || nullable)).substitute substitution =
      (type.substitute substitution).withNullable
        ((type.substitute substitution).nullable || nullable) := by
  cases found : substitution.get? type.constructor with
  | some replacement =>
      rw [substitute_of_get?_eq_some found, substitute_of_get?_eq_some (by exact found)]
      simp [withNullable, Bool.or_assoc]
  | none =>
      rw [substitute_of_get?_eq_none found, substitute_of_get?_eq_none (by exact found)]
      rfl

end NominalType

namespace Substitution

open NominalType

/-- The substitution that does in one step what two of them do one after the other. -/
def followedBy (first second : Substitution) : Substitution :=
  ⟨first.entries.map (fun entry => (entry.1, entry.2.substitute second)) ++
    second.entries.filter fun entry => (first.get? entry.1).isNone⟩

theorem get?_followedBy (first second : Substitution) (constructor : TypeConstructor) :
    (first.followedBy second).get? constructor =
      ((first.get? constructor).map (substitute second)).or (second.get? constructor) := by
  rw [Table.get?, followedBy, Table.lookupIn_append, Table.lookupIn_map,
    Table.lookupIn_filter _ _ fun key => (first.get? key).isNone]
  change ((first.get? constructor).map (substitute second)).or
    (if (first.get? constructor).isNone then second.get? constructor else none) = _
  cases first.get? constructor <;> rfl

end Substitution

namespace NominalType

/-- By induction on the type.  What is put in for a type parameter is gone through again by the
second substitution, while arguments that are dropped in between are not missed. -/
theorem substitute_substitute (type : NominalType) (first second : Substitution) :
    (type.substitute first).substitute second = type.substitute (first.followedBy second) := by
  induction type using induct with
  | step type ih =>
      have both := first.get?_followedBy second type.constructor
      cases inFirst : first.get? type.constructor with
      | some replacement =>
          rw [inFirst] at both
          rw [substitute_of_get?_eq_some inFirst, substitute_withNullable_or,
            substitute_of_get?_eq_some both]
      | none =>
          rw [inFirst] at both
          rw [substitute_of_get?_eq_none inFirst]
          cases inSecond : second.get? type.constructor with
          | some replacement =>
              rw [inSecond] at both
              rw [substitute_of_get?_eq_some (by exact inSecond), substitute_of_get?_eq_some both]
          | none =>
              rw [inSecond] at both
              rw [substitute_of_get?_eq_none (by exact inSecond), substitute_of_get?_eq_none both,
                List.map_map]
              congr 1
              exact List.map_congr_left fun argument isArgument => ih argument isArgument

end NominalType

/-! ### Calls -/

namespace Substitution

open NominalType

/-- Arguments fit parameter types, one by one, once the substitution is made in these. -/
def Fits (substitution : Substitution) (arguments parameters : List NominalType) : Prop :=
  List.Forall₂ (fun argument parameter : NominalType => argument.isSubtype parameter = true)
    arguments (parameters.map (substitute substitution))

variable {first second substitution : Substitution} {arguments parameters : List NominalType}

theorem fits_iff : substitution.Fits arguments parameters ↔
    arguments.length = parameters.length ∧
      ((arguments.zip (parameters.map (substitute substitution))).all fun pair =>
        pair.1.isSubtype pair.2) = true := by
  rw [Fits, forall₂_iff_all_zip, List.length_map]

theorem fits_map_substitute :
    second.Fits arguments (parameters.map (substitute first)) ↔
      (first.followedBy second).Fits arguments parameters := by
  have composed : substitute second ∘ substitute first = substitute (first.followedBy second) :=
    funext fun type => substitute_substitute type first second
  rw [Fits, Fits, List.map_map, composed]

end Substitution

/-- A signature accepts the arguments that fit its parameters once its type variables are
inferred, and the type of the call is what its result then comes to. -/
theorem Signature.accept?_eq_some_iff {signature : Signature} {arguments : List NominalType}
    {type : NominalType} :
    (signature.accept? arguments).map Applicable.result = some type ↔
      (signature.inferred arguments).Fits arguments signature.parameters ∧
        signature.result.substitute (signature.inferred arguments) = type := by
  rw [Substitution.fits_iff, accept?]
  grind

namespace Resolver

variable {demand : Demand} {receiver : Substitution} {descriptor : FunctionDescriptor}
  {state : ResolutionState} {arguments : List NominalType} {type : NominalType}

/-- The parameter types of a function, and its return type, are seen through one substitution
when the function is called on a receiver. -/
theorem accept?_signature_function {seen : Signature}
    (isSignature : (signature demand receiver (.function descriptor) state).1 = seen) :
    (seen.accept? arguments).map Applicable.result = some type ↔
      (receiver.followedBy (seen.inferred arguments)).Fits arguments
          (descriptor.parameters.map ParameterDescriptor.type) ∧
        (returnType demand descriptor state).1.substitute
          (receiver.followedBy (seen.inferred arguments)) = type := by
  have parameters : seen.parameters =
      (descriptor.parameters.map ParameterDescriptor.type).map (.substitute receiver) := by
    rw [← isSignature, List.map_map]
    rfl
  have result : seen.result = (returnType demand descriptor state).1.substitute receiver := by
    rw [← isSignature]
    rfl
  rw [Signature.accept?_eq_some_iff, parameters, result, Substitution.fits_map_substitute,
    NominalType.substitute_substitute]

end Resolver

/-! ### Substitutions compose -/

namespace Substitution

open NominalType

/-- Two substitutions come to a single one, which puts in what the first one has put in, gone
through by the second one, and else what the second one puts in; of a substitution only what it
does to constructors in the type matters.  In particular a call of a function compares its
arguments with the parameter types under one substitution, composed of what the type parameters
of the receiver stand for and of what is inferred for those of the function, and has the return
type under that substitution. -/
theorem composes :
    (∀ (type : NominalType) (first second : Substitution),
        (type.substitute first).substitute second = type.substitute (first.followedBy second)) ∧
      (∀ (first second : Substitution) (constructor : TypeConstructor),
        (first.followedBy second).get? constructor =
          ((first.get? constructor).map (substitute second)).or (second.get? constructor)) ∧
        (∀ (type : NominalType) (substitution other : Substitution),
          (∀ constructor ∈ type.constructors,
            substitution.get? constructor = other.get? constructor) →
              type.substitute substitution = type.substitute other) ∧
          ∀ (demand : Demand) (receiver : Substitution) (descriptor : FunctionDescriptor)
            (state : ResolutionState) (seen : Signature) (arguments : List NominalType)
            (type : NominalType),
            (Resolver.signature demand receiver (.function descriptor) state).1 = seen →
              ((seen.accept? arguments).map Applicable.result = some type ↔
                (receiver.followedBy (seen.inferred arguments)).Fits arguments
                    (descriptor.parameters.map ParameterDescriptor.type) ∧
                  (Resolver.returnType demand descriptor state).1.substitute
                    (receiver.followedBy (seen.inferred arguments)) = type) := by
  refine ⟨substitute_substitute, get?_followedBy, fun type _ _ => substitute_congr type, ?_⟩
  intro demand receiver descriptor state seen arguments type isSignature
  exact Resolver.accept?_signature_function isSignature

/-- Lists of what a list may hold, and a generic member called on a list of numbers. -/
theorem composes_generic_member :
    ((Library.list { constructor := Library.listParameter.constructor }).substitute
        (.ofList [(Library.listParameter.constructor, (Library.list
          { constructor := (Library.typeParameter "pair" none "T").constructor }).withNullable
            true)])).substitute
          (.ofList [((Library.typeParameter "pair" none "T").constructor, Library.int),
            (Library.listParameter.constructor, Library.string)]) =
        Library.list ((Library.list Library.int).withNullable true) ∧
      Library.string.substitute (.ofList [(Library.listParameter.constructor, Library.int)]) =
        Library.string.substitute .empty ∧
        ((Resolver.signature (fun _ => pure .error)
            (.ofList [(Library.listParameter.constructor, Library.int)])
            (.function { Library.genericFunction "pair" "second" Library.list with
              parameters := Library.parametersOf
                [("first", { constructor := Library.listParameter.constructor }),
                  ("second",
                    { constructor := (Library.typeParameter "pair" none "T").constructor })] })
            .initial).1.accept? [Library.int, Library.string]).map Applicable.result =
          some (Library.list Library.string) := by
  obtain ⟨once, -, congr, calls⟩ := composes
  refine ⟨?_, congr _ _ _ (by decide), (calls _ _ _ _ _ _ _ rfl).mpr ⟨?_, by decide⟩⟩
  · rw [once]
    decide
  · exact fits_iff.mpr (by decide)

end Substitution

end Gloss

/-!
### Instances of generic types

What type parameters stand for may be put in on both sides of a subtype check.  The one thing
that matters is null: a type parameter that is not marked as nullable lies below the top type,
so what it stands for has to lie there too.
-/

namespace Gloss

/-- The constructor plays a part of its own in subtyping; that of a type parameter does not. -/
def TypeConstructor.IsSpecial (constructor : TypeConstructor) : Prop :=
  constructor.kind = .error ∨ constructor.isTop = true ∨ constructor.isBottom = true

instance (constructor : TypeConstructor) : Decidable constructor.IsSpecial :=
  inferInstanceAs (Decidable (_ ∨ _ ∨ _))

namespace Substitution

/-- What is replaced plays no part of its own in subtyping. -/
def IsProper (substitution : Substitution) : Prop :=
  ∀ key ∈ substitution.keys, ¬ key.IsSpecial

/-- What is put in cannot be null, unless it is an error. -/
def IsStrict (substitution : Substitution) : Prop :=
  ∀ key replacement, substitution.get? key = some replacement →
    replacement.isError = true ∨ replacement.nullable = false

variable {substitution : Substitution} {constructor : TypeConstructor}

theorem IsProper.get?_eq_none (proper : substitution.IsProper) (special : constructor.IsSpecial) :
    substitution.get? constructor = none :=
  Table.get?_eq_none_iff.mpr fun isKey => proper constructor isKey special

end Substitution

namespace NominalType

open Substitution

variable {substitution : Substitution} {first second type sub super : NominalType}

theorem constructor_substitute_of_isSpecial (proper : substitution.IsProper)
    (special : type.constructor.IsSpecial) :
    (type.substitute substitution).constructor = type.constructor := by
  rw [substitute_of_get?_eq_none (proper.get?_eq_none special)]

theorem constructor_substitute_congr (same : first.constructor = second.constructor) :
    (first.substitute substitution).constructor =
      (second.substitute substitution).constructor := by
  cases found : substitution.get? first.constructor with
  | some replacement =>
      rw [substitute_of_get?_eq_some found, substitute_of_get?_eq_some (same ▸ found)]
      rfl
  | none =>
      rw [substitute_of_get?_eq_none found, substitute_of_get?_eq_none (same ▸ found)]
      exact same

theorem isError_substitute (proper : substitution.IsProper) (failed : type.isError = true) :
    (type.substitute substitution).isError = true := by
  have special : type.constructor.IsSpecial := .inl (of_decide_eq_true failed)
  rw [isError, constructor_substitute_of_isSpecial proper special]
  exact failed

theorem nullable_substitute (strict : substitution.IsStrict) (type : NominalType) :
    (type.substitute substitution).isError = true ∨
      (type.substitute substitution).nullable = type.nullable := by
  cases found : substitution.get? type.constructor with
  | some replacement =>
      rw [substitute_of_get?_eq_some found]
      rcases strict _ _ found with failed | notNull
      · exact .inl failed
      · exact .inr (by rw [nullable_withNullable, notNull, Bool.false_or])
  | none =>
      rw [substitute_of_get?_eq_none found]
      exact .inr rfl

theorem argumentsAgree_substitute (proper : substitution.IsProper)
    (agree : argumentsAgree first second = true) :
    argumentsAgree (first.substitute substitution) (second.substitute substitution) = true := by
  rw [argumentsAgree_eq_true_iff] at agree ⊢
  rcases agree with same | failed | failed
  · exact .inl (constructor_substitute_congr same)
  · exact .inr (.inl (isError_substitute proper failed))
  · exact .inr (.inr (isError_substitute proper failed))

/-- A type parameter gives way to one type on both sides, and the classes at the ends stay. -/
theorem Below.substitute (proper : substitution.IsProper) (below : sub.Below super) :
    (sub.substitute substitution).Below (super.substitute substitution) := by
  rcases below with bottom | top | ⟨same, agree⟩
  · exact .inl (by rwa [constructor_substitute_of_isSpecial proper (.inr (.inr bottom))])
  · exact .inr (.inl (by rwa [constructor_substitute_of_isSpecial proper (.inr (.inl top))]))
  · refine .inr (.inr ⟨constructor_substitute_congr same, ?_⟩)
    cases found : substitution.get? sub.constructor with
    | some replacement =>
        rw [substitute_of_get?_eq_some found, substitute_of_get?_eq_some (same ▸ found)]
        exact ArgumentsAgree.refl replacement
    | none =>
        rw [substitute_of_get?_eq_none found, substitute_of_get?_eq_none (same ▸ found)]
        refine List.forall₂_map_left_iff.mpr (List.forall₂_map_right_iff.mpr ?_)
        exact agree.imp fun _ _ agrees => argumentsAgree_substitute proper agrees

theorem isSubtype_substitute (proper : substitution.IsProper) (strict : substitution.IsStrict)
    (below : sub.isSubtype super = true) :
    (sub.substitute substitution).isSubtype (super.substitute substitution) = true := by
  rcases isSubtype_iff.mp below with failed | failed | ⟨kept, below⟩
  · exact isSubtype_of_isError (.inl (isError_substitute proper failed))
  · exact isSubtype_of_isError (.inr (isError_substitute proper failed))
  · rcases nullable_substitute strict sub with failed | subNull
    · exact isSubtype_of_isError (.inl failed)
    · rcases nullable_substitute strict super with failed | superNull
      · exact isSubtype_of_isError (.inr failed)
      · refine (below.substitute proper).isSubtype ?_
        rwa [subNull, superNull]

/-- What is replaced lies below the top type, so what is put in for it has to lie there too. -/
theorem isStrict_of_isSubtype_substitute (proper : substitution.IsProper)
    (preserved : ∀ sub super : NominalType, sub.isSubtype super = true →
      (sub.substitute substitution).isSubtype (super.substitute substitution) = true) :
    substitution.IsStrict := by
  intro key replacement found
  have top : Library.any.substitute substitution = Library.any :=
    substitute_of_get?_eq_none (proper.get?_eq_none (.inr (.inl rfl)))
  have below : ({ constructor := key } : NominalType).isSubtype Library.any = true :=
    Below.isSubtype (.inr (.inl rfl)) nofun
  have hence := preserved _ _ below
  rw [top, substitute_of_get?_eq_some found, Bool.or_false] at hence
  rcases isSubtype_iff.mp hence with failed | failed | ⟨kept, -⟩
  · exact .inl failed
  · cases failed
  · exact .inr (Bool.eq_false_iff.mpr fun null => Bool.false_ne_true (kept null))

/-- A substitution of type parameters preserves subtyping just when none of the types that it
puts in may be null, errors apart. -/
theorem isSubtype_substitute_iff (proper : substitution.IsProper) :
    substitution.IsStrict ↔ ∀ sub super : NominalType, sub.isSubtype super = true →
      (sub.substitute substitution).isSubtype (super.substitute substitution) = true := by
  constructor
  · intro strict sub super below
    exact isSubtype_substitute proper strict below
  · intro preserved
    exact isStrict_of_isSubtype_substitute proper preserved

/-- Numbers can be put in for the elements of lists, but not what may be a number or null. -/
theorem isSubtype_substitute_iff_elements :
    (∀ sub super : NominalType, sub.isSubtype super = true →
        (sub.substitute (.ofList [(Library.listParameter.constructor, Library.int)])).isSubtype
          (super.substitute (.ofList [(Library.listParameter.constructor, Library.int)])) =
            true) ∧
      ¬ ∀ sub super : NominalType, sub.isSubtype super = true →
        (sub.substitute (.ofList
          [(Library.listParameter.constructor, Library.int.withNullable true)])).isSubtype
            (super.substitute (.ofList
              [(Library.listParameter.constructor, Library.int.withNullable true)])) = true := by
  have plain : ¬ Library.listParameter.constructor.IsSpecial := by decide
  have proper (replacement : NominalType) :
      IsProper (.ofList [(Library.listParameter.constructor, replacement)]) :=
    fun key isKey => List.mem_singleton.mp isKey ▸ plain
  have strict : IsStrict (.ofList [(Library.listParameter.constructor, Library.int)]) := by
    intro key replacement found
    cases List.mem_singleton.mp (Table.mem_of_lookupIn found)
    exact .inr rfl
  refine ⟨(isSubtype_substitute_iff (proper _)).mp strict, fun preserved => ?_⟩
  have strictOrNull := (isSubtype_substitute_iff (proper _)).mpr preserved
  exact absurd (strictOrNull Library.listParameter.constructor _ rfl) (by decide)

end NominalType

/-! ### Calls in generic code -/

/-- What fits in generic code still fits when types that cannot be null are put in for the type
parameters around it. -/
theorem Substitution.Fits.substitute {first second : Substitution}
    {arguments parameters : List NominalType} (proper : second.IsProper)
    (strict : second.IsStrict) (fits : first.Fits arguments parameters) :
    (first.followedBy second).Fits (arguments.map (NominalType.substitute second)) parameters := by
  rw [← fits_map_substitute]
  refine List.forall₂_map_left_iff.mpr (List.forall₂_map_right_iff.mpr ?_)
  exact fits.imp fun _ _ below => NominalType.isSubtype_substitute proper strict below

end Gloss
