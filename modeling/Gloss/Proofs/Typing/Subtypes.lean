import Gloss.Typing.Library
import Mathlib.Data.List.Forall2

/-!
# Subtypes

Every type is a subtype of itself, the bottom type lies below all types, and the top type that
may be null above all of them.  Since error types go with every type, two subtype checks in a
row need not come to a third one: that is so exactly for types in the middle that are no errors
and have none among the arguments that the checks look at.
-/

namespace Gloss

/-- A check that goes through two lists side by side, as far as both go. -/
theorem forall₂_iff_all_zip {α β : Type} {check : α → β → Bool} {left : List α}
    {right : List β} :
    List.Forall₂ (fun first second => check first second = true) left right ↔
      left.length = right.length ∧
        ((left.zip right).all fun pair => check pair.1 pair.2) = true := by
  rw [List.forall₂_iff_zip, List.all_eq_true]
  exact and_congr_right fun _ => ⟨fun all _ isPair => all isPair,
    fun all _ _ isPair => all _ isPair⟩

namespace NominalType

variable {first middle last sub super : NominalType} {nullable : Bool}

@[simp] theorem constructor_withNullable (type : NominalType) (nullable : Bool) :
    (type.withNullable nullable).constructor = type.constructor := rfl

@[simp] theorem arguments_withNullable (type : NominalType) (nullable : Bool) :
    (type.withNullable nullable).arguments = type.arguments := rfl

@[simp] theorem nullable_withNullable (type : NominalType) (nullable : Bool) :
    (type.withNullable nullable).nullable = nullable := rfl

@[simp] theorem isError_withNullable (type : NominalType) (nullable : Bool) :
    (type.withNullable nullable).isError = type.isError := rfl

/-! ### Arguments -/

theorem argumentsAgree_eq_true_iff :
    argumentsAgree first last = true ↔
      first.constructor = last.constructor ∨ first.isError = true ∨ last.isError = true := by
  simp [argumentsAgree, or_assoc]

theorem argumentsAgree_self (type : NominalType) : argumentsAgree type type = true := by
  simp [argumentsAgree]

theorem argumentsAgree_comm (first second : NominalType) :
    argumentsAgree first second = argumentsAgree second first := by
  unfold argumentsAgree
  rw [Bool.or_assoc, Bool.or_assoc, Bool.or_comm first.isError]
  congr 1
  exact decide_eq_decide.mpr eq_comm

theorem argumentsAgree_trans (agree : argumentsAgree first middle = true)
    (agreeLater : argumentsAgree middle last = true) (sound : middle.isError = false) :
    argumentsAgree first last = true := by
  rw [argumentsAgree_eq_true_iff, sound] at agree agreeLater
  rw [argumentsAgree_eq_true_iff]
  rcases agree with same | failed | failed
  · rcases agreeLater with same' | failed | failed
    · exact .inl (same.trans same')
    · cases failed
    · exact .inr (.inr failed)
  · exact .inr (.inl failed)
  · cases failed

/-- The arguments of two types agree, one by one. -/
def ArgumentsAgree (first second : NominalType) : Prop :=
  List.Forall₂ (fun argument other => argumentsAgree argument other = true) first.arguments
    second.arguments

theorem ArgumentsAgree.refl (type : NominalType) : ArgumentsAgree type type :=
  List.forall₂_same.mpr fun argument _ => argumentsAgree_self argument

theorem ArgumentsAgree.symm (agree : ArgumentsAgree first last) : ArgumentsAgree last first := by
  refine List.Forall₂.flip (agree.imp fun argument other agrees => ?_)
  rwa [flip, argumentsAgree_comm]

theorem ArgumentsAgree.trans (agree : ArgumentsAgree first middle)
    (agreeLater : ArgumentsAgree middle last)
    (sound : ∀ argument ∈ middle.arguments, argument.isError = false) :
    ArgumentsAgree first last := by
  obtain ⟨_, arguments, _⟩ := first
  obtain ⟨_, between, _⟩ := middle
  obtain ⟨_, rest, _⟩ := last
  simp only [ArgumentsAgree] at agree agreeLater sound ⊢
  induction agree generalizing rest with
  | nil => exact agreeLater
  | cons agrees _ ih =>
      cases agreeLater with
      | cons agreesLater restAgrees =>
          obtain ⟨soundFirst, soundRest⟩ := List.forall_mem_cons.mp sound
          exact .cons (argumentsAgree_trans agrees agreesLater soundFirst)
            (ih soundRest _ restAgrees)

theorem argumentsAgree_iff (first second : NominalType) :
    ArgumentsAgree first second ↔
      first.arguments.length = second.arguments.length ∧
        ((first.arguments.zip second.arguments).all fun pair =>
          argumentsAgree pair.1 pair.2) = true :=
  forall₂_iff_all_zip

/-! ### Subtypes -/

/-- What makes a type a subtype of another one, as long as neither is an error, and apart from
null. -/
def Below (sub super : NominalType) : Prop :=
  sub.constructor.isBottom = true ∨ super.constructor.isTop = true ∨
    sub.constructor = super.constructor ∧ ArgumentsAgree sub super

theorem Below.refl (type : NominalType) : type.Below type := .inr (.inr ⟨rfl, .refl type⟩)

theorem isSubtype_iff :
    sub.isSubtype super = true ↔ sub.isError = true ∨ super.isError = true ∨
      (sub.nullable = true → super.nullable = true) ∧ sub.Below super := by
  rw [Below, argumentsAgree_iff, isSubtype]
  grind

/-- Error types go with every type. -/
theorem isSubtype_of_isError (failed : sub.isError = true ∨ super.isError = true) :
    sub.isSubtype super = true :=
  isSubtype_iff.mpr (or_assoc.mp (.inl failed))

theorem isSubtype_withNullable_iff (subSound : sub.isError = false)
    (superSound : super.isError = false) :
    sub.isSubtype (super.withNullable nullable) = true ↔
      (sub.nullable = true → nullable = true) ∧ sub.Below super := by
  rw [isSubtype_iff, isError_withNullable, subSound, superSound]
  simp only [Bool.false_eq_true, false_or]
  rfl

/-- This much is enough even where one of the types is an error. -/
theorem Below.isSubtype (below : sub.Below super)
    (kept : sub.nullable = true → super.nullable = true) : sub.isSubtype super = true :=
  isSubtype_iff.mpr (.inr (.inr ⟨kept, below⟩))

/-! ### From one check to the next -/

theorem Below.trans (below : sub.Below middle) (above : middle.Below super)
    (apart : middle.constructor.isTop = true → middle.constructor.isBottom = false)
    (sound : middle.constructor.isTop = true ∨ middle.constructor.isBottom = true ∨
      ∀ argument ∈ middle.arguments, argument.isError = false) : sub.Below super := by
  rcases below with bottom | top | ⟨same, agree⟩
  · exact .inl bottom
  · rcases above with bottom | isTop | ⟨same, -⟩
    · -- no class is the top and the bottom at once
      rw [apart top] at bottom
      cases bottom
    · exact .inr (.inl isTop)
    · exact .inr (.inl (same ▸ top))
  · rcases above with bottom | top | ⟨sameLater, agreeLater⟩
    · exact .inl (same ▸ bottom)
    · exact .inr (.inl top)
    · rcases sound with top | bottom | sound
      · exact .inr (.inl (sameLater ▸ top))
      · exact .inl (same ▸ bottom)
      · exact .inr (.inr ⟨same.trans sameLater, agree.trans agreeLater sound⟩)

/-- What is a subtype of the type is a subtype of whatever the type is a subtype of. -/
def Mediates (middle : NominalType) : Prop :=
  ∀ sub super : NominalType, sub.isSubtype middle = true → middle.isSubtype super = true →
    sub.isSubtype super = true

/-- The type is no error, and has none among the arguments that subtype checks look at: those
of the top type and of the bottom type do not matter. -/
def IsFirm (type : NominalType) : Prop :=
  type.isError = false ∧ (type.constructor.isTop = true ∨ type.constructor.isBottom = true ∨
    ∀ argument ∈ type.arguments, argument.isError = false)

theorem IsFirm.mediates (firm : middle.IsFirm)
    (apart : middle.constructor.isTop = true → middle.constructor.isBottom = false) :
    middle.Mediates := by
  intro sub super below above
  obtain ⟨sound, arguments⟩ := firm
  rw [isSubtype_iff, sound] at below above
  rw [isSubtype_iff]
  rcases below with failed | failed | ⟨kept, below⟩
  · exact .inl failed
  · cases failed
  · rcases above with failed | failed | ⟨keptLater, above⟩
    · cases failed
    · exact .inr (.inl failed)
    · exact .inr (.inr ⟨keptLater ∘ kept, below.trans above apart arguments⟩)

theorem Mediates.isError_eq_false (mediates : middle.Mediates) : middle.isError = false := by
  by_contra failed
  rw [Bool.not_eq_false] at failed
  have below : Library.int.isSubtype Library.string = true :=
    mediates _ _ (isSubtype_of_isError (.inr failed)) (isSubtype_of_isError (.inl failed))
  exact absurd below (by decide)

/-- The type with another one in the place of the arguments that are errors. -/
def patched (filler type : NominalType) : NominalType :=
  { type with
    arguments := type.arguments.map fun argument => if argument.isError then filler else argument }

theorem argumentsAgree_patched (filler type : NominalType) :
    ArgumentsAgree (patched filler type) type := by
  refine List.forall₂_map_left_iff.mpr (List.forall₂_same.mpr fun argument _ => ?_)
  split
  · next failed => exact argumentsAgree_eq_true_iff.mpr (.inr (.inr failed))
  · exact argumentsAgree_self argument

theorem patched_isSubtype (filler type : NominalType) :
    (patched filler type).isSubtype type = true :=
  Below.isSubtype (.inr (.inr ⟨rfl, argumentsAgree_patched filler type⟩)) id

theorem isSubtype_patched (filler type : NominalType) :
    type.isSubtype (patched filler type) = true :=
  Below.isSubtype (.inr (.inr ⟨rfl, (argumentsAgree_patched filler type).symm⟩)) id

/-- Patches that do not go with each other show where an argument is an error. -/
theorem isError_eq_false_of_patched {type argument : NominalType}
    (agree : ArgumentsAgree (patched first type) (patched last type))
    (differ : argumentsAgree first last = false) (isArgument : argument ∈ type.arguments) :
    argument.isError = false := by
  simp only [ArgumentsAgree, patched, List.forall₂_map_left_iff, List.forall₂_map_right_iff,
    List.forall₂_same] at agree
  cases failed : argument.isError with
  | false => rfl
  | true =>
      have agrees := agree argument isArgument
      simp only [failed, if_true, differ] at agrees
      cases agrees

/-- An argument that is an error goes with any two types, whether or not these go with each
other. -/
theorem Mediates.arguments (mediates : middle.Mediates)
    (notTop : middle.constructor.isTop = false) (notBottom : middle.constructor.isBottom = false) :
    ∀ argument ∈ middle.arguments, argument.isError = false := by
  have sound := Bool.eq_false_iff.mp mediates.isError_eq_false
  have through : (patched Library.int middle).isSubtype (patched Library.string middle) = true :=
    mediates _ _ (patched_isSubtype _ _) (isSubtype_patched _ _)
  rcases isSubtype_iff.mp through with failed | failed | ⟨-, bottom | top | ⟨-, agree⟩⟩
  · exact absurd failed sound
  · exact absurd failed sound
  · exact absurd bottom (Bool.eq_false_iff.mp notBottom)
  · exact absurd top (Bool.eq_false_iff.mp notTop)
  · exact fun argument isArgument => isError_eq_false_of_patched agree (by decide) isArgument

theorem Mediates.isFirm (mediates : middle.Mediates) : middle.IsFirm := by
  refine ⟨mediates.isError_eq_false, ?_⟩
  cases top : middle.constructor.isTop with
  | true => exact .inl rfl
  | false =>
      cases bottom : middle.constructor.isBottom with
      | true => exact .inr (.inl rfl)
      | false => exact .inr (.inr (mediates.arguments top bottom))

/-! ### The order of types -/

theorem isSubtype_refl (type : NominalType) : type.isSubtype type = true :=
  (Below.refl type).isSubtype id

theorem nothing_isSubtype (super : NominalType) : Library.nothing.isSubtype super = true :=
  Below.isSubtype (.inl rfl) nofun

theorem isSubtype_any (sub : NominalType) :
    sub.isSubtype (Library.any.withNullable true) = true :=
  Below.isSubtype (.inr (.inl rfl)) fun _ => rfl

/-- Subtyping is a preorder between the bottom type and the top type that may be null, as long
as neither the type in the middle nor an argument of it is an error.  Conversely, a type through
which all conclusions hold has no error in what the checks look at. -/
theorem isSubtype_preorder :
    (∀ type : NominalType, type.isSubtype type = true ∧ Library.nothing.isSubtype type = true ∧
        type.isSubtype (Library.any.withNullable true) = true) ∧
      (∀ sub middle super : NominalType,
        (middle.constructor.isTop = true → middle.constructor.isBottom = false) →
          middle.isError = false → (∀ argument ∈ middle.arguments, argument.isError = false) →
            sub.isSubtype middle = true → middle.isSubtype super = true →
              sub.isSubtype super = true) ∧
        ∀ middle : NominalType, middle.Mediates → middle.IsFirm := by
  refine ⟨fun type => ?_, ?_, fun middle mediates => mediates.isFirm⟩
  · exact ⟨isSubtype_refl type, nothing_isSubtype type, isSubtype_any type⟩
  · intro sub middle super apart sound arguments below above
    have firm : middle.IsFirm := ⟨sound, .inr (.inr arguments)⟩
    exact firm.mediates apart sub super below above

/-- Errors at the ends do no harm. -/
theorem isSubtype_preorder_list_of_errors :
    (Library.list .error).isSubtype (Library.list Library.int) = true ∧
      (Library.list Library.int).isSubtype ((Library.list Library.int).withNullable true) = true ∧
        (Library.list .error).isSubtype ((Library.list Library.int).withNullable true) = true := by
  obtain ⟨-, mediates, -⟩ := isSubtype_preorder
  have below : (Library.list .error).isSubtype (Library.list Library.int) = true := by decide
  have above :
      (Library.list Library.int).isSubtype ((Library.list Library.int).withNullable true) =
        true := by
    decide
  exact ⟨below, above,
    mediates _ _ _ (by decide) (by decide) (by decide) below above⟩

end NominalType

end Gloss
