import Gloss.Proofs.Resolution.Calls
import Gloss.Proofs.Typing.Matching
import Gloss.Resolution.State

/-!
# What types may mention

The types at a place in a file may mention classes, the error type, the type parameters in scope
there and those that are left open somewhere.  A type that does, and that has as many arguments
as its class has type parameters, is held by the realm of the place.  So the members of a class
can be taken over to a receiver: the receiver says what all type parameters of the class stand
for.  At a call, the type parameters that no argument decides are the only ones that remain.
-/

namespace Gloss

open NominalType

/-- The places of a file where the same type parameters are in scope. -/
structure Realm where
  base : ResolutionState
  parameters : List TypeConstructor
  leftOpen : TypeConstructor → Prop

namespace Realm

/-- The realm with other type parameters in scope. -/
def within (realm : Realm) (parameters : List TypeConstructor) : Realm :=
  { realm with parameters }

/-- The realm with some more type parameters in scope. -/
def declaring (realm : Realm) (typeParameters : List TypeParameterDescriptor) : Realm :=
  realm.within (typeParameters.map TypeParameterDescriptor.constructor ++ realm.parameters)

/-- Types may mention a constructor. -/
def Allows (realm : Realm) (constructor : TypeConstructor) : Prop :=
  constructor.kind = .class ∨ constructor = .error ∨ constructor ∈ realm.parameters ∨
    realm.leftOpen constructor

/-- A number of arguments is right for a constructor. -/
def Admits (realm : Realm) (constructor : TypeConstructor) (count : Nat) : Prop :=
  ∀ entry, realm.base.class? constructor = some entry →
    count = entry.descriptor.typeParameters.length

/-- A type mentions nothing that is not allowed, and has the right number of arguments
everywhere. -/
inductive Holds (realm : Realm) : NominalType → Prop
  | intro {type : NominalType} (allows : realm.Allows type.constructor)
      (admits : realm.Admits type.constructor type.arguments.length)
      (arguments : ∀ argument ∈ type.arguments, Holds realm argument) : Holds realm type

variable {realm : Realm} {type result : NominalType} {substitution : Substitution}
  {constructor : TypeConstructor} {parameters : List TypeConstructor}
  {typeParameters : List TypeParameterDescriptor}

theorem Holds.allows (holds : realm.Holds type) : realm.Allows type.constructor := by
  cases holds with
  | intro allows => exact allows

theorem Holds.admits (holds : realm.Holds type) :
    realm.Admits type.constructor type.arguments.length := by
  cases holds with
  | intro _ admits => exact admits

theorem Holds.arguments (holds : realm.Holds type) :
    ∀ argument ∈ type.arguments, realm.Holds argument := by
  cases holds with
  | intro _ _ arguments => exact arguments

/-- Nothing that a held type mentions at any depth is forbidden. -/
theorem Holds.allows_of_mem (holds : realm.Holds type) :
    ∀ constructor ∈ type.constructors, realm.Allows constructor := by
  induction holds with
  | @intro type allows _ _ ih =>
      rw [constructors_eq, constructorsOfAll_eq_flatMap]
      refine List.forall_mem_cons.mpr ⟨allows, fun constructor occurs => ?_⟩
      obtain ⟨argument, isArgument, occurs⟩ := List.mem_flatMap.mp occurs
      exact ih argument isArgument constructor occurs

/-- A held type is held in another realm of the file that allows what it mentions. -/
theorem Holds.of_allows (holds : (realm.within parameters).Holds type)
    (allows : ∀ constructor ∈ type.constructors, realm.Allows constructor) :
    realm.Holds type := by
  induction holds with
  | @intro type _ admits _ ih =>
      refine .intro (allows _ type.constructor_mem_constructors) admits
        fun argument isArgument => ih argument isArgument fun constructor occurs => ?_
      exact allows constructor (mem_constructors_of_argument isArgument occurs)

theorem Allows.mono (allows : realm.Allows constructor) (subset : realm.parameters ⊆ parameters) :
    (realm.within parameters).Allows constructor := by
  rcases allows with isClass | isError | inScope | isLeft
  · exact .inl isClass
  · exact .inr (.inl isError)
  · exact .inr (.inr (.inl (subset inScope)))
  · exact .inr (.inr (.inr isLeft))

theorem Holds.mono (holds : realm.Holds type) (subset : realm.parameters ⊆ parameters) :
    (realm.within parameters).Holds type := by
  have holdsBefore : ((realm.within parameters).within realm.parameters).Holds type := holds
  refine holdsBefore.of_allows fun constructor occurs => ?_
  exact (holds.allows_of_mem constructor occurs).mono subset

theorem Holds.declaring (holds : realm.Holds type)
    (typeParameters : List TypeParameterDescriptor) :
    (realm.declaring typeParameters).Holds type :=
  holds.mono (List.subset_append_right _ _)

/-- Type parameters that are left open need not be in scope. -/
theorem Holds.of_declaring (holds : (realm.declaring typeParameters).Holds type)
    (isLeft : ∀ parameter ∈ typeParameters, realm.Allows parameter.constructor) :
    realm.Holds type := by
  refine of_allows holds fun constructor occurs => ?_
  rcases holds.allows_of_mem constructor occurs with isClass | isError | inScope | isOpen
  · exact .inl isClass
  · exact .inr (.inl isError)
  · rcases List.mem_append.mp inScope with isDeclared | inScope
    · obtain ⟨parameter, isParameter, rfl⟩ := List.mem_map.mp isDeclared
      exact isLeft parameter isParameter
    · exact .inr (.inr (.inl inScope))
  · exact .inr (.inr (.inr isOpen))

/-- Any number of arguments is right where there is no class. -/
theorem admits_of_none (noClass : realm.base.class? constructor = none) (count : Nat) :
    realm.Admits constructor count := by
  intro entry found
  rw [noClass] at found
  cases found

theorem holds_error (realm : Realm) : realm.Holds .error :=
  .intro (.inr (.inl rfl)) (admits_of_none rfl _) (List.forall_mem_nil _)

theorem holds_withNullable (holds : realm.Holds type) (nullable : Bool) :
    realm.Holds (type.withNullable nullable) :=
  .intro holds.allows holds.admits holds.arguments

theorem mem_classes_of_class? {name : String} {entry : ClassEntry}
    (provided : constructor.origin = .library name)
    (found : realm.base.class? constructor = some entry) :
    entry ∈ Library.classes ∧ entry.descriptor.constructor = constructor := by
  rw [ResolutionState.class?, provided] at found
  exact ⟨List.mem_of_find?_eq_some found, by simpa using List.find?_some found⟩

/-- A class of the library without type parameters. -/
theorem holds_plainType (realm : Realm) (name : String)
    (noParameters : ∀ entry ∈ Library.classes,
      entry.descriptor.constructor = (Library.plainClass name).constructor →
        entry.descriptor.typeParameters = []) :
    realm.Holds (Library.plainType name) := by
  refine .intro (.inl rfl) (fun entry found => ?_) (List.forall_mem_nil _)
  obtain ⟨isProvided, isSame⟩ := mem_classes_of_class? rfl found
  rw [noParameters entry isProvided isSame]
  rfl

theorem holds_any (realm : Realm) : realm.Holds Library.any :=
  realm.holds_plainType _ (by decide)

theorem holds_unit (realm : Realm) : realm.Holds Library.unit :=
  realm.holds_plainType _ (by decide)

theorem holds_int (realm : Realm) : realm.Holds Library.int :=
  realm.holds_plainType _ (by decide)

theorem holds_string (realm : Realm) : realm.Holds Library.string :=
  realm.holds_plainType _ (by decide)

theorem holds_boolean (realm : Realm) : realm.Holds Library.boolean :=
  realm.holds_plainType _ (by decide)

theorem holds_nothing (realm : Realm) : realm.Holds Library.nothing :=
  realm.holds_plainType _ (by decide)

theorem holds_list (holds : realm.Holds type) : realm.Holds (Library.list type) := by
  refine .intro (.inl rfl) (fun entry found => ?_) (List.forall_mem_singleton.mpr holds)
  obtain ⟨isProvided, isSame⟩ := mem_classes_of_class? rfl found
  have oneParameter : ∀ entry ∈ Library.classes,
      entry.descriptor.constructor = Library.listClass.constructor →
        entry.descriptor.typeParameters.length = 1 := by decide
  exact (oneParameter entry isProvided isSame).symm

/-- A type parameter in scope. -/
theorem holds_parameter (realm : Realm) (noClass : realm.base.class? constructor = none)
    (inScope : constructor ∈ realm.parameters) {arguments : List NominalType}
    (holds : ∀ argument ∈ arguments, realm.Holds argument) (nullable : Bool) :
    realm.Holds { constructor, arguments, nullable } :=
  .intro (.inr (.inr (.inl inScope))) (admits_of_none noClass _) holds

theorem holds_functionType {types : List NominalType}
    (holds : ∀ type ∈ types, realm.Holds type) (holdsResult : realm.Holds result)
    (nullable : Bool) : realm.Holds (Library.functionType types result nullable) := by
  refine .intro (.inl rfl) (fun entry found => ?_)
    (List.forall_mem_append.mpr ⟨holds, List.forall_mem_singleton.mpr holdsResult⟩)
  cases found
  simp [Library.functionType, Library.functionClass]

/-- What a value of a held function type comes to. -/
theorem holds_of_functionParts? {types : List NominalType} (holds : realm.Holds type)
    (parts : Library.functionParts? type = some (types, result)) : realm.Holds result := by
  unfold Library.functionParts? at parts
  split at parts
  · next isLast =>
      cases parts
      exact holds.arguments _ (List.mem_of_getLast? isLast)
  · cases parts

theorem holds_join {first second top : NominalType} (holds : realm.Holds first)
    (holdsSecond : realm.Holds second) (holdsTop : realm.Holds top) :
    realm.Holds (first.join second top) := by
  unfold join
  simp only
  split
  · exact realm.holds_error
  · split
    · exact holds_withNullable holdsSecond _
    · split
      · exact holds_withNullable holds _
      · split
        · exact holds_withNullable holds _
        · exact holds_withNullable holdsTop _

/-! ### Substitutions -/

/-- A substitution puts in held types, and takes types over from where some type parameters are
in scope: it leaves none of them that is not allowed. -/
structure Carries (realm : Realm) (substitution : Substitution)
    (parameters : List TypeConstructor) : Prop where
  range : ∀ constructor type, substitution.get? constructor = some type → realm.Holds type
  bound : ∀ constructor ∈ parameters, substitution.get? constructor = none →
    realm.Allows constructor

theorem Carries.empty (realm : Realm) : realm.Carries .empty realm.parameters :=
  ⟨fun _ _ found => (by cases found), fun _ inScope _ => .inr (.inr (.inl inScope))⟩

/-- By induction on the type: where nothing is put in, the constructor itself is allowed. -/
theorem Carries.holds (carries : realm.Carries substitution parameters)
    (holds : (realm.within parameters).Holds type) :
    realm.Holds (type.substitute substitution) := by
  induction holds with
  | @intro type allows admits _ ih =>
      cases found : substitution.get? type.constructor with
      | some replacement =>
          rw [substitute_of_get?_eq_some found]
          exact holds_withNullable (carries.range _ _ found) _
      | none =>
          rw [substitute_of_get?_eq_none found]
          refine .intro ?_ ?_ (List.forall_mem_map.mpr ih)
          · rcases allows with isClass | isError | inScope | isLeft
            · exact .inl isClass
            · exact .inr (.inl isError)
            · exact carries.bound _ inScope found
            · exact .inr (.inr (.inr isLeft))
          · rw [List.length_map]
            exact admits

theorem Carries.declaring (carries : realm.Carries substitution parameters)
    (typeParameters : List TypeParameterDescriptor) :
    (realm.declaring typeParameters).Carries substitution
      (typeParameters.map TypeParameterDescriptor.constructor ++ parameters) where
  range constructor type found := (carries.range constructor type found).declaring _
  bound constructor isParameter unbound := by
    rcases List.mem_append.mp isParameter with isDeclared | isParameter
    · exact .inr (.inr (.inl (List.mem_append_left _ isDeclared)))
    · exact (carries.bound constructor isParameter unbound).mono (List.subset_append_right _ _)

/-- A held receiver says what all type parameters of its class stand for. -/
theorem Holds.carries {entry : ClassEntry} (holds : realm.Holds type)
    (found : realm.base.class? type.constructor = some entry) :
    realm.Carries
      (Table.ofList
        ((entry.descriptor.typeParameters.map TypeParameterDescriptor.constructor).zip
          type.arguments))
      (entry.descriptor.typeParameters.map TypeParameterDescriptor.constructor) where
  range constructor other isBound :=
    holds.arguments other (List.of_mem_zip (Table.mem_of_get?_ofList isBound)).2
  bound constructor isParameter unbound := by
    have sameLength := holds.admits entry found
    have isBound : ((Table.ofList
        ((entry.descriptor.typeParameters.map TypeParameterDescriptor.constructor).zip
          type.arguments)).get? constructor).isSome := by
      apply Table.isSome_get?_ofList
      rwa [List.map_fst_zip (by rw [List.length_map, sameLength])]
    rw [unbound] at isBound
    cases isBound

/-! ### Calls -/

/-- Everything that is inferred from held arguments is held. -/
theorem holds_of_get?_inferred {signature : Signature} {arguments : List NominalType}
    (holds : ∀ argument ∈ arguments, realm.Holds argument)
    (bound : (signature.inferred arguments).get? constructor = some type) : realm.Holds type := by
  rw [signature.inferred_eq] at bound
  exact forall_get?_inferAll (fun _ => Holds.arguments) (fun _ nullable whole =>
    holds_withNullable whole nullable) holds (fun _ _ found => by cases found) bound

/-- The type of a call is held if the type parameters that no argument decides are allowed. -/
theorem holds_of_accept? {signature : Signature} {arguments : List NominalType}
    {applicable : Applicable} (accepted : signature.accept? arguments = some applicable)
    (holds : ∀ argument ∈ arguments, realm.Holds argument)
    (holdsResult : (realm.declaring typeParameters).Holds signature.result)
    (undecided : ∀ parameter ∈ typeParameters,
      (signature.inferred arguments).get? parameter.constructor = none →
        realm.Allows parameter.constructor) :
    realm.Holds applicable.result := by
  have carries : realm.Carries (signature.inferred arguments)
      (typeParameters.map TypeParameterDescriptor.constructor ++ realm.parameters) := by
    refine ⟨fun _ _ => holds_of_get?_inferred holds, fun constructor inScope unbound => ?_⟩
    rcases List.mem_append.mp inScope with isDeclared | inScope
    · obtain ⟨parameter, isParameter, rfl⟩ := List.mem_map.mp isDeclared
      exact undecided parameter isParameter unbound
    · exact .inr (.inr (.inl inScope))
  rw [(Choice.of_accept? accepted).2.2]
  exact carries.holds holdsResult

end Realm

end Gloss
