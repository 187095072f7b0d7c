import Gloss.Proofs.Confinement.Settings
import Gloss.Proofs.Order.Rounds

/-!
# Heads of declarations speak of held types

Where nothing is reported about a written type, the names in it mean classes and type
parameters, and each class has as many arguments as it needs.  So all types in the heads of
declarations are held where the type parameters of the declarations are in scope.  With them
everything that can be seen from a member has held types, as far as its type is known.
-/

namespace Gloss

open Gloss.Tree ResolutionState

theorem Tree.TypeRef.length_denoteAll (classifiers : Classifiers) (types : List TypeRef) :
    (denoteAll classifiers types).length = types.length := by
  induction types with
  | nil => rfl
  | cons type rest ih => rw [denoteAll, List.length_cons, List.length_cons, ih]

namespace Realm

variable {realm : Realm} {known : InferredTypes} {classifiers : Classifiers}
  {parameters : List TypeConstructor} {symbol : Symbol Descriptor}
  {level : List (Symbol Descriptor)}

theorem Introduces.mono (introduces : realm.Introduces known symbol)
    (subset : realm.parameters ⊆ parameters) : (realm.within parameters).Introduces known symbol :=
  ⟨introduces.describes.mono subset, introduces.isClass⟩

/-! ### Written types -/

/-- The names of types mean what is introduced. -/
def Classifies (realm : Realm) (known : InferredTypes) (classifiers : Classifiers) : Prop :=
  ∀ name symbol, classifiers name = some symbol → realm.Introduces known symbol

theorem Classifies.mono (classifies : realm.Classifies known classifiers)
    (subset : realm.parameters ⊆ parameters) :
    (realm.within parameters).Classifies known classifiers :=
  fun name symbol found => (classifies name symbol found).mono subset

theorem Classifies.inside (classifies : realm.Classifies known classifiers)
    (introduces : ∀ symbol ∈ level, realm.Introduces known symbol) :
    realm.Classifies known (classifiers.inside level) := by
  intro name symbol found
  rcases Option.or_eq_some_iff.mp found with isInside | ⟨-, isOuter⟩
  · have isNamed := List.mem_of_mem_filter (List.mem_of_mem_head? isInside)
    exact introduces symbol (List.mem_of_mem_filter isNamed)
  · exact classifies name symbol isOuter

section Written

variable {written : Remark → Prop}

/-- A class has as many arguments as it needs if nothing is reported about them. -/
theorem length_eq_of_nameRemarks (noProblem : ∀ found, ¬ written (.problem found))
    {node : NodeRef} {name : String} {count : Nat} (found : classifiers name = some symbol)
    (isClass : symbol.kind = .class) {declared : ClassDescriptor}
    (meant : symbol.descriptor = .class declared)
    (isWritten : ∀ remark ∈ TypeRef.nameRemarks classifiers node name count, written remark) :
    count = declared.typeParameters.length := by
  by_contra different
  have expected : Resolver.expectedArguments? symbol = some declared.typeParameters.length := by
    rw [Resolver.expectedArguments?, isClass, meant]
  simp only [TypeRef.nameRemarks, found, expected, if_neg different] at isWritten
  exact noProblem _ (isWritten _ (List.mem_cons_of_mem _ (List.mem_singleton_self _)))

mutual

/-- A written type about which nothing is reported means a held type. -/
theorem holds_denote (noProblem : ∀ found, ¬ written (.problem found))
    (classifies : realm.Classifies known classifiers) : (type : TypeRef) →
      (∀ remark ∈ type.remarks classifiers, written remark) → realm.Holds (type.denote classifiers)
  | .function span nullable parameters result, isWritten => by
      rw [TypeRef.remarks] at isWritten
      obtain ⟨ofParts, -⟩ := List.forall_mem_append.mp isWritten
      obtain ⟨ofParameters, ofResult⟩ := List.forall_mem_append.mp ofParts
      rw [TypeRef.denote]
      exact holds_functionType (holds_denoteAll noProblem classifies parameters ofParameters)
        (holds_denote noProblem classifies result ofResult) nullable
  | .named span nullable name nameSpan arguments, isWritten => by
      rw [TypeRef.remarks] at isWritten
      obtain ⟨ofParts, -⟩ := List.forall_mem_append.mp isWritten
      obtain ⟨ofArguments, ofName⟩ := List.forall_mem_append.mp ofParts
      have holds := holds_denoteAll noProblem classifies arguments ofArguments
      rw [TypeRef.denote]
      cases found : classifiers name with
      | none => exact realm.holds_error
      | some symbol =>
          rw [Option.bind_some]
          obtain ⟨describes, isClass⟩ := classifies name symbol found
          cases meant : symbol.descriptor with
          | «class» declared =>
              obtain ⟨isClassKind, -, isEntry⟩ := (meant ▸ describes :
                realm.Describes known (.class declared))
              refine .intro (.inl isClassKind) (fun entry isFound => ?_) holds
              rw [isEntry entry isFound, ← length_eq_of_nameRemarks noProblem found
                (isClass declared meant) meant ofName]
              exact TypeRef.length_denoteAll classifiers arguments
          | typeParameter declared =>
              obtain ⟨noClass, inScope⟩ := (meant ▸ describes :
                realm.Describes known (.typeParameter declared))
              exact realm.holds_parameter noClass inScope holds nullable
          | _ => exact realm.holds_error

theorem holds_denoteAll (noProblem : ∀ found, ¬ written (.problem found))
    (classifies : realm.Classifies known classifiers) : (types : List TypeRef) →
    (∀ remark ∈ TypeRef.remarksOfAll classifiers types, written remark) →
      ∀ type ∈ TypeRef.denoteAll classifiers types, realm.Holds type
  | [], _ => List.forall_mem_nil _
  | type :: rest, isWritten => by
      rw [TypeRef.remarksOfAll] at isWritten
      obtain ⟨ofFirst, ofRest⟩ := List.forall_mem_append.mp isWritten
      rw [TypeRef.denoteAll]
      exact List.forall_mem_cons.mpr ⟨holds_denote noProblem classifies type ofFirst,
        holds_denoteAll noProblem classifies rest ofRest⟩

end

end Written

/-! ### The library -/

theorem describes_function {function : FunctionDescriptor} {result : NominalType}
    (returns : function.returnType = some result)
    (holds : ∀ parameter ∈ function.parameters,
      (realm.declaring function.typeParameters).Holds parameter.type)
    (holdsResult : (realm.declaring function.typeParameters).Holds result) :
    realm.Describes known (.function function) := by
  refine ⟨holds, fun type isKnown => ?_⟩
  rw [FunctionDescriptor.returnType?, returns] at isKnown
  exact Option.some.inj isKnown ▸ holdsResult

theorem holds_parametersOf {types : List (String × NominalType)}
    (holds : ∀ entry ∈ types, realm.Holds entry.2) :
    ∀ parameter ∈ Library.parametersOf types, realm.Holds parameter.type := by
  intro parameter isParameter
  obtain ⟨index, inTypes, rfl⟩ := List.mem_mapIdx.mp isParameter
  exact holds _ (List.getElem_mem inTypes)

/-- The functions of the library have held types, where their own type parameters are in scope. -/
theorem describes_libraryFunctions (realm : Realm) (known : InferredTypes) :
    ∀ function ∈ Library.functions, realm.Describes known (.function function) := by
  have element (owner : String) : (realm.declaring [Library.typeParameter owner none "T"]).Holds
      { constructor := (Library.typeParameter owner none "T").constructor } :=
    holds_parameter _ rfl List.mem_cons_self (List.forall_mem_nil _) false
  unfold Library.functions
  refine List.forall_mem_cons.mpr ⟨?_, List.forall_mem_cons.mpr ⟨?_,
    List.forall_mem_singleton.mpr ?_⟩⟩
  · exact describes_function rfl
      (holds_parametersOf (List.forall_mem_singleton.mpr (holds_any _))) (holds_unit _)
  · exact describes_function rfl
      (holds_parametersOf (List.forall_mem_singleton.mpr (element _))) (holds_list (element _))
  · exact describes_function rfl
      (holds_parametersOf (List.forall_mem_singleton.mpr (element _))) (element _)

theorem introduces_librarySymbols (realm : Realm) (known : InferredTypes) :
    ∀ symbol ∈ librarySymbols, realm.Introduces known symbol := by
  have areClasses : ∀ entry ∈ Library.classes, entry.descriptor.constructor.kind = .class ∧
      entry.descriptor.constructor.origin = .library entry.descriptor.name ∧
        ∀ parameter ∈ entry.descriptor.typeParameters, parameter = Library.listParameter := by
    decide
  have unique : ∀ entry ∈ Library.classes, ∀ other ∈ Library.classes,
      other.descriptor.constructor = entry.descriptor.constructor →
        other.descriptor = entry.descriptor := by
    decide
  refine List.forall_mem_append.mpr ⟨List.forall_mem_map.mpr fun entry isProvided => ?_,
    List.forall_mem_map.mpr fun function isProvided => ?_⟩
  · obtain ⟨isClass, provided, areParameters⟩ := areClasses entry isProvided
    refine ⟨⟨isClass, fun parameter isParameter => ?_, fun other found => ?_⟩, fun _ _ => rfl⟩
    · rw [areParameters parameter isParameter]
      rfl
    · obtain ⟨isOther, same⟩ := mem_classes_of_class? provided found
      exact unique entry isProvided other isOther same
  · refine ⟨realm.describes_libraryFunctions known function isProvided, fun _ same => ?_⟩
    cases same

theorem describes_memberFunction {owner name : String} {types : List (String × NominalType)}
    {result : NominalType} (holds : ∀ entry ∈ types, realm.Holds entry.2)
    (holdsResult : realm.Holds result) :
    realm.Describes known (Library.memberFunction owner name types result) := by
  refine describes_function rfl (holds_parametersOf fun entry isEntry => ?_)
    (holdsResult.declaring _)
  exact (holds entry isEntry).declaring _

theorem describes_memberProperty {owner name : String} {type : NominalType}
    (holds : realm.Holds type) :
    realm.Describes known (Library.memberProperty owner name type) :=
  fun _ isKnown => Option.some.inj isKnown ▸ holds

theorem describes_libraryMembers (realm : Realm) (known : InferredTypes) :
    ∀ entry ∈ Library.classes, ∀ member ∈ entry.members,
      (realm.within (entry.descriptor.typeParameters.map
        TypeParameterDescriptor.constructor)).Describes known member := by
  have toString (realm : Realm) (owner : String) :
      realm.Describes known (Library.memberFunction owner "toString" [] Library.string) :=
    describes_memberFunction (List.forall_mem_nil _) (holds_string _)
  have taking (realm : Realm) (owner name label : String) {result : NominalType}
      (holdsResult : realm.Holds result) :
      realm.Describes known
        (Library.memberFunction owner name [(label, Library.any.withNullable true)] result) :=
    describes_memberFunction
      (List.forall_mem_singleton.mpr (holds_withNullable (holds_any _) true)) holdsResult
  have counting (realm : Realm) (owner name label : String) {result : NominalType}
      (holdsResult : realm.Holds result) :
      realm.Describes known (Library.memberFunction owner name [(label, Library.int)] result) :=
    describes_memberFunction (List.forall_mem_singleton.mpr (holds_int _)) holdsResult
  have holdsElement (realm : Realm) : (realm.within [Library.listParameter.constructor]).Holds
      { constructor := Library.listParameter.constructor } :=
    holds_parameter _ rfl List.mem_cons_self (List.forall_mem_nil _) false
  unfold Library.classes
  refine List.forall_mem_cons.mpr ⟨?any, List.forall_mem_cons.mpr ⟨List.forall_mem_nil _,
    List.forall_mem_cons.mpr ⟨?int, List.forall_mem_cons.mpr ⟨?string,
      List.forall_mem_cons.mpr ⟨List.forall_mem_nil _, List.forall_mem_cons.mpr
        ⟨List.forall_mem_nil _, List.forall_mem_singleton.mpr ?list⟩⟩⟩⟩⟩⟩
  case any =>
    exact List.forall_mem_cons.mpr ⟨taking _ _ _ _ (holds_boolean _),
      List.forall_mem_singleton.mpr (toString _ _)⟩
  case int =>
    exact List.forall_mem_append.mpr
      ⟨List.forall_mem_map.mpr fun name _ => counting _ _ name _ (holds_int _),
        List.forall_mem_singleton.mpr (toString _ _)⟩
  case string =>
    exact List.forall_mem_cons.mpr ⟨describes_memberProperty (holds_int _),
      List.forall_mem_singleton.mpr (taking _ _ _ _ (holds_string _))⟩
  case list =>
    exact List.forall_mem_cons.mpr ⟨describes_memberProperty (holds_int _),
      List.forall_mem_singleton.mpr (counting _ _ _ _ (holdsElement _))⟩

/-- The members of the classes of the library have held types. -/
theorem provides_library (realm : Realm) (known : InferredTypes) :
    ∀ entry ∈ Library.classes, realm.Provides known entry := by
  have ordinary : ∀ entry ∈ Library.classes, ∀ member ∈ entry.members,
      Resolver.isFunction member = true ∨ (Resolver.asProperty? member).isSome := by
    decide
  have noParameters : ∀ entry ∈ Library.classes, entry.parameters = [] := by
    decide
  intro entry isProvided
  refine ⟨realm.describes_libraryMembers known entry isProvided, ordinary entry isProvided, ?_⟩
  rw [noParameters entry isProvided]
  exact List.forall_mem_nil _

end Realm

end Gloss
