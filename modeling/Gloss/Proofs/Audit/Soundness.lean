import Gloss.Proofs.Resolution.Calls
import Gloss.Proofs.Typing.Matching
import Gloss.Resolution.Overload
import Gloss.Resolution.WrittenType

/-!
# Sound meanings

Whatever a name can mean has saturated types, and where its type is open it is
declared at a node that is promised an expression.  What only arises at a use,
such as a specialized function, is no meaning of a name.  These invariants are
all that inference needs of what was declared.
-/

/-!
### Saturated types

A type is saturated when each function type in it has an argument for each
parameter and one for the result.  Function types are only ever made so, and
nothing that is done with types changes it: neither what type parameters stand
for, nor the choice among overloads, nor a common type for two branches.
Written types may have too many or too few arguments, but no written name
means a class of functions.
-/

namespace Gloss

namespace TypeConstructor

/-- Whether a constructor does not belong to a class of functions. -/
def isPlain (constructor : TypeConstructor) : Bool :=
  match constructor.origin with
  | .function _ => false
  | _ => true

/-- Whether a number of arguments is right for a constructor, any being right
unless it belongs to a class of functions. -/
def admits (constructor : TypeConstructor) (count : Nat) : Bool :=
  match constructor.origin with
  | .function arity => count = arity + 1
  | _ => true

variable {constructor : TypeConstructor}

theorem admits_of_isPlain (plain : constructor.isPlain = true) (count : Nat) :
    constructor.admits count = true := by
  unfold isPlain at plain
  unfold admits
  split at plain
  · cases plain
  · rfl

end TypeConstructor

namespace NominalType

mutual

/-- Whether each function type in a type has as many arguments as it needs. -/
def isSaturated : NominalType → Bool
  | ⟨constructor, arguments, _⟩ => constructor.admits arguments.length && areSaturated arguments

def areSaturated : List NominalType → Bool
  | [] => true
  | type :: rest => isSaturated type && areSaturated rest

end

theorem areSaturated_iff {types : List NominalType} :
    areSaturated types = true ↔ ∀ type ∈ types, type.isSaturated = true := by
  induction types with
  | nil => simp [areSaturated]
  | cons type rest ih => simp [areSaturated, ih]

theorem isSaturated_iff {type : NominalType} :
    type.isSaturated = true ↔ type.constructor.admits type.arguments.length = true ∧
      ∀ argument ∈ type.arguments, argument.isSaturated = true := by
  obtain ⟨constructor, arguments, nullable⟩ := type
  rw [isSaturated, Bool.and_eq_true, areSaturated_iff]

/-- Arguments in any number are right where no function type is made. -/
theorem isSaturated_of_isPlain {type : NominalType} (plain : type.constructor.isPlain = true)
    (arguments : ∀ argument ∈ type.arguments, argument.isSaturated = true) :
    type.isSaturated = true :=
  isSaturated_iff.mpr ⟨type.constructor.admits_of_isPlain plain _, arguments⟩

@[simp] theorem isSaturated_withNullable (type : NominalType) (nullable : Bool) :
    (type.withNullable nullable).isSaturated = type.isSaturated := by
  obtain ⟨constructor, arguments, nullable'⟩ := type
  simp only [withNullable, isSaturated]

theorem isSaturated_functionType {parameters : List NominalType} {result : NominalType}
    (saturatedParameters : ∀ parameter ∈ parameters, parameter.isSaturated = true)
    (saturatedResult : result.isSaturated = true) (nullable : Bool) :
    (Library.functionType parameters result nullable).isSaturated = true := by
  rw [isSaturated_iff]
  constructor
  · simp [Library.functionType, Library.functionClass, TypeConstructor.admits]
  · intro argument isArgument
    rcases List.mem_append.mp isArgument with isParameter | isResult
    · exact saturatedParameters argument isParameter
    · exact List.mem_singleton.mp isResult ▸ saturatedResult

theorem isSaturated_join {first second : NominalType} (saturated : first.isSaturated = true)
    (saturatedSecond : second.isSaturated = true) :
    (first.join second Library.any).isSaturated = true := by
  unfold join
  simp only
  split
  · rfl
  · split
    · rwa [isSaturated_withNullable]
    · split
      · rwa [isSaturated_withNullable]
      · split
        · rwa [isSaturated_withNullable]
        · rw [isSaturated_withNullable]
          rfl

end NominalType

open NominalType

/-! ### Substitutions -/

namespace Substitution

/-- Every type parameter stands for a saturated type. -/
def IsSaturated (substitution : Substitution) : Prop :=
  ∀ constructor type, substitution.get? constructor = some type → type.isSaturated = true

variable {substitution : Substitution}

theorem isSaturated_empty : IsSaturated .empty := fun _ _ found => by cases found

/-- What the arguments of a type stand for. -/
theorem isSaturated_ofList_zip {types : List NominalType}
    (saturated : ∀ type ∈ types, type.isSaturated = true) (unknowns : List TypeConstructor) :
    IsSaturated (Table.ofList (unknowns.zip types)) := by
  intro constructor type isBound
  obtain ⟨-, isType⟩ := List.of_mem_zip (Table.mem_of_get?_ofList isBound)
  exact saturated type isType

end Substitution

namespace NominalType

variable {substitution : Substitution}

mutual

theorem isSaturated_substitute (saturated : substitution.IsSaturated) :
    (type : NominalType) → type.isSaturated = true →
      (type.substitute substitution).isSaturated = true
  | ⟨constructor, arguments, nullable⟩, given => by
      rw [substitute]
      cases found : substitution.get? constructor with
      | some replacement =>
          simp only [isSaturated_withNullable]
          exact saturated constructor replacement found
      | none =>
          rw [isSaturated, Bool.and_eq_true] at given
          simp only [isSaturated, Bool.and_eq_true]
          rw [length_substituteAll]
          exact ⟨given.1, areSaturated_substituteAll saturated arguments given.2⟩

theorem areSaturated_substituteAll (saturated : substitution.IsSaturated) :
    (types : List NominalType) → areSaturated types = true →
      areSaturated (substituteAll substitution types) = true
  | [], _ => rfl
  | type :: rest, given => by
      rw [areSaturated, Bool.and_eq_true] at given
      rw [substituteAll, areSaturated, Bool.and_eq_true]
      exact ⟨isSaturated_substitute saturated type given.1,
        areSaturated_substituteAll saturated rest given.2⟩

theorem length_substituteAll :
    (types : List NominalType) → (substituteAll substitution types).length = types.length
  | [] => rfl
  | type :: rest => by rw [substituteAll, List.length_cons, List.length_cons,
      length_substituteAll rest]

end

/-- A type variable comes to stand for an argument or for a part of one. -/
theorem isSaturated_inferAll {unknowns : List TypeConstructor}
    {parameters arguments : List NominalType}
    {known : Substitution} (saturated : known.IsSaturated)
    (given : ∀ argument ∈ arguments, argument.isSaturated = true) :
    (inferAll unknowns parameters arguments known).IsSaturated := by
  have ofArgument (type : NominalType) (saturatedType : type.isSaturated = true) :
      ∀ argument ∈ type.arguments, argument.isSaturated = true :=
    (isSaturated_iff.mp saturatedType).2
  have ofNullable (type : NominalType) (nullable : Bool) (saturatedType : type.isSaturated = true) :
      (type.withNullable nullable).isSaturated = true := by
    rwa [isSaturated_withNullable]
  exact fun _ _ bound => forall_get?_inferAll ofArgument ofNullable given saturated bound

end NominalType

/-! ### Calls -/

theorem Signature.isSaturated_result_of_accept? {signature : Signature}
    {arguments : List NominalType} {applicable : Applicable}
    (accepted : signature.accept? arguments = some applicable)
    (result : signature.result.isSaturated = true)
    (saturated : ∀ argument ∈ arguments, argument.isSaturated = true) :
    applicable.result.isSaturated = true := by
  have inferred : (signature.inferred arguments).IsSaturated := by
    unfold Signature.inferred
    split
    · exact Substitution.isSaturated_empty
    · exact isSaturated_inferAll Substitution.isSaturated_empty saturated
  unfold Signature.accept? at accepted
  split at accepted
  · cases accepted
  · simp only at accepted
    split at accepted
    · cases accepted
      exact isSaturated_substitute inferred _ result
    · cases accepted

/-! ### Written types -/

/-- No name means a class of functions. -/
def Classifiers.ArePlain (classifiers : Classifiers) : Prop :=
  ∀ name symbol constructor, classifiers name = some symbol →
    symbol.descriptor.typeConstructor? = some constructor → constructor.isPlain = true

mutual

theorem Tree.TypeRef.isSaturated_denote {classifiers : Classifiers} (plain : classifiers.ArePlain) :
    (type : Tree.TypeRef) → (type.denote classifiers).isSaturated = true
  | .named span nullable name nameSpan arguments => by
      rw [denote]
      split
      · rfl
      · next constructor found =>
          obtain ⟨symbol, isMeaning, hasConstructor⟩ := Option.bind_eq_some_iff.mp found
          apply isSaturated_of_isPlain (plain name symbol constructor isMeaning hasConstructor)
          exact isSaturated_of_mem_denoteAll plain arguments
  | .function span nullable parameters result => by
      rw [denote]
      exact isSaturated_functionType (isSaturated_of_mem_denoteAll plain parameters)
        (isSaturated_denote plain result) nullable

theorem Tree.TypeRef.isSaturated_of_mem_denoteAll {classifiers : Classifiers}
    (plain : classifiers.ArePlain) : (types : List Tree.TypeRef) →
      ∀ type ∈ denoteAll classifiers types, type.isSaturated = true
  | [] => fun _ none => absurd none List.not_mem_nil
  | type :: rest => by
      rw [denoteAll]
      exact List.forall_mem_cons.mpr
        ⟨isSaturated_denote plain type, isSaturated_of_mem_denoteAll plain rest⟩

end

end Gloss

/-! ### Meanings of names -/

namespace Gloss

namespace VariableDescriptor

def hasSaturatedTypes : VariableDescriptor → Bool
  | .parameter _ declared => declared.type.isSaturated
  | .property declared => declared.type.all NominalType.isSaturated
  | .local declared => declared.type.isSaturated

end VariableDescriptor

namespace FunctionDescriptor

def hasSaturatedTypes (function : FunctionDescriptor) : Bool :=
  (function.parameters.all fun parameter => parameter.type.isSaturated) &&
    function.returnType.all NominalType.isSaturated

end FunctionDescriptor

namespace Descriptor

/-- Whether a descriptor can be the meaning of a name, as far as types go. -/
def isNameable : Descriptor → Bool
  | .class declared =>
      declared.constructor.isPlain &&
        declared.typeParameters.all fun parameter => parameter.constructor.isPlain
  | .typeParameter declared => declared.constructor.isPlain
  | .function declared => declared.hasSaturatedTypes
  | .variable declared => declared.hasSaturatedTypes
  | .specialized _ | .invoke _ _ | .error _ => false

/-- A meaning of a name, where the given nodes are promised an expression each. -/
structure Sound (promised : List NodeRef) (descriptor : Descriptor) : Prop where
  nameable : descriptor.isNameable = true
  promise : descriptor.LeavesOpen → ∃ node ∈ promised, descriptor.declaration = some node

instance decidableLeavesOpen : DecidablePred LeavesOpen
  | .function declared => inferInstanceAs (Decidable (declared.returnType = none))
  | .variable (.property declared) => inferInstanceAs (Decidable (declared.type = none))
  | .variable (.parameter _ _) | .variable (.local _) => .isFalse id
  | .class _ | .typeParameter _ | .specialized _ | .invoke _ _ | .error _ => .isFalse id

/-- Something that a call can go to. -/
def Callable (promised : List NodeRef) : Descriptor → Prop
  | .invoke _ type => (Library.functionArity? type).isSome ∧ type.isSaturated = true
  | .class declared => (Descriptor.class declared).Sound promised
  | .function declared => (Descriptor.function declared).Sound promised
  | .specialized _ | .variable _ | .typeParameter _ | .error _ => False

theorem Sound.mono {promised more : List NodeRef} {descriptor : Descriptor}
    (sound : descriptor.Sound promised) (included : promised ⊆ more) : descriptor.Sound more where
  nameable := sound.nameable
  promise open' := by
    obtain ⟨node, isPromised, declared⟩ := sound.promise open'
    exact ⟨node, included isPromised, declared⟩

end Descriptor

namespace ClassDescriptor

theorem isSaturated_defaultType {declared : ClassDescriptor}
    (nameable : (Descriptor.class declared).isNameable = true) :
    declared.defaultType.isSaturated = true := by
  rw [Descriptor.isNameable, Bool.and_eq_true, List.all_eq_true] at nameable
  apply NominalType.isSaturated_of_isPlain nameable.1
  intro argument isArgument
  obtain ⟨parameter, isParameter, rfl⟩ := List.mem_map.mp isArgument
  exact NominalType.isSaturated_of_isPlain (nameable.2 parameter isParameter) nofun

end ClassDescriptor

/-- A class whose members are sound. -/
structure ClassEntry.Sound (promised : List NodeRef) (entry : ClassEntry) : Prop where
  members : ∀ member ∈ entry.members, member.Sound promised
  parameters : ∀ parameter ∈ entry.parameters, parameter.type.isSaturated = true

/-- A symbol with a sound meaning; one that stands for a type has a type constructor. -/
structure Symbol.Sound (promised : List NodeRef) (symbol : Symbol Descriptor) : Prop where
  descriptor : symbol.descriptor.Sound promised
  classifier : symbol.kind.isClassifier = true → symbol.descriptor.typeConstructor?.isSome

namespace Library

theorem nameable_descriptors : ∀ descriptor ∈ descriptors,
    descriptor.isNameable = true := by
  decide

theorem not_leavesOpen_of_mem_descriptors : ∀ descriptor ∈ descriptors,
    ¬ descriptor.LeavesOpen := by
  decide

/-- The library keeps all promises, as it makes none. -/
theorem sound_of_mem_descriptors {descriptor : Descriptor} (provided : descriptor ∈ descriptors)
    (promised : List NodeRef) : descriptor.Sound promised :=
  ⟨nameable_descriptors descriptor provided,
    fun leavesOpen => absurd leavesOpen (not_leavesOpen_of_mem_descriptors descriptor provided)⟩

theorem sound_of_mem_classes {entry : ClassEntry} (provided : entry ∈ classes)
    (promised : List NodeRef) : entry.Sound promised where
  members _ inEntry :=
    sound_of_mem_descriptors (mem_descriptors_of_mem_members provided inEntry) promised
  parameters := by
    have none : ∀ entry ∈ classes, entry.parameters = [] := by decide
    simp [none entry provided]

end Library

/-- Saturated types were inferred, and only for declarations that were put off. -/
def InferredTypes.AreSound (inferred : InferredTypes) (deferred : List NodeRef) : Prop :=
  ∀ node type, inferred.get? node = some type → type.isSaturated = true ∧ node ∈ deferred

namespace ResolutionState

/-- All meanings of names in a state are sound, and so is what was inferred. -/
structure Firm (promised : List NodeRef) (state : ResolutionState) : Prop where
  symbols : ∀ scope ∈ state.scopes.newestFirst, ∀ symbol ∈ scope.symbols, symbol.Sound promised
  classes : ∀ constructor entry, state.classes.get? constructor = some entry →
    entry.Sound promised
  declared : ∀ node descriptor, state.declarations.get? node = some descriptor →
    descriptor.Introduces node ∧ descriptor.Sound promised
  inferred : state.inferred.AreSound state.deferred.keys
  deferredOnce : state.deferred.keys.Nodup

variable {promised : List NodeRef} {start state : ResolutionState}

/-- Firmness does not depend on what is written down on the way. -/
theorem Firm.of_agrees (firm : start.Firm promised) (agrees : start.Agrees state)
    (inferred : state.inferred.AreSound start.deferred.keys) : state.Firm promised where
  symbols := agrees.scopes ▸ firm.symbols
  classes := agrees.classes ▸ firm.classes
  declared := agrees.declarations ▸ firm.declared
  inferred := agrees.deferred ▸ inferred
  deferredOnce := agrees.deferred ▸ firm.deferredOnce

/-- More may be promised than was. -/
theorem Firm.mono {more : List NodeRef} (firm : state.Firm promised)
    (included : promised ⊆ more) : state.Firm more where
  symbols scope inScopes symbol inScope :=
    have sound := firm.symbols scope inScopes symbol inScope
    ⟨sound.descriptor.mono included, sound.classifier⟩
  classes constructor entry found :=
    have sound := firm.classes constructor entry found
    ⟨fun member inEntry => (sound.members member inEntry).mono included, sound.parameters⟩
  declared node descriptor found :=
    (firm.declared node descriptor found).imp_right fun sound => sound.mono included
  inferred := firm.inferred
  deferredOnce := firm.deferredOnce

theorem Firm.sound_of_mem_levels (firm : state.Firm promised) {scope : Nat}
    {level : Scope Descriptor} (isLevel : level ∈ state.scopes.levels scope)
    {symbol : Symbol Descriptor} (inLevel : symbol ∈ level.symbols) : symbol.Sound promised :=
  firm.symbols level (Scopes.mem_of_mem_levels isLevel) symbol inLevel

theorem Firm.sound_of_mem_lookup (firm : state.Firm promised) {scope : Nat}
    {accept : SymbolKind → Bool} {name : String} {symbol : Symbol Descriptor}
    (isFound : symbol ∈ state.scopes.lookup scope accept name) : symbol.Sound promised := by
  obtain ⟨found, inScopes, inFound, -⟩ := Scopes.mem_of_mem_lookup isFound
  exact firm.symbols found inScopes symbol inFound

theorem Firm.sound_of_class? (firm : state.Firm promised) {constructor : TypeConstructor}
    {entry : ClassEntry} (found : state.class? constructor = some entry) :
    entry.Sound promised := by
  unfold class? at found
  split at found
  · cases found
    exact ⟨fun _ none => absurd none List.not_mem_nil, fun _ none => absurd none List.not_mem_nil⟩
  · exact Library.sound_of_mem_classes (List.mem_of_find?_eq_some found) promised
  · exact firm.classes constructor entry found
  · cases found

/-- A name of a type has a type constructor, and not that of a class of functions. -/
theorem Firm.sound_of_classifiers (firm : state.Firm promised) {scope : Nat} {name : String}
    {symbol : Symbol Descriptor} (isMeaning : state.classifiers scope name = some symbol) :
    symbol.Sound promised ∧ symbol.descriptor.typeConstructor?.isSome := by
  have isFound := List.mem_of_head? isMeaning
  have sound := firm.sound_of_mem_lookup isFound
  obtain ⟨_, -, -, accepted⟩ := Scopes.mem_of_mem_lookup isFound
  exact ⟨sound, sound.classifier accepted⟩

theorem Firm.arePlain_classifiers (firm : state.Firm promised) (scope : Nat) :
    (state.classifiers scope).ArePlain := by
  intro name symbol constructor isMeaning hasConstructor
  have nameable := (firm.sound_of_classifiers isMeaning).1.descriptor.nameable
  cases descriptor : symbol.descriptor with
  | «class» declared =>
      rw [descriptor] at nameable hasConstructor
      cases hasConstructor
      exact (Bool.and_eq_true _ _ ▸ nameable).1
  | typeParameter declared =>
      rw [descriptor] at nameable hasConstructor
      cases hasConstructor
      exact nameable
  | _ =>
      rw [descriptor] at hasConstructor
      cases hasConstructor

end ResolutionState

end Gloss
