import Gloss.Proofs.Typing.Matching
import Gloss.Proofs.Typing.Overloads

/-!
# Errors in the place of types

One type absorbs another one if it is the same but for errors in place of some of its parts.
What fits where the other type is expected still does, whatever is expected absorbs what was
expected before, and so do joins and the members that are taken over to a receiver.  A call
accepts arguments that absorb those it accepted, as long as they decide its type variables alike.
-/

namespace Gloss

namespace NominalType

mutual

/-- A type that stands for another one, with errors in place of some of its parts. -/
def Absorbs : (now before : NominalType) → Prop
  | ⟨constructor, arguments, nullable⟩, ⟨constructor', arguments', nullable'⟩ =>
      constructor.kind = .error ∨
        constructor = constructor' ∧ nullable = nullable' ∧ AbsorbsAll arguments arguments'

def AbsorbsAll : (now before : List NominalType) → Prop
  | [], [] => True
  | first :: rest, first' :: rest' => Absorbs first first' ∧ AbsorbsAll rest rest'
  | [], _ :: _ | _ :: _, [] => False

end

mutual

def decideAbsorbs : (now before : NominalType) → Decidable (now.Absorbs before)
  | ⟨constructor, arguments, nullable⟩, ⟨constructor', arguments', nullable'⟩ =>
      have := decideAbsorbsAll arguments arguments'
      decidable_of_iff (constructor.kind = .error ∨
        constructor = constructor' ∧ nullable = nullable' ∧ AbsorbsAll arguments arguments')
        (by rw [Absorbs])

def decideAbsorbsAll : (now before : List NominalType) → Decidable (AbsorbsAll now before)
  | [], [] => isTrue (by rw [AbsorbsAll]; trivial)
  | first :: rest, first' :: rest' =>
      have := decideAbsorbs first first'
      have := decideAbsorbsAll rest rest'
      decidable_of_iff (first.Absorbs first' ∧ AbsorbsAll rest rest') (by rw [AbsorbsAll])
  | [], _ :: _ | _ :: _, [] => isFalse (by rw [AbsorbsAll]; exact id)

end

instance (now before : NominalType) : Decidable (now.Absorbs before) := decideAbsorbs now before

variable {now before other top : NominalType} {types originals : List NominalType}

theorem absorbsAll_iff : AbsorbsAll types originals ↔ List.Forall₂ Absorbs types originals := by
  induction types generalizing originals with
  | nil => cases originals <;> simp [AbsorbsAll]
  | cons first rest ih => cases originals <;> simp [AbsorbsAll, ih]

theorem absorbs_iff :
    now.Absorbs before ↔ now.isError = true ∨
      now.constructor = before.constructor ∧ now.nullable = before.nullable ∧
        List.Forall₂ Absorbs now.arguments before.arguments := by
  cases now
  cases before
  rw [Absorbs, absorbsAll_iff, isError, decide_eq_true_eq]

namespace Absorbs

theorem of_isError (isError : now.isError = true) : now.Absorbs before :=
  absorbs_iff.mpr (.inl isError)

theorem of_parts (constructor : now.constructor = before.constructor)
    (nullable : now.nullable = before.nullable)
    (arguments : List.Forall₂ Absorbs now.arguments before.arguments) : now.Absorbs before :=
  absorbs_iff.mpr (.inr ⟨constructor, nullable, arguments⟩)

theorem refl (type : NominalType) : type.Absorbs type := by
  induction type using NominalType.induct with
  | step type ih => exact .of_parts rfl rfl (List.forall₂_same.mpr ih)

/-- Where there is no error, the two types agree from outside. -/
theorem parts (absorbs : now.Absorbs before) (sound : now.isError = false) :
    now.constructor = before.constructor ∧ now.nullable = before.nullable ∧
      List.Forall₂ Absorbs now.arguments before.arguments := by
  rcases absorbs_iff.mp absorbs with isError | parts
  · rw [sound] at isError
    cases isError
  · exact parts

theorem isError_eq (absorbs : now.Absorbs before) (sound : now.isError = false) :
    before.isError = false := by
  rw [isError, ← (absorbs.parts sound).1]
  exact sound

theorem withNullable (absorbs : now.Absorbs before) (nullable : Bool) :
    (now.withNullable nullable).Absorbs (before.withNullable nullable) := by
  rcases absorbs_iff.mp absorbs with isError | ⟨constructor, -, arguments⟩
  · exact .of_isError isError
  · exact .of_parts constructor rfl arguments

/-! ### Subtypes and joins -/

theorem argumentsAgree {second original : NominalType} (absorbs : now.Absorbs before)
    (absorbsSecond : second.Absorbs original) (agree : before.argumentsAgree original = true) :
    now.argumentsAgree second = true := by
  cases failed : now.isError with
  | true => simp [NominalType.argumentsAgree, failed]
  | false =>
      cases failedSecond : second.isError with
      | true => simp [NominalType.argumentsAgree, failedSecond]
      | false =>
          have sound := absorbs.isError_eq failed
          have soundSecond := absorbsSecond.isError_eq failedSecond
          simp only [NominalType.argumentsAgree, sound, soundSecond, Bool.or_false] at agree
          rw [NominalType.argumentsAgree, (absorbs.parts failed).1,
            (absorbsSecond.parts failedSecond).1, agree]
          rfl

theorem all_argumentsAgree {second original : List NominalType}
    (absorbs : List.Forall₂ Absorbs types originals)
    (absorbsSecond : List.Forall₂ Absorbs second original)
    (agree : ((originals.zip original).all fun pair => pair.1.argumentsAgree pair.2) = true) :
    ((types.zip second).all fun pair => pair.1.argumentsAgree pair.2) = true := by
  induction absorbs generalizing second original with
  | nil => rfl
  | cons first _ ih =>
      cases absorbsSecond with
      | nil => rfl
      | cons firstSecond rest =>
          simp only [List.zip_cons_cons, List.all_cons, Bool.and_eq_true] at agree ⊢
          exact ⟨first.argumentsAgree firstSecond agree.1, ih rest agree.2⟩

/-- What fitted still fits: subtyping only compares what the types have in common with those
they absorb. -/
theorem isSubtype {expected original : NominalType} (absorbs : now.Absorbs before)
    (absorbsExpected : expected.Absorbs original) (fits : before.isSubtype original = true) :
    now.isSubtype expected = true := by
  cases failed : now.isError with
  | true => simp [NominalType.isSubtype, failed]
  | false =>
      cases failedExpected : expected.isError with
      | true => simp [NominalType.isSubtype, failedExpected]
      | false =>
          obtain ⟨constructor, nullable, arguments⟩ := absorbs.parts failed
          obtain ⟨constructor', nullable', arguments'⟩ := absorbsExpected.parts failedExpected
          have sound := absorbs.isError_eq failed
          have soundExpected := absorbsExpected.isError_eq failedExpected
          simp only [NominalType.isSubtype, failed, failedExpected, sound, soundExpected,
            constructor, constructor', nullable, nullable', arguments.length_eq,
            arguments'.length_eq] at fits ⊢
          split_ifs at fits ⊢
          · rfl
          · rfl
          · exact all_argumentsAgree arguments arguments' fits

/-- Types that fitted side by side still do. -/
theorem all_isSubtype {expected original : List NominalType}
    (absorbs : List.Forall₂ Absorbs types originals)
    (absorbsExpected : List.Forall₂ Absorbs expected original)
    (fit : ((originals.zip original).all fun pair => pair.1.isSubtype pair.2) = true) :
    ((types.zip expected).all fun pair => pair.1.isSubtype pair.2) = true := by
  induction absorbs generalizing expected original with
  | nil => rfl
  | cons first _ ih =>
      cases absorbsExpected with
      | nil => rfl
      | cons firstExpected rest =>
          simp only [List.zip_cons_cons, List.all_cons, Bool.and_eq_true] at fit ⊢
          exact ⟨first.isSubtype firstExpected fit.1, ih rest fit.2⟩

theorem join {second original : NominalType} (absorbs : now.Absorbs before)
    (absorbsSecond : second.Absorbs original) (top : NominalType) :
    (now.join second top).Absorbs (before.join original top) := by
  cases failed : now.isError with
  | true =>
      refine .of_isError ?_
      simp only [NominalType.join, failed, Bool.true_or, if_true]
      rfl
  | false =>
      cases failedSecond : second.isError with
      | true =>
          refine .of_isError ?_
          simp only [NominalType.join, failedSecond, Bool.or_true, if_true]
          rfl
      | false =>
          obtain ⟨constructor, nullable, -⟩ := absorbs.parts failed
          obtain ⟨constructor', nullable', -⟩ := absorbsSecond.parts failedSecond
          have sound := absorbs.isError_eq failed
          have soundSecond := absorbsSecond.isError_eq failedSecond
          simp only [NominalType.join, failed, failedSecond, sound, soundSecond, constructor,
            constructor', nullable, nullable']
          split_ifs
          · exact .refl _
          · exact absorbsSecond.withNullable _
          · exact absorbs.withNullable _
          · exact absorbs.withNullable _
          · exact .refl _

/-! ### Function types -/

theorem functionType {result original : NominalType}
    (absorbs : List.Forall₂ Absorbs types originals) (absorbsResult : result.Absorbs original)
    (nullable : Bool) :
    (Library.functionType types result nullable).Absorbs
      (Library.functionType originals original nullable) := by
  refine .of_parts ?_ rfl (List.rel_append absorbs (.cons absorbsResult .nil))
  simp only [Library.functionType, absorbs.length_eq]

theorem getLast?_dropLast (absorbs : List.Forall₂ Absorbs types originals) :
    Option.Rel Absorbs types.getLast? originals.getLast? ∧
      List.Forall₂ Absorbs types.dropLast originals.dropLast := by
  induction absorbs with
  | nil => exact ⟨.none, .nil⟩
  | cons first rest ih =>
      cases rest with
      | nil => exact ⟨.some first, .nil⟩
      | cons second rest =>
          rw [List.getLast?_cons_cons, List.getLast?_cons_cons]
          exact ⟨ih.1, .cons first ih.2⟩

/-- Function types have their parts in the same places. -/
theorem functionParts? (absorbs : now.Absorbs before) (sound : now.isError = false) :
    Option.Rel (fun parts originals =>
        List.Forall₂ Absorbs parts.1 originals.1 ∧ parts.2.Absorbs originals.2)
      (Library.functionParts? now) (Library.functionParts? before) := by
  obtain ⟨constructor, -, arguments⟩ := absorbs.parts sound
  obtain ⟨last, front⟩ := getLast?_dropLast arguments
  rw [Library.functionParts?, Library.functionParts?, Library.functionArity?,
    Library.functionArity?, constructor]
  revert last
  generalize now.arguments.getLast? = result
  generalize before.arguments.getLast? = original
  intro last
  cases last with
  | none => cases before.constructor.origin <;> exact .none
  | some last =>
      cases before.constructor.origin with
      | function arity => exact .some ⟨front, last⟩
      | _ => exact .none

end Absorbs

end NominalType

/-! ### Substitutions -/

open NominalType

/-- A substitution puts in types that absorb those of another one, and nothing for errors. -/
structure Substitution.Absorbs (now before : Substitution) : Prop where
  spares : ∀ constructor : TypeConstructor, constructor.kind = .error →
    now.get? constructor = none
  related : ∀ constructor,
    Option.Rel NominalType.Absorbs (now.get? constructor) (before.get? constructor)

namespace Substitution.Absorbs

variable {now before : Substitution}

theorem empty : Substitution.Absorbs .empty .empty := ⟨fun _ _ => rfl, fun _ => .none⟩

theorem of_self (spares : ∀ constructor : TypeConstructor, constructor.kind = .error →
    now.get? constructor = none) : now.Absorbs now := by
  refine ⟨spares, fun constructor => ?_⟩
  cases now.get? constructor with
  | none => exact .none
  | some type => exact .some (.refl type)

theorem insert {key : TypeConstructor} {type original : NominalType}
    (absorbs : now.Absorbs before) (proper : key.kind = .typeParameter)
    (absorbsType : type.Absorbs original) :
    Substitution.Absorbs (Table.insert now key type) (Table.insert before key original) where
  spares constructor isError := by
    rw [Table.get?_insert, if_neg, absorbs.spares constructor isError]
    rintro rfl
    rw [proper] at isError
    cases isError
  related constructor := by
    rw [Table.get?_insert, Table.get?_insert]
    split
    · exact .some absorbsType
    · exact absorbs.related constructor

/-- The type parameters of a class stand for the arguments of a receiver. -/
theorem of_zip {keys : List TypeConstructor} (proper : ∀ key ∈ keys, key.kind = .typeParameter)
    {types originals : List NominalType} (areAbsorbed : List.Forall₂ NominalType.Absorbs types originals) :
    Substitution.Absorbs (Table.ofList (keys.zip types)) (Table.ofList (keys.zip originals)) := by
  have entered (now before : Substitution) (absorbs : now.Absorbs before) :
      Substitution.Absorbs
        ((keys.zip types).foldl (fun table pair => Table.insert table pair.1 pair.2) now)
        ((keys.zip originals).foldl (fun table pair => Table.insert table pair.1 pair.2) before) := by
    induction areAbsorbed generalizing keys now before with
    | nil => simpa using absorbs
    | cons first _ ih =>
        cases keys with
        | nil => exact absorbs
        | cons key keys =>
            obtain ⟨properFirst, properRest⟩ := List.forall_mem_cons.mp proper
            exact ih properRest _ _ (absorbs.insert properFirst first)
  exact entered .empty .empty .empty

mutual

/-- By recursion on both types: where something is put in for the one it is for the other. -/
theorem substitute (absorbs : now.Absorbs before) : (type original : NominalType) →
    type.Absorbs original → (type.substitute now).Absorbs (original.substitute before)
  | ⟨constructor, arguments, nullable⟩, ⟨constructor', arguments', nullable'⟩, absorbsType => by
      rw [NominalType.Absorbs] at absorbsType
      rcases absorbsType with isError | ⟨rfl, rfl, absorbsArguments⟩
      · rw [NominalType.substitute, absorbs.spares constructor isError]
        exact .of_isError (decide_eq_true isError)
      · have related := absorbs.related constructor
        rw [NominalType.substitute, NominalType.substitute]
        revert related
        generalize now.get? constructor = replacement
        generalize before.get? constructor = other
        intro related
        cases related with
        | none =>
            exact .of_parts rfl rfl
              (absorbsAll_iff.mp (substituteAll absorbs arguments arguments' absorbsArguments))
        | @some replacement other related =>
            rcases absorbs_iff.mp related with isError | ⟨sameConstructor, sameNullable, parts⟩
            · exact .of_isError isError
            · refine .of_parts sameConstructor ?_ parts
              dsimp only [withNullable]
              rw [sameNullable]

theorem substituteAll (absorbs : now.Absorbs before) : (types originals : List NominalType) →
    AbsorbsAll types originals →
      AbsorbsAll (NominalType.substituteAll now types) (NominalType.substituteAll before originals)
  | [], [], _ => by
      rw [NominalType.substituteAll, NominalType.substituteAll]
      trivial
  | type :: types, original :: originals, absorbsAll => by
      rw [AbsorbsAll] at absorbsAll
      rw [NominalType.substituteAll, NominalType.substituteAll, AbsorbsAll]
      exact ⟨absorbs.substitute type original absorbsAll.1,
        substituteAll absorbs types originals absorbsAll.2⟩
  | [], _ :: _, absorbsAll | _ :: _, [], absorbsAll => by
      rw [AbsorbsAll] at absorbsAll
      exact absorbsAll.elim

end

end Substitution.Absorbs

/-! ### Calls -/

/-- A signature whose types absorb those of another one, with the same type variables. -/
structure Signature.Absorbs (now before : Signature) : Prop where
  parameters : List.Forall₂ NominalType.Absorbs now.parameters before.parameters
  result : now.result.Absorbs before.result
  unknowns : now.unknowns = before.unknowns

namespace Signature

variable {now before : Signature} {arguments originals : List NominalType}

/-- Nothing is inferred for errors. -/
theorem spares_inferred {signature : Signature}
    (proper : ∀ unknown ∈ signature.unknowns, unknown.kind = .typeParameter)
    (arguments : List NominalType) (constructor : TypeConstructor)
    (isError : constructor.kind = .error) : (signature.inferred arguments).get? constructor = none := by
  rw [signature.inferred_eq]
  refine (extends_inferAll _ _ _ _).unbound constructor rfl fun isUnknown => ?_
  rw [proper constructor isUnknown] at isError
  cases isError

theorem inferred_of_unknowns_eq_nil {signature : Signature} (nothing : signature.unknowns = [])
    (arguments : List NominalType) : signature.inferred arguments = .empty := by
  rw [inferred, nothing]
  rfl

namespace Absorbs

variable (absorbs : now.Absorbs before)
  (proper : ∀ unknown ∈ before.unknowns, unknown.kind = .typeParameter)
  (decided : now.inferred arguments = before.inferred originals)

include absorbs proper decided

/-- A call that decides the type variables alike has a type that absorbs what it had before. -/
theorem result_substitute :
    (now.result.substitute (now.inferred arguments)).Absorbs
      (before.result.substitute (before.inferred originals)) := by
  rw [decided]
  exact (Substitution.Absorbs.of_self (spares_inferred proper originals)).substitute _ _
    absorbs.result

/-- What was accepted still is, as long as the type variables are decided alike. -/
theorem accept?_isSome (given : List.Forall₂ NominalType.Absorbs arguments originals)
    (accepted : (before.accept? originals).isSome) : (now.accept? arguments).isSome := by
  have substituted := Substitution.Absorbs.of_self (spares_inferred proper originals)
  have expected : List.Forall₂ NominalType.Absorbs
      (now.parameters.map (NominalType.substitute (before.inferred originals)))
      (before.parameters.map (NominalType.substitute (before.inferred originals))) := by
    rw [List.forall₂_map_left_iff, List.forall₂_map_right_iff]
    exact absorbs.parameters.imp substituted.substitute
  unfold accept? at accepted ⊢
  rw [decided, absorbs.parameters.length_eq, given.length_eq]
  split at accepted
  · cases accepted
  · next fittingLength =>
      rw [if_neg fittingLength]
      dsimp only at accepted ⊢
      split at accepted
      · next fit =>
          rw [if_pos (NominalType.Absorbs.all_isSubtype given expected fit)]
          rfl
      · cases accepted

end Absorbs

end Signature

namespace Choice

/-- A single candidate is said not to fit where it does not accept the arguments. -/
theorem accept?_eq_none_of_among_eq_mismatch {signatures : List Signature}
    {arguments : List NominalType} {only : Signature}
    (mismatch : among signatures arguments = .mismatch only) :
    only.accept? arguments = Option.none := by
  have single : signatures = [only] := by
    unfold among at mismatch
    simp only at mismatch
    split at mismatch <;> cases mismatch
    rfl
  rw [single, among_singleton] at mismatch
  cases accepted : only.accept? arguments with
  | none => rfl
  | some applicable => simp [accepted] at mismatch

end Choice

end Gloss
