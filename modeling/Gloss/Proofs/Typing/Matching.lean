import Gloss.Proofs.Typing.Substitutions

/-!
# Exact instances

Inference goes through parameter and argument types side by side and binds type variables.  It
never changes what is bound, and binds nothing but type variables that it meets.  So where each
of them occurs once and the arguments are an instance of the parameters, the substitution that it
finds gives the arguments back, null included, whatever variables the arguments mention.
-/

namespace Gloss

/-- What was bound stays bound to the same type, and only type variables that occur among the
constructors were bound in addition. -/
structure Substitution.Extends (unknowns occurring : List TypeConstructor)
    (before after : Substitution) : Prop where
  keeps : ∀ constructor type, before.get? constructor = some type →
    after.get? constructor = some type
  unbound : ∀ constructor, before.get? constructor = none →
    (constructor ∈ unknowns → constructor ∉ occurring) → after.get? constructor = none

namespace Substitution.Extends

variable {unknowns occurring others : List TypeConstructor}
  {before middle after : Substitution}

theorem refl (substitution : Substitution) :
    Extends unknowns occurring substitution substitution :=
  ⟨fun _ _ => id, fun _ unbound _ => unbound⟩

theorem trans (extends_ : Extends unknowns occurring before middle)
    (later : Extends unknowns others middle after) :
    Extends unknowns (occurring ++ others) before after where
  keeps constructor type bound := later.keeps _ _ (extends_.keeps _ _ bound)
  unbound constructor unbound apart := by
    refine later.unbound _ (extends_.unbound _ unbound fun isUnknown occurs => ?_)
      fun isUnknown occurs => ?_
    · exact apart isUnknown (List.mem_append_left _ occurs)
    · exact apart isUnknown (List.mem_append_right _ occurs)

theorem mono (extends_ : Extends unknowns occurring before after) (more : occurring ⊆ others) :
    Extends unknowns others before after :=
  ⟨extends_.keeps, fun constructor unbound apart =>
    extends_.unbound constructor unbound fun isUnknown occurs => apart isUnknown (more occurs)⟩

theorem of_insert {constructor : TypeConstructor} (isUnknown : constructor ∈ unknowns)
    (occurs : constructor ∈ occurring) (new : before.get? constructor = none)
    (type : NominalType) :
    Extends unknowns occurring before (before.insert constructor type) where
  keeps other bound isBound := by
    rw [Table.get?_insert, if_neg, isBound]
    rintro rfl
    rw [new] at isBound
    cases isBound
  unbound other unbound apart := by
    rw [Table.get?_insert, if_neg, unbound]
    rintro rfl
    exact apart isUnknown occurs

end Substitution.Extends

namespace NominalType

open Substitution

variable {unknowns : List TypeConstructor} {parameter argument : NominalType}
  {parameters : List NominalType} {known given : Substitution}

/-! ### The steps of an inference -/

theorem infer_of_isError (failed : argument.isError = true) :
    infer unknowns parameter argument known = known := by
  obtain ⟨constructor, arguments, nullable⟩ := parameter
  rw [infer, if_pos failed]

theorem infer_of_mem (sound : argument.isError = false)
    (isUnknown : parameter.constructor ∈ unknowns) :
    infer unknowns parameter argument known =
      if known.contains parameter.constructor then known
      else known.insert parameter.constructor
        (argument.withNullable (argument.nullable && !parameter.nullable)) := by
  obtain ⟨constructor, arguments, nullable⟩ := parameter
  rw [infer, if_neg (Bool.eq_false_iff.mp sound), if_pos isUnknown]

theorem infer_of_notMem (sound : argument.isError = false)
    (notUnknown : parameter.constructor ∉ unknowns) :
    infer unknowns parameter argument known =
      if parameter.constructor = argument.constructor then
        inferAll unknowns parameter.arguments argument.arguments known
      else known := by
  obtain ⟨constructor, arguments, nullable⟩ := parameter
  rw [infer, if_neg (Bool.eq_false_iff.mp sound), if_neg notUnknown]

theorem constructors_eq (type : NominalType) :
    type.constructors = type.constructor :: constructorsOfAll type.arguments := by
  obtain ⟨constructor, arguments, nullable⟩ := type
  rw [constructors]

/-- What each pair of types extends, all of them extend. -/
theorem extends_inferAll_of_forall
    (each : ∀ parameter ∈ parameters, ∀ argument known,
      Extends unknowns parameter.constructors known (infer unknowns parameter argument known))
    (arguments : List NominalType) (known : Substitution) :
    Extends unknowns (constructorsOfAll parameters) known
      (inferAll unknowns parameters arguments known) := by
  induction parameters generalizing arguments known with
  | nil =>
      rw [inferAll]
      · exact .refl known
      · exact nofun
  | cons first rest ih =>
      obtain ⟨extendsFirst, extendsRest⟩ := List.forall_mem_cons.mp each
      cases arguments with
      | nil =>
          rw [inferAll]
          · exact .refl known
          · exact nofun
      | cons argument arguments =>
          rw [inferAll, constructorsOfAll]
          exact (extendsFirst argument known).trans (ih extendsRest arguments _)

/-- By induction on the parameter: only at a type variable that is not bound something is
bound. -/
theorem extends_infer (unknowns : List TypeConstructor) (parameter argument : NominalType)
    (known : Substitution) :
    Extends unknowns parameter.constructors known (infer unknowns parameter argument known) := by
  induction parameter using induct generalizing argument known with
  | step parameter ih =>
      cases failed : argument.isError with
      | true =>
          rw [infer_of_isError failed]
          exact .refl known
      | false =>
          by_cases isUnknown : parameter.constructor ∈ unknowns
          · rw [infer_of_mem failed isUnknown]
            split
            · exact .refl known
            · next notContained =>
                have new : known.get? parameter.constructor = none :=
                  Option.not_isSome_iff_eq_none.mp notContained
                exact .of_insert isUnknown parameter.constructor_mem_constructors new _
          · rw [infer_of_notMem failed isUnknown]
            split
            · refine (extends_inferAll_of_forall ih argument.arguments known).mono ?_
              rw [constructors_eq parameter]
              exact List.subset_cons_self _ _
            · exact .refl known

theorem extends_inferAll (unknowns : List TypeConstructor) (parameters arguments : List NominalType)
    (known : Substitution) :
    Extends unknowns (constructorsOfAll parameters) known
      (inferAll unknowns parameters arguments known) :=
  extends_inferAll_of_forall (fun parameter _ => extends_infer unknowns parameter) arguments known

/-- What a type variable is bound to is an argument or a part of one, with or without null. -/
theorem forall_get?_inferAll_of_forall {accept : NominalType → Prop}
    (each : ∀ parameter ∈ parameters, ∀ argument known, accept argument →
      (∀ constructor type, known.get? constructor = some type → accept type) →
        ∀ constructor type, (infer unknowns parameter argument known).get? constructor =
          some type → accept type)
    {arguments : List NominalType} (accepted : ∀ argument ∈ arguments, accept argument)
    (acceptedKnown : ∀ constructor type, known.get? constructor = some type → accept type)
    {constructor : TypeConstructor} {type : NominalType}
    (bound : (inferAll unknowns parameters arguments known).get? constructor = some type) :
    accept type := by
  induction parameters generalizing arguments known with
  | nil =>
      rw [inferAll] at bound
      · exact acceptedKnown _ _ bound
      · exact nofun
  | cons first rest ih =>
      obtain ⟨eachFirst, eachRest⟩ := List.forall_mem_cons.mp each
      cases arguments with
      | nil =>
          rw [inferAll] at bound
          · exact acceptedKnown _ _ bound
          · exact nofun
      | cons argument arguments =>
          obtain ⟨acceptedFirst, acceptedRest⟩ := List.forall_mem_cons.mp accepted
          rw [inferAll] at bound
          exact ih eachRest acceptedRest (eachFirst argument known acceptedFirst acceptedKnown)
            bound

section Accepted

variable {accept : NominalType → Prop}
  (ofArgument : ∀ type, accept type → ∀ argument ∈ type.arguments, accept argument)
  (ofNullable : ∀ type nullable, accept type → accept (type.withNullable nullable))

include ofArgument ofNullable

/-- By induction on the parameter, along with which the argument is taken apart. -/
theorem forall_get?_infer (parameter argument : NominalType) (known : Substitution)
    (accepted : accept argument)
    (acceptedKnown : ∀ constructor type, known.get? constructor = some type → accept type) :
    ∀ constructor type, (infer unknowns parameter argument known).get? constructor = some type →
      accept type := by
  induction parameter using induct generalizing argument known with
  | step parameter ih =>
      cases failed : argument.isError with
      | true =>
          rw [infer_of_isError failed]
          exact acceptedKnown
      | false =>
          by_cases isUnknown : parameter.constructor ∈ unknowns
          · rw [infer_of_mem failed isUnknown]
            split
            · exact acceptedKnown
            · intro constructor type bound
              rw [Table.get?_insert] at bound
              split at bound
              · cases bound
                exact ofNullable _ _ accepted
              · exact acceptedKnown _ _ bound
          · rw [infer_of_notMem failed isUnknown]
            split
            · exact fun _ _ => forall_get?_inferAll_of_forall ih (ofArgument _ accepted)
                acceptedKnown
            · exact acceptedKnown

theorem forall_get?_inferAll {arguments : List NominalType}
    (accepted : ∀ argument ∈ arguments, accept argument)
    (acceptedKnown : ∀ constructor type, known.get? constructor = some type → accept type)
    {constructor : TypeConstructor} {type : NominalType}
    (bound : (inferAll unknowns parameters arguments known).get? constructor = some type) :
    accept type :=
  forall_get?_inferAll_of_forall
    (fun parameter _ => forall_get?_infer ofArgument ofNullable parameter) accepted acceptedKnown
    bound

end Accepted

/-! ### Instances -/

/-- No error occurs in the type. -/
def IsSound (type : NominalType) : Prop :=
  ∀ constructor ∈ type.constructors, constructor.kind ≠ .error

instance (type : NominalType) : Decidable type.IsSound :=
  inferInstanceAs (Decidable (∀ constructor ∈ type.constructors, constructor.kind ≠ .error))

theorem IsSound.isError (sound : argument.IsSound) : argument.isError = false :=
  decide_eq_false (sound _ argument.constructor_mem_constructors)

theorem IsSound.of_mem_arguments (sound : parameter.IsSound)
    (isArgument : argument ∈ parameter.arguments) : argument.IsSound :=
  fun constructor occurs => sound constructor (mem_constructors_of_argument isArgument occurs)

/-- Every type variable occurs at most once among the constructors. -/
def Linear (unknowns occurring : List TypeConstructor) : Prop :=
  ∀ unknown ∈ unknowns, occurring.count unknown ≤ 1

theorem Linear.of_append_left {first second : List TypeConstructor}
    (linear : Linear unknowns (first ++ second)) : Linear unknowns first := by
  intro unknown isUnknown
  have once := linear unknown isUnknown
  rw [List.count_append] at once
  omega

theorem Linear.of_append_right {first second : List TypeConstructor}
    (linear : Linear unknowns (first ++ second)) : Linear unknowns second := by
  intro unknown isUnknown
  have once := linear unknown isUnknown
  rw [List.count_append] at once
  omega

theorem Linear.notMem_of_mem {first second : List TypeConstructor}
    (linear : Linear unknowns (first ++ second)) {unknown : TypeConstructor}
    (isUnknown : unknown ∈ unknowns) (occurs : unknown ∈ first) : unknown ∉ second := by
  intro occursLater
  have once := linear unknown isUnknown
  rw [List.count_append] at once
  have inFirst := List.count_pos_iff.mpr occurs
  have inSecond := List.count_pos_iff.mpr occursLater
  omega

/-- An inference has bound nothing yet that occurs, and nothing but type variables. -/
structure Awaits (unknowns occurring : List TypeConstructor) (known : Substitution) : Prop where
  new : ∀ unknown ∈ unknowns, unknown ∈ occurring → known.get? unknown = none
  only : ∀ constructor ∉ unknowns, known.get? constructor = none

theorem Awaits.extends {first second : List TypeConstructor} {later : Substitution}
    (awaits : Awaits unknowns (first ++ second) known) (linear : Linear unknowns (first ++ second))
    (extends_ : Extends unknowns first known later) : Awaits unknowns second later where
  new unknown isUnknown occurs := by
    have before := awaits.new unknown isUnknown (List.mem_append_right _ occurs)
    refine extends_.unbound _ before fun _ occursFirst => ?_
    exact linear.notMem_of_mem isUnknown occursFirst occurs
  only constructor notUnknown :=
    extends_.unbound _ (awaits.only _ notUnknown) fun isUnknown => absurd isUnknown notUnknown

theorem withNullable_self (type : NominalType) : type.withNullable type.nullable = type := by
  cases type
  rfl

theorem nullable_substitute_of_nullable (null : parameter.nullable = true) :
    (parameter.substitute given).nullable = true := by
  cases found : given.get? parameter.constructor with
  | some replacement =>
      rw [substitute_of_get?_eq_some found, nullable_withNullable, null, Bool.or_true]
  | none =>
      rw [substitute_of_get?_eq_none found]
      exact null

/-- At a type variable the whole argument is put in.  It loses its null where the parameter has
one, and gets it back from there. -/
theorem substitute_infer_of_mem (isUnknown : parameter.constructor ∈ unknowns)
    (new : known.get? parameter.constructor = none)
    (sound : (parameter.substitute given).isError = false) :
    parameter.substitute (infer unknowns parameter (parameter.substitute given) known) =
      parameter.substitute given := by
  have notContained : known.contains parameter.constructor = false := by
    rw [Table.contains, new]
    rfl
  rw [infer_of_mem sound isUnknown, notContained, if_neg Bool.false_ne_true]
  generalize whole : parameter.substitute given = type
  rw [substitute_of_get?_eq_some ((Table.get?_insert _ _ _ _).trans (if_pos rfl))]
  have restored : ((type.nullable && !parameter.nullable) || parameter.nullable) =
      type.nullable := by
    cases null : parameter.nullable with
    | false => simp
    | true => simp [← whole, nullable_substitute_of_nullable null]
  change type.withNullable ((type.nullable && !parameter.nullable) || parameter.nullable) = type
  rw [restored, withNullable_self]

/-- What is bound later does not concern the parameters that were gone through before. -/
theorem substitute_of_extends {later : Substitution} {others : List TypeConstructor}
    (linear : Linear unknowns (parameter.constructors ++ others))
    (extends_ : Extends unknowns others known later) :
    parameter.substitute later = parameter.substitute known := by
  refine substitute_congr parameter fun constructor occurs => ?_
  cases bound : known.get? constructor with
  | some type => exact extends_.keeps _ _ bound
  | none =>
      exact extends_.unbound _ bound fun isUnknown => linear.notMem_of_mem isUnknown occurs

/-- What is found for each pair of types gives all arguments back. -/
theorem map_substitute_inferAll_of_forall
    (each : ∀ parameter ∈ parameters, ∀ known, Linear unknowns parameter.constructors →
      Awaits unknowns parameter.constructors known → (parameter.substitute given).IsSound →
        parameter.substitute (infer unknowns parameter (parameter.substitute given) known) =
          parameter.substitute given)
    (linear : Linear unknowns (constructorsOfAll parameters))
    (awaits : Awaits unknowns (constructorsOfAll parameters) known)
    (sound : ∀ parameter ∈ parameters, (parameter.substitute given).IsSound) :
    parameters.map (substitute
        (inferAll unknowns parameters (parameters.map (substitute given)) known)) =
      parameters.map (substitute given) := by
  induction parameters generalizing known with
  | nil => rfl
  | cons first rest ih =>
      obtain ⟨eachFirst, eachRest⟩ := List.forall_mem_cons.mp each
      obtain ⟨soundFirst, soundRest⟩ := List.forall_mem_cons.mp sound
      rw [constructorsOfAll] at linear awaits
      have firstOnly : Awaits unknowns first.constructors known :=
        ⟨fun unknown isUnknown occurs =>
          awaits.new unknown isUnknown (List.mem_append_left _ occurs), awaits.only⟩
      have restOnly := awaits.extends linear
        (extends_infer unknowns first (first.substitute given) known)
      rw [List.map_cons, List.map_cons, inferAll,
        ih eachRest linear.of_append_right restOnly soundRest,
        substitute_of_extends linear (extends_inferAll unknowns rest _ _),
        eachFirst known linear.of_append_left firstOnly soundFirst]

/-- By induction on the parameter.  Its own class stays where it is no type variable, and then
its arguments are gone through. -/
theorem substitute_infer (givenOnly : ∀ constructor ∉ unknowns, given.get? constructor = none)
    (parameter : NominalType) (known : Substitution)
    (linear : Linear unknowns parameter.constructors)
    (awaits : Awaits unknowns parameter.constructors known)
    (sound : (parameter.substitute given).IsSound) :
    parameter.substitute (infer unknowns parameter (parameter.substitute given) known) =
      parameter.substitute given := by
  induction parameter using induct generalizing known with
  | step parameter ih =>
      by_cases isUnknown : parameter.constructor ∈ unknowns
      · have new := awaits.new _ isUnknown parameter.constructor_mem_constructors
        exact substitute_infer_of_mem isUnknown new sound.isError
      · have isInstance := substitute_of_get?_eq_none (givenOnly _ isUnknown)
        have extended := extends_infer unknowns parameter
          (parameter.substitute given) known
        have stays := extended.unbound _ (awaits.only _ isUnknown) fun mem => absurd mem isUnknown
        rw [constructors_eq] at linear awaits
        rw [substitute_of_get?_eq_none stays, infer_of_notMem sound.isError isUnknown]
        rw [isInstance] at sound ⊢
        rw [if_pos rfl]
        congr 1
        refine map_substitute_inferAll_of_forall ih ?_ ?_ fun argument isArgument => ?_
        · have split : Linear unknowns
              ([parameter.constructor] ++ constructorsOfAll parameter.arguments) := linear
          exact split.of_append_right
        · refine ⟨fun unknown mem occurs => ?_, awaits.only⟩
          exact awaits.new unknown mem (List.mem_cons_of_mem _ occurs)
        · exact sound.of_mem_arguments (List.mem_map_of_mem isArgument)

theorem map_substitute_inferAll (givenOnly : ∀ key ∈ given.keys, key ∈ unknowns)
    (linear : Linear unknowns (constructorsOfAll parameters))
    (sound : ∀ argument ∈ parameters.map (substitute given), argument.IsSound) :
    parameters.map (substitute
        (inferAll unknowns parameters (parameters.map (substitute given)) .empty)) =
      parameters.map (substitute given) := by
  have only : ∀ constructor ∉ unknowns, given.get? constructor = none := fun _ notUnknown =>
    Table.get?_eq_none_iff.mpr fun isKey => notUnknown (givenOnly _ isKey)
  have nothing : Awaits unknowns (constructorsOfAll parameters) .empty :=
    ⟨fun _ _ _ => rfl, fun _ _ => rfl⟩
  exact map_substitute_inferAll_of_forall
    (fun parameter _ known => substitute_infer only parameter known) linear nothing
    (List.forall_mem_map.mp sound)

end NominalType

/-! ### Calls -/

namespace Signature

open NominalType

variable {signature : Signature} {arguments : List NominalType}

/-- A signature without type variables infers nothing, like any other. -/
theorem inferred_eq (signature : Signature) (arguments : List NominalType) :
    signature.inferred arguments =
      inferAll signature.unknowns signature.parameters arguments .empty := by
  unfold inferred
  split
  · next none =>
      have extended := extends_inferAll signature.unknowns signature.parameters
        arguments .empty
      rw [List.isEmpty_iff.mp none] at extended ⊢
      generalize inferAll [] signature.parameters arguments .empty = found at extended
      obtain ⟨entries⟩ := found
      cases entries with
      | nil => rfl
      | cons entry rest =>
          have unbound := extended.unbound entry.1 rfl (fun isUnknown => nomatch isUnknown)
          simp [Table.get?, Table.lookupIn] at unbound
  · rfl

/-- What fits exactly is accepted, with all parameters counted. -/
theorem accept?_of_exact
    (exact_ : signature.parameters.map (substitute (signature.inferred arguments)) = arguments) :
    signature.accept? arguments = some
      { candidate := signature.candidate
        substitution := signature.inferred arguments
        result := signature.result.substitute (signature.inferred arguments)
        score := arguments.length } := by
  have sameLength : signature.parameters.length = arguments.length := by
    have lengths := congrArg List.length exact_
    rwa [List.length_map] at lengths
  have zipped : arguments.zip arguments = arguments.map fun argument => (argument, argument) :=
    List.zipWith_self
  have fits : (arguments.all fun argument => argument.isSubtype argument) = true :=
    List.all_eq_true.mpr fun argument _ => isSubtype_refl argument
  rw [accept?, if_neg (not_not.mpr sameLength)]
  simp only [exact_, zipped, List.all_map, List.countP_map, Function.comp_def, fits, if_true,
    decide_true, List.countP_true]

/-- Where every type variable occurs at most once in the parameters and a substitution of the
type variables turns these into arguments without errors, inference finds such a substitution.
It binds nothing but type variables, no step of it binds one anew, and the signature accepts the
arguments. -/
theorem accept?_instance (signature : Signature) (arguments : List NominalType)
    (given : Substitution) (givenOnly : ∀ key ∈ given.keys, key ∈ signature.unknowns)
    (linear : ∀ unknown ∈ signature.unknowns,
      (constructorsOfAll signature.parameters).count unknown ≤ 1)
    (isInstance : signature.parameters.map (substitute given) = arguments)
    (sound : ∀ argument ∈ arguments, argument.IsSound) :
    let found := inferAll signature.unknowns signature.parameters arguments .empty
    signature.parameters.map (substitute found) = arguments ∧
      (∀ key ∈ found.keys, key ∈ signature.unknowns) ∧
        (∀ (parameters arguments : List NominalType) (known : Substitution),
          known.Extends signature.unknowns (constructorsOfAll parameters)
            (inferAll signature.unknowns parameters arguments known)) ∧
          signature.accept? arguments = some
            { candidate := signature.candidate
              substitution := found
              result := signature.result.substitute found
              score := arguments.length } := by
  intro found
  have exact_ : signature.parameters.map (substitute found) = arguments := by
    have same := map_substitute_inferAll givenOnly linear (isInstance ▸ sound)
    rwa [isInstance] at same
  have isInferred : signature.inferred arguments = found := signature.inferred_eq arguments
  refine ⟨exact_, fun key isKey => ?_, extends_inferAll signature.unknowns, ?_⟩
  · by_contra notUnknown
    have extended := extends_inferAll signature.unknowns signature.parameters
      arguments .empty
    have unbound := extended.unbound key rfl fun isUnknown => absurd isUnknown notUnknown
    exact Table.get?_eq_none_iff.mp unbound isKey
  · rw [accept?_of_exact (isInferred ▸ exact_), isInferred]

/-- A generic function that is called in its own body, with arguments that mention its type
variables in each other's place. -/
theorem accept?_instance_in_own_body :
    let first : NominalType :=
      { constructor := (Library.typeParameter "own" none "A").constructor }
    let second : NominalType :=
      { constructor := (Library.typeParameter "own" none "B").constructor }
    let seen : Signature :=
      { candidate := .error "own"
        parameters := [Library.list (first.withNullable true), second.withNullable true]
        result := Library.functionType [first] second false
        unknowns := [first.constructor, second.constructor] }
    let arguments :=
      [Library.list ((Library.list second).withNullable true), first.withNullable true]
    let given : Substitution :=
      .ofList [(first.constructor, Library.list second), (second.constructor, first)]
    (∀ key ∈ given.keys, key ∈ seen.unknowns) ∧
      (∀ unknown ∈ seen.unknowns, (constructorsOfAll seen.parameters).count unknown ≤ 1) ∧
        seen.parameters.map (substitute given) = arguments ∧
          (∀ argument ∈ arguments, argument.IsSound) ∧
            (seen.accept? arguments).map Applicable.result =
              some (Library.functionType [Library.list second] first false) := by
  intro first second seen arguments given
  have givenOnly : ∀ key ∈ given.keys, key ∈ seen.unknowns := by decide
  have linear : ∀ unknown ∈ seen.unknowns,
      (constructorsOfAll seen.parameters).count unknown ≤ 1 := by
    decide
  have isInstance : seen.parameters.map (substitute given) = arguments := by decide
  have sound : ∀ argument ∈ arguments, argument.IsSound := by decide
  obtain ⟨-, -, -, accepted⟩ :=
    accept?_instance seen arguments given givenOnly linear isInstance sound
  refine ⟨givenOnly, linear, isInstance, sound, ?_⟩
  rw [accepted]
  decide

end Signature

end Gloss
