import Gloss.Proofs.Typing.Branches
import Gloss.Proofs.Typing.FunctionMembers
import Gloss.Proofs.Typing.Operators

/-!
# Equality of any two values

Whatever can be compared at all has the equality of the top class, unless its own class has
another one.  A property of that name is neither: it hides the equality of the top class, and
then it is passed over because it is no function.
-/

namespace Gloss

open Gloss.Tree ResolutionState

/-- The two sides of an expression with an operator, and the operator between them. -/
def Node.operands? : Node → Option (Expr × OperatorRef × Expr)
  | .expression (.binary _ left use right) => some (left, use, right)
  | _ => none

theorem Node.eq_binary_of_operands? (node : Node) {left right : Expr} {use : OperatorRef}
    (isOperation : node.operands? = some (left, use, right)) :
    ∃ span, (Expr.binary span left use right).node = node := by
  unfold operands? at isOperation
  split at isOperation
  · cases isOperation
    exact ⟨_, rfl⟩
  · cases isOperation

namespace Library

/-- The equality that every class has. -/
def equals : Descriptor := memberFunction "Any" "equals" [("other", any.withNullable true)] boolean

theorem membersNamed_equals : anyClass.membersNamed "equals" = [equals] := by decide

/-- Every value can be compared with. -/
theorem isSubtype_nullable_any (type : NominalType) :
    type.isSubtype (any.withNullable true) = true := by
  have isTop : any.constructor.isTop = true := rfl
  simp [NominalType.isSubtype, isTop]

end Library

namespace ClassEntry

/-- The class has a member with the name that can be called as an operator. -/
def HasFunction (entry : ClassEntry) (name : String) : Prop :=
  ∃ member ∈ entry.membersNamed name, Resolver.isFunction member = true

/-- The class has a property with the name. -/
def HasProperty (entry : ClassEntry) (name : String) : Prop :=
  ∃ member ∈ entry.membersNamed name, (Resolver.asProperty? member).isSome

instance (entry : ClassEntry) (name : String) : Decidable (entry.HasFunction name) := by
  unfold HasFunction
  infer_instance

instance (entry : ClassEntry) (name : String) : Decidable (entry.HasProperty name) := by
  unfold HasProperty
  infer_instance

end ClassEntry

/-! ### Calls of the equality -/

namespace Surroundings

open Script

variable {around : Surroundings} {reference : NodeRef} {name : String} {right type : NominalType}
  {arguments : List NominalType} {receiver : Substitution} {remarks : List Remark}

/-- The equality of the top class accepts everything. -/
theorem meaning_mem_of_equals (stays : receiver.get? Library.any.constructor = none)
    (runs : (around.resolveCall reference "equals" [Library.equals] [right] receiver).Runs
      remarks type) : .meaning reference (.target Library.equals) ∈ remarks := by
  have parameter : (Library.any.withNullable true).substitute receiver =
      Library.any.withNullable true := NominalType.substitute_of_get?_eq_none stays
  let judged : Signature :=
    { candidate := Library.equals, parameters := [Library.any.withNullable true]
      result := Library.boolean.substitute receiver, unknowns := [] }
  have fits : Substitution.Fits .empty [right] judged.parameters :=
    Substitution.fits_empty_iff.mpr (.cons (Library.isSubtype_nullable_any right) .nil)
  obtain ⟨applicable, accepted⟩ := Option.isSome_iff_exists.mp
    ((judged.accept?_of_noUnknowns [right] rfl).1.mpr fits)
  have chosen : Choice.among [judged] [right] = .chosen applicable := by
    rw [Choice.among_singleton, accepted]
  have isJudged : around.signatures receiver [Library.equals] = pure [judged] := by
    unfold judged
    rw [← parameter]
    rfl
  have isEquals : applicable.candidate = Library.equals := Choice.candidate_of_accept? accepted
  obtain ⟨candidate, substitution, result, score⟩ := applicable
  subst isEquals
  rw [resolveCall, isJudged, pure_bind] at runs
  simp only [chosen] at runs
  have written : .meaning reference (.target Library.equals) :: [] = remarks ∧ result = type := by
    cases runs with
    | write shown runs =>
        cases runs
        exact ⟨rfl, rfl⟩
  exact written.1 ▸ List.mem_cons_self

/-- Where there is no candidate the reference is unresolved. -/
theorem meaning_mem_of_noCandidates
    (runs : (around.resolveCall reference name [] arguments receiver).Runs remarks type) :
    .meaning reference .unresolved ∈ remarks := by
  have resolves : around.resolveCall reference name [] arguments receiver = (do
      Script.unresolved reference name
      return .error) := rfl
  rw [resolves] at runs
  obtain ⟨_, _, _, runsUnresolved, -, rfl⟩ := runs_bind_iff.mp runs
  obtain ⟨_, _, _, runsMark, -, rfl⟩ := runs_bind_iff.mp runsUnresolved
  rw [runs_tell_iff.mp runsMark]
  simp

/-- An operator other than on an error is a call of a function of its left side. -/
theorem exists_call_of_runs {span : Span} {left operand : Expr} {use : OperatorRef}
    (runs : (around.infer (.binary span left use operand)).Runs remarks type) :
    ∃ leftType, .typed left.node.ref leftType ∈ remarks ∧
      (leftType.isError = false → ∃ rightType found own,
        (around.resolveCall (Node.operator use).ref use.operator.memberName
          ((around.membersOf leftType use.operator.memberName).1.filter Resolver.isFunction)
          [rightType] (around.membersOf leftType use.operator.memberName).2).Runs own found ∧
          own ⊆ remarks) := by
  rw [infer] at runs
  obtain ⟨leftType, _, _, runsLeft, afterLeft, rfl⟩ := runs_bind_iff.mp runs
  obtain ⟨rightType, _, _, -, afterRight, rfl⟩ := runs_bind_iff.mp afterLeft
  obtain ⟨_, _, _, runsOperator, -, rfl⟩ := runs_bind_iff.mp afterRight
  refine ⟨leftType, List.mem_append_left _ (records_infer left _ _ runsLeft), fun sound => ?_⟩
  rw [resolveOperator, sound, if_neg Bool.false_ne_true] at runsOperator
  obtain ⟨found, own, _, runsCall, -, rfl⟩ := runs_bind_iff.mp runsOperator
  refine ⟨rightType, found, own, runsCall, fun remark isWritten => ?_⟩
  simp [isWritten]

end Surroundings

/-! ### What is found of the equality -/

namespace ResolutionState

variable {contents : List TopLevel} {base other : ResolutionState} {around : Surroundings}
  {receiver : NominalType} {entry : ClassEntry} {constructor : TypeConstructor}

/-- Where the same is declared there are the same classes. -/
theorem Laid.class?_eq (laid : base.Laid contents) (laidOther : other.Laid contents) :
    base.class? = other.class? := by
  have same (constructor : TypeConstructor) :
      base.classes.get? constructor = other.classes.get? constructor := by
    rcases laid.get?_classes constructor with ⟨declaration, isClass, rfl, found⟩ | ⟨noClass, found⟩
    · rw [found, laidOther.entries declaration isClass]
    · rw [found, laidOther.noClass constructor noClass]
  funext constructor
  simp only [class?, same]

/-- The type parameters of a class are told from classes. -/
theorem Laid.kind_of_mem_typeParameters (laid : base.Laid contents)
    (found : base.class? constructor = some entry) :
    ∀ parameter ∈ entry.descriptor.typeParameters, parameter.constructor.kind = .typeParameter := by
  unfold class? at found
  split at found
  · cases found
    intro parameter isParameter
    obtain ⟨index, -, rfl⟩ := List.mem_map.mp isParameter
    rfl
  · have library : ∀ entry ∈ Library.classes, ∀ parameter ∈ entry.descriptor.typeParameters,
        parameter.constructor.kind = .typeParameter := by decide
    exact library entry (List.mem_of_find?_eq_some found)
  · rcases laid.get?_classes constructor with ⟨declaration, -, -, isEntry⟩ | ⟨-, none⟩
    · rw [isEntry] at found
      cases found
      intro parameter isParameter
      obtain ⟨written, -, rfl⟩ := List.mem_map.mp isParameter
      rfl
    · rw [none] at found
      cases found
  · cases found

/-- Without a property of that name, what has no equality of its own has that of the top class. -/
theorem Laid.membersOf_equals (laid : base.Laid contents) (same : around.class? = base.class?)
    (noFunction : ∀ entry, base.class? receiver.constructor = some entry →
      ¬ entry.HasFunction "equals")
    (noProperty : ∀ entry, base.class? receiver.constructor = some entry →
      ¬ entry.HasProperty "equals") :
    (around.membersOf receiver "equals").1 = [Library.equals] ∧
      (around.membersOf receiver "equals").2.get? Library.any.constructor = none := by
  rw [Surroundings.membersOf, same]
  cases found : base.class? receiver.constructor with
  | none => exact ⟨Library.membersNamed_equals, rfl⟩
  | some entry =>
      have noMember : entry.membersNamed "equals" = [] := by
        apply List.eq_nil_iff_forall_not_mem.mpr
        intro member isMember
        rcases laid.isFunction_or_isProperty found (List.mem_of_mem_filter isMember) with
          isFunction | isProperty
        · exact noFunction entry found ⟨member, isMember, isFunction⟩
        · exact noProperty entry found ⟨member, isMember, isProperty⟩
      simp only [noMember, List.isEmpty_nil, if_true]
      exact ⟨Library.membersNamed_equals, Resolver.get?_instancesIn_of_isClass
        (laid.kind_of_mem_typeParameters found) receiver rfl⟩

/-- A property of that name hides the equality of the top class, and is no function. -/
theorem filter_membersOf_eq_nil (same : around.class? = base.class?)
    (found : base.class? receiver.constructor = some entry)
    (noFunction : ¬ entry.HasFunction "equals") (property : entry.HasProperty "equals") :
    (around.membersOf receiver "equals").1.filter Resolver.isFunction = [] := by
  obtain ⟨member, isMember, -⟩ := property
  have notEmpty : (entry.membersNamed "equals").isEmpty = false := by
    rw [List.isEmpty_eq_false_iff_exists_mem]
    exact ⟨member, isMember⟩
  rw [Surroundings.membersOf, same, found]
  simp only [notEmpty, Bool.false_eq_true, if_false]
  exact List.filter_eq_nil_iff.mpr fun other isOther isFunction =>
    noFunction ⟨other, isOther, isFunction⟩

end ResolutionState

/-! ### Comparisons in files -/

namespace Resolution

variable {name : String} {text : List Char} {resolution : Resolution} {node : Node}
  {left right : Expr} {use : OperatorRef} {type : NominalType}

theorem class?_eq_of_laid (readable : read name text = .ok resolution)
    {base : ResolutionState} (laid : base.Laid resolution.file.declarations) :
    resolution.state.class? = base.class? := by
  obtain ⟨file, parsed, rfl⟩ := eq_ofFile_of_read readable
  obtain ⟨other, laidOther, -, continues⟩ :=
    exists_played file (Grammar.wellPlaced_of_read parsed).fillsOnce
  have classes : (ofFile name text file).state.classes = other.classes := continues.classes
  rw [laid.class?_eq laidOther]
  funext constructor
  rw [class?, class?, classes]

/-- What was written down about a reference is found. -/
theorem holds_of_meaning_mem {base : ResolutionState} {total : List Remark}
    (unfolds : Unfolds resolution.file.declarations base resolution.state total)
    (once : TopLevel.FillsOnce resolution.file.declarations) {reference : NodeRef}
    {meant : Meaning Descriptor} (isWritten : .meaning reference meant ∈ total) :
    resolution.state.bindings.Holds reference (some meant) := by
  have distinct := unfolds.nodup_total once .meaning
  have bindings := congrArg Journal.bindings unfolds.journal
  change resolution.state.bindings = _ at bindings
  have found : Table.lookupIn reference (total.filterMap Remark.meaning?) = some meant := by
    rw [← Journal.map_fst_filterMap_meaning?] at distinct
    exact (Table.lookupIn_eq_some_iff distinct).mpr
      (List.mem_filterMap.mpr ⟨_, isWritten, rfl⟩)
  rw [bindings, ← found]
  exact Journal.holds_remarkAll distinct reference

/-- Where the left side of a comparison has a type that is no error, and a class that declares no
function named `equals`, the comparison goes to the equality of the top class unless that class
has a property of the name.  If it has one, nothing is found. -/
theorem target?_eq_equals_iff (readable : read name text = .ok resolution)
    (inFile : node ∈ resolution.file.nodes)
    (isOperation : node.operands? = some (left, use, right))
    (compares : use.operator = .equal ∨ use.operator = .unequal) :
    ∃ type, resolution.type? left.node.ref = some type ∧ (type.isError = false →
      (∀ entry, resolution.state.class? type.constructor = some entry →
        ¬ entry.HasFunction "equals") →
        ((∀ entry, resolution.state.class? type.constructor = some entry →
            ¬ entry.HasProperty "equals") ↔
          resolution.target? (Node.operator use).ref = some Library.equals ∧
            resolution.isUnresolved (Node.operator use).ref = false)) := by
  obtain ⟨span, rfl⟩ := node.eq_binary_of_operands? isOperation
  obtain ⟨once, base, total, unfolds⟩ := exists_unfolds_of_read readable
  have isInferred : (Expr.binary span left use right).IsInferred := trivial
  obtain ⟨around, own, whole, same, runs, included⟩ :=
    exists_runs_of_isInferred readable isInferred inFile unfolds
  obtain ⟨type, isTyped, calls⟩ := Surroundings.exists_call_of_runs runs
  have isNamed : use.operator.memberName = "equals" := by
    rcases compares with isEqual | isUnequal
    · rw [isEqual]
      rfl
    · rw [isUnequal]
      rfl
  have found {meant : Meaning Descriptor}
      (isWritten : .meaning (Node.operator use).ref meant ∈ own) :
      resolution.state.bindings.Holds (Node.operator use).ref (some meant) :=
    holds_of_meaning_mem unfolds once (included isWritten)
  refine ⟨type, (type?_eq_some_iff unfolds once).mpr (included isTyped), fun sound noFunction => ?_⟩
  rw [class?_eq_of_laid readable unfolds.laid] at noFunction ⊢
  obtain ⟨rightType, result, remarks, runsCall, within⟩ := calls sound
  rw [isNamed] at runsCall
  by_cases noProperty : ∀ entry, base.class? type.constructor = some entry →
      ¬ entry.HasProperty "equals"
  · obtain ⟨members, stays⟩ := unfolds.laid.membersOf_equals same noFunction noProperty
    have isFunction : [Library.equals].filter Resolver.isFunction = [Library.equals] := rfl
    rw [members, isFunction] at runsCall
    have holds := found (within (Surroundings.meaning_mem_of_equals stays runsCall))
    exact iff_of_true noProperty ⟨holds.target?_eq, holds.isUnresolved_eq⟩
  · refine iff_of_false noProperty fun ⟨_, isResolved⟩ => ?_
    push Not at noProperty
    obtain ⟨entry, isClass, property⟩ := noProperty
    rw [filter_membersOf_eq_nil same isClass (noFunction entry isClass) property] at runsCall
    have holds := found (within (Surroundings.meaning_mem_of_noCandidates runsCall))
    have isUnresolved : resolution.isUnresolved (Node.operator use).ref = true :=
      holds.isUnresolved_eq
    rw [isUnresolved] at isResolved
    cases isResolved

/-- What has the type of a type parameter is compared with the equality of the top class. -/
theorem target?_eq_equals_of_type_parameter :
    ∃ resolution node left use right type,
      read "sample" "fun <T> f(a: T) = a == 1".toList = .ok resolution ∧
        node ∈ resolution.file.nodes ∧ node.operands? = some (left, use, right) ∧
          (use.operator = .equal ∨ use.operator = .unequal) ∧
            resolution.type? left.node.ref = some type ∧ type.isTypeParameter = true ∧
              resolution.target? (Node.operator use).ref = some Library.equals ∧
                resolution.isUnresolved (Node.operator use).ref = false := by
  have checked :
      ((read "sample" "fun <T> f(a: T) = a == 1".toList).toOption.any fun resolution =>
        decide (∃ node ∈ resolution.file.nodes, ∃ operands ∈ node.operands?,
          operands.2.1.operator = .equal ∧ ∃ type ∈ resolution.type? operands.1.node.ref,
            type.isTypeParameter = true ∧ type.isError = false ∧
              resolution.state.class? type.constructor = none)) = true := by
    decide +kernel
  obtain ⟨resolution, readable, node, inFile, ⟨left, use, right⟩, isOperation, isEqual, type,
    isLeft, isParameter, sound, noClass⟩ := exists_of_read checked
  obtain ⟨found, isTyped, compared⟩ :=
    target?_eq_equals_iff readable inFile isOperation (.inl isEqual)
  cases isLeft.symm.trans isTyped
  have hasNone (condition : ClassEntry → Prop) :
      ∀ entry, resolution.state.class? type.constructor = some entry → ¬ condition entry := by
    intro entry isClass
    rw [noClass] at isClass
    cases isClass
  obtain ⟨target, isResolved⟩ := (compared sound (hasNone _)).mp (hasNone _)
  exact ⟨resolution, node, left, use, right, type, readable, inFile, isOperation, .inl isEqual,
    isLeft, isParameter, target, isResolved⟩

/-- A property called `equals` hides the equality that every class has. -/
theorem not_target?_eq_equals_of_property :
    ∃ resolution node left use right type,
      read "sample" "class C(val equals: Int)\nval a = C(1) == C(2)".toList = .ok resolution ∧
        node ∈ resolution.file.nodes ∧ node.operands? = some (left, use, right) ∧
          use.operator = .equal ∧ resolution.type? left.node.ref = some type ∧
            type.isError = false ∧
              (∀ entry ∈ resolution.state.class? type.constructor, ¬ entry.HasFunction "equals") ∧
                resolution.target? (Node.operator use).ref = none ∧
                  resolution.isUnresolved (Node.operator use).ref = true := by
  have checked :
      ((read "sample" "class C(val equals: Int)\nval a = C(1) == C(2)".toList).toOption.any
        fun resolution => decide (∃ node ∈ resolution.file.nodes, ∃ operands ∈ node.operands?,
          operands.2.1.operator = .equal ∧ ∃ type ∈ resolution.type? operands.1.node.ref,
            type.isError = false ∧
              (∀ entry ∈ resolution.state.class? type.constructor, ¬ entry.HasFunction "equals") ∧
                resolution.target? (Node.operator operands.2.1).ref = none ∧
                  resolution.isUnresolved (Node.operator operands.2.1).ref = true)) = true := by
    decide +kernel
  obtain ⟨resolution, readable, node, inFile, ⟨left, use, right⟩, isOperation, isEqual, type,
    isLeft, rest⟩ := exists_of_read checked
  exact ⟨resolution, node, left, use, right, type, readable, inFile, isOperation, isEqual, isLeft,
    rest⟩

end Resolution

end Gloss
