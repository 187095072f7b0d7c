import Gloss.Proofs.Confinement.Realms
import Gloss.Proofs.Order.Checks
import Gloss.Proofs.Recursion.Questions

/-!
# What scripts write down about types

A setting says what is known and written down about a file, as far as it concerns the places of
a realm.  No problem is reported there, classes have held members, and what references leave
open counts as left open.  A script assures something about its outcome in a setting if this
follows from everything that it writes down being written.
-/

namespace Gloss

/-! ### Meanings -/

namespace Realm

/-- What a name means has held types, as far as they are known.  The type parameters of a
function are in scope in its own types. -/
def Describes (realm : Realm) (known : InferredTypes) : Descriptor → Prop
  | .class declared =>
      declared.constructor.kind = .class ∧
        (∀ parameter ∈ declared.typeParameters, realm.base.class? parameter.constructor = none) ∧
          ∀ entry, realm.base.class? declared.constructor = some entry →
            entry.descriptor = declared
  | .typeParameter declared =>
      realm.base.class? declared.constructor = none ∧ declared.constructor ∈ realm.parameters
  | .function declared =>
      (∀ parameter ∈ declared.parameters,
          (realm.declaring declared.typeParameters).Holds parameter.type) ∧
        ∀ type, declared.returnType? known = some type →
          (realm.declaring declared.typeParameters).Holds type
  | .variable holder => ∀ type, holder.type? known = some type → realm.Holds type
  | .invoke called type =>
      (∀ type, called.type? known = some type → realm.Holds type) ∧ realm.Holds type
  | .specialized _ => False
  | .error _ => True

/-- A symbol with a meaning that is described; a class goes by a symbol for classes. -/
structure Introduces (realm : Realm) (known : InferredTypes) (symbol : Symbol Descriptor) :
    Prop where
  describes : realm.Describes known symbol.descriptor
  isClass : ∀ declared, symbol.descriptor = .class declared → symbol.kind = .class

/-- The members of a class and the parameters of its constructor have held types, where the type
parameters of the class are in scope. -/
structure Provides (realm : Realm) (known : InferredTypes) (entry : ClassEntry) : Prop where
  members : ∀ member ∈ entry.members,
    (realm.within
      (entry.descriptor.typeParameters.map TypeParameterDescriptor.constructor)).Describes known
        member
  ordinary : ∀ member ∈ entry.members,
    Resolver.isFunction member = true ∨ (Resolver.asProperty? member).isSome
  parameters : ∀ parameter ∈ entry.parameters,
    (realm.within
      (entry.descriptor.typeParameters.map TypeParameterDescriptor.constructor)).Holds
        parameter.type

variable {realm : Realm} {known : InferredTypes} {descriptor : Descriptor}
  {parameters : List TypeConstructor}

theorem Describes.mono (describes : realm.Describes known descriptor)
    (subset : realm.parameters ⊆ parameters) :
    (realm.within parameters).Describes known descriptor := by
  have deeper (declared : FunctionDescriptor) {type : NominalType}
      (holds : (realm.declaring declared.typeParameters).Holds type) :
      ((realm.within parameters).declaring declared.typeParameters).Holds type :=
    holds.mono (List.append_subset.mpr ⟨List.subset_append_left _ _,
      List.Subset.trans subset (List.subset_append_right _ _)⟩)
  cases descriptor with
  | «class» | error => exact describes
  | typeParameter => exact ⟨describes.1, subset describes.2⟩
  | function declared =>
      exact ⟨fun parameter isParameter => deeper declared (describes.1 parameter isParameter),
        fun type isKnown => deeper declared (describes.2 type isKnown)⟩
  | «variable» => exact fun type isKnown => (describes type isKnown).mono subset
  | invoke =>
      exact ⟨fun type isKnown => (describes.1 type isKnown).mono subset, describes.2.mono subset⟩
  | specialized => exact describes.elim

/-- A class with its own type parameters as arguments. -/
theorem Describes.holds_defaultType {declared : ClassDescriptor}
    (describes : realm.Describes known (.class declared)) :
    (realm.declaring declared.typeParameters).Holds declared.defaultType := by
  obtain ⟨isClass, areParameters, isEntry⟩ := describes
  refine .intro (.inl isClass) (fun entry found => ?_) (List.forall_mem_map.mpr ?_)
  · rw [isEntry entry found]
    exact List.length_map _
  · intro parameter isParameter
    exact (realm.declaring declared.typeParameters).holds_parameter
      (areParameters parameter isParameter)
      (List.mem_append_left _ (List.mem_map_of_mem isParameter)) (List.forall_mem_nil _) false

end Realm

/-- What a constructor takes and comes to, as a call sees it. -/
def ResolutionState.constructorSignature (state : ResolutionState) (owner : ClassDescriptor) :
    Signature where
  candidate := .class owner
  parameters := (((state.class? owner.constructor).map ClassEntry.parameters).getD []).map
    ParameterDescriptor.type
  result := owner.defaultType
  unknowns := owner.typeParameters.map TypeParameterDescriptor.constructor

/-- What is written down about a file where nothing is reported.  All that its references leave
open is left open in the realm. -/
structure Account extends Realm where
  written : Remark → Prop
  /-- The nodes that lie around the places of the realm. -/
  inside : Node → Prop
  noProblem : ∀ found, ¬ written (.problem found)
  child : ∀ node, inside node → ∀ below ∈ node.children, inside below
  callableRef : ∀ span target function, inside (Tree.Expr.callableRef span target).node →
    written (.meaning target.node.ref (.target (.function function))) →
      ∀ parameter ∈ function.typeParameters, leftOpen parameter.constructor
  specialized : ∀ reference specialized,
    written (.meaning reference (.target (.specialized specialized))) →
      ∀ parameter ∈ specialized.generic.typeParameters,
        specialized.substitution.get? parameter.constructor = none →
          leftOpen parameter.constructor
  constructed : ∀ span name arguments types owner,
    inside (Tree.Expr.call span (.name name) arguments).node →
      written (.meaning name.node.ref (.target (.class owner))) →
        List.Forall₂ (fun (argument : Tree.Expr) type => written (.typed argument.node.ref type))
            arguments types →
          ∀ parameter ∈ owner.typeParameters,
            ((base.constructorSignature owner).inferred types).get? parameter.constructor =
              none → leftOpen parameter.constructor
  invoked : ∀ span memberSpan receiver selector arguments property type,
    inside (Tree.Expr.call span (.member memberSpan receiver selector) arguments).node →
      written (.meaning selector.node.ref (.target (.invoke (.property property) type))) →
        ∀ constructor ∈ type.constructors, leftOpen constructor

/-- An account with the types that are known.  All members of classes have held types. -/
structure Setting extends Account where
  known : InferredTypes
  provides : ∀ constructor entry, base.class? constructor = some entry →
    toRealm.Provides known entry

/-- The account of the places in a node where other type parameters are in scope. -/
def Account.narrow (account : Account) (parameters : List TypeConstructor) {root : Node}
    (inside : account.inside root) : Account where
  toRealm := account.within parameters
  written := account.written
  inside := (· ∈ root.subtree)
  noProblem := account.noProblem
  child _ isInside below isBelow :=
    root.subtree_subset isInside (Node.mem_subtree_of_child isBelow below.mem_subtree_self)
  callableRef span target function isInside :=
    account.callableRef span target function (root.forall_mem_subtree account.child inside _ isInside)
  specialized := account.specialized
  constructed span name arguments types owner isInside :=
    account.constructed span name arguments types owner
      (root.forall_mem_subtree account.child inside _ isInside)
  invoked span memberSpan receiver selector arguments property type isInside :=
    account.invoked span memberSpan receiver selector arguments property type
      (root.forall_mem_subtree account.child inside _ isInside)

namespace Setting

/-- The type that is written down for an expression is held, and the expression lies in the
declaration. -/
def Permits (setting : Setting) (node : NodeRef) (type : NominalType) : Prop :=
  node.kind.isExpression = true →
    setting.Holds type ∧ ∃ here, setting.inside here ∧ here.ref = node

/-- A type is held and written down for a node. -/
def Gives (setting : Setting) (node : NodeRef) (type : NominalType) : Prop :=
  setting.Holds type ∧ setting.written (.typed node type)

end Setting

/-! ### Scripts -/

namespace Script

variable {isOpen : NodeRef → Bool} {α β : Type} {setting : Setting}

/-- Where all that a script writes down is written, it comes to something accepted and writes
down permitted types only. -/
def Assures (setting : Setting) (accept : α → Prop) (script : Script isOpen α) : Prop :=
  ∀ found, script.outcome setting.known = some found →
    (∀ remark ∈ found.2, setting.written remark) →
      accept found.1 ∧ ∀ node type, .typed node type ∈ found.2 → setting.Permits node type

namespace Assures

variable {accept : α → Prop} {acceptLast : β → Prop} {script : Script isOpen α}
  {next : α → Script isOpen β}

theorem of_pure {value : α} (accepted : accept value) :
    (pure value : Script isOpen α).Assures setting accept := by
  intro found outcome _
  cases outcome
  exact ⟨accepted, fun _ _ isWritten => absurd isWritten List.not_mem_nil⟩

theorem bind (assures : script.Assures setting accept)
    (goesOn : ∀ value, accept value → (next value).Assures setting acceptLast) :
    (script >>= next).Assures setting acceptLast := by
  intro found outcome written
  rw [outcome_bind] at outcome
  obtain ⟨⟨value, earlier⟩, isFirst, isLater⟩ := Option.bind_eq_some_iff.mp outcome
  obtain ⟨⟨last, later⟩, isLast, rfl⟩ := Option.map_eq_some_iff.mp isLater
  obtain ⟨writtenEarlier, writtenLater⟩ := List.forall_mem_append.mp written
  obtain ⟨accepted, permittedEarlier⟩ := assures _ isFirst writtenEarlier
  obtain ⟨acceptedLast, permittedLater⟩ := goesOn value accepted _ isLast writtenLater
  refine ⟨acceptedLast, fun node type isWritten => ?_⟩
  rcases List.mem_append.mp isWritten with isEarlier | isLater
  · exact permittedEarlier node type isEarlier
  · exact permittedLater node type isLater

theorem weaken (assures : script.Assures setting accept) {goal : α → Prop}
    (weaker : ∀ value, accept value → goal value) : script.Assures setting goal :=
  fun found outcome written =>
    ⟨weaker _ (assures found outcome written).1, (assures found outcome written).2⟩

/-- Where a script is never at its end, nothing can come after it. -/
theorem absurd (assures : script.Assures setting fun _ => False) :
    (script >>= next).Assures setting acceptLast :=
  assures.bind fun _ impossible => impossible.elim

theorem of_ask {node : NodeRef} (asked : isOpen node = true) {accept : NominalType → Prop}
    (accepted : ∀ type, setting.known.get? node = some type → accept type) :
    (ask node asked done).Assures setting accept := by
  intro found outcome _
  obtain ⟨type, isKnown, isOutcome⟩ := Option.bind_eq_some_iff.mp outcome
  cases isOutcome
  exact ⟨accepted type isKnown, fun _ _ isWritten => (List.not_mem_nil isWritten).elim⟩

end Assures

theorem assures_write (remark : Option NominalType → Remark)
    (notTyped : (remark none).typed? = none) :
    (write remark (done ()) : Script isOpen Unit).Assures setting
      fun _ => setting.written (remark none) := by
  intro found outcome written
  cases outcome
  refine ⟨written _ (List.mem_singleton_self _), fun node type isWritten => ?_⟩
  rw [← List.mem_singleton.mp isWritten] at notTyped
  cases notTyped

theorem assures_record (reference : NodeRef) (target : Descriptor) :
    (record reference target : Script isOpen Unit).Assures setting
      fun _ => setting.written (.meaning reference (.target target)) :=
  assures_write _ rfl

/-- Nothing is reported. -/
theorem assures_report (problem : Problem) (node : NodeRef) :
    (report problem node : Script isOpen Unit).Assures setting fun _ => False :=
  (assures_write (fun _ => .problem { problem, node }) rfl).weaken fun _ =>
    setting.noProblem { problem, node }

theorem assures_unresolved (reference : NodeRef) (name : String) :
    (unresolved reference name : Script isOpen Unit).Assures setting fun _ => False :=
  (assures_write (fun _ => .meaning reference .unresolved) rfl).bind fun _ _ =>
    assures_report _ _

theorem assures_recordError (reference : NodeRef) (name : String) :
    (recordError reference name : Script isOpen NominalType).Assures setting setting.Holds :=
  (assures_record reference (.error name)).bind fun _ _ => .of_pure setting.holds_error

theorem assures_expect (actual expected : NominalType) (node : NodeRef) :
    (expect actual expected node : Script isOpen Unit).Assures setting fun _ => True := by
  unfold expect
  split
  · exact .of_pure trivial
  · exact (assures_report _ _).weaken fun _ => False.elim

theorem assures_tell_typed {here : Node} (inside : setting.inside here) {type : NominalType}
    (holds : setting.Holds type) :
    (tell (.typed here.ref type) : Script isOpen Unit).Assures setting fun _ =>
      setting.Gives here.ref type := by
  intro found outcome written
  cases outcome
  refine ⟨⟨holds, written _ (List.mem_singleton_self _)⟩, fun node other isWritten _ => ?_⟩
  cases List.mem_singleton.mp isWritten
  exact ⟨holds, here, inside, rfl⟩

theorem assures_typed {here : Node} (inside : setting.inside here) {type : NominalType}
    (holds : setting.Holds type) :
    (typed here.ref type : Script isOpen NominalType).Assures setting
      (setting.Gives here.ref) :=
  (assures_tell_typed inside holds).bind fun _ gives => .of_pure gives

theorem assures_typed_holds {here : Node} (inside : setting.inside here) {type : NominalType}
    (holds : setting.Holds type) :
    (typed here.ref type : Script isOpen NominalType).Assures setting setting.Holds :=
  (assures_typed inside holds).weaken fun _ => And.left

theorem assures_expectArguments (types parameters : List NominalType)
    (arguments : List Tree.Expr) :
    (expectArguments types parameters arguments : Script isOpen Unit).Assures setting
      fun _ => True := by
  fun_induction expectArguments types parameters arguments with
  | case1 type types parameter parameters argument arguments ih =>
      exact (assures_expect _ _ _).bind fun _ _ => ih
  | case2 => exact .of_pure trivial

/-- What a held function type returns is held. -/
theorem assures_resolveValueCall (call callee : NodeRef) {calleeType : NominalType}
    (holds : setting.Holds calleeType) (types : List NominalType) (arguments : List Tree.Expr) :
    (resolveValueCall call callee calleeType types arguments :
      Script isOpen NominalType).Assures setting setting.Holds := by
  unfold resolveValueCall
  split
  · exact .of_pure setting.holds_error
  · cases parts : Library.functionParts? calleeType with
    | none => exact (assures_report _ _).absurd
    | some found =>
        obtain ⟨parameters, result⟩ := found
        have holdsResult := Realm.holds_of_functionParts? holds parts
        have called : (do
            expectArguments types parameters arguments
            return result : Script isOpen NominalType).Assures setting setting.Holds :=
          (assures_expectArguments types parameters arguments).bind fun _ _ =>
            .of_pure holdsResult
        dsimp only
        split
        · exact (assures_report _ _).absurd
        · exact called

end Script

end Gloss
