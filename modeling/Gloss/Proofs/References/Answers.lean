import Gloss.Proofs.Order.Checks
import Gloss.Proofs.Order.Courses

/-!
# What is written down about a reference

Whatever an inference is told, it writes down an answer for each reference that it meets:
what the reference means, and along with it a report just when there is no target.  The
rest of what it writes down concerns no reference.
-/

namespace Gloss

namespace Problem

/-- The problem is that a reference means nothing. -/
def isMissing : Problem → Bool
  | .unresolvedReference _ | .noneApplicable _ _ _ => true
  | _ => false

/-- The problem is that a reference could mean several things. -/
def isAmbiguity : Problem → Bool
  | .callableReferenceAmbiguity _ _ | .overloadAmbiguity _ _ => true
  | _ => false

theorem isMissing_iff (problem : Problem) :
    problem.isMissing = true ↔
      problem.label = "unresolved-reference" ∨ problem.label = "none-applicable" := by
  cases problem <;> simp [isMissing, label]

theorem isAmbiguity_iff (problem : Problem) :
    problem.isAmbiguity = true ↔
      problem.label = "overload-ambiguity" ∨ problem.label = "callable-reference-ambiguity" := by
  cases problem <;> simp [isAmbiguity, label]

/-- The problem is that the type of a declaration depends on itself. -/
def isRecursion : Problem → Bool
  | .recursiveType _ => true
  | _ => false

theorem isRecursion_iff (problem : Problem) :
    problem.isRecursion = true ↔ problem.label = "recursive-type" := by
  cases problem <;> simp [isRecursion, label]

/-- The problem is about something else than what a reference means, and not found while
the types of others are asked for. -/
def IsOther (problem : Problem) : Prop :=
  problem.isMissing = false ∧ problem.isAmbiguity = false ∧ problem.isRecursion = false

end Problem

namespace Remark

variable {reference : NodeRef} {remarks : List Remark}

/-- The remark is about no reference. -/
def IsAside : Remark → Prop
  | .meaning _ _ => False
  | .problem found => found.problem.IsOther
  | _ => True

/-- What is written down about a reference when it is resolved. -/
inductive Answers (reference : NodeRef) : List Remark → Prop
  | target (target : Descriptor) : Answers reference [.meaning reference (.target target)]
  /-- The reference has a target, and something else is wrong with its use. -/
  | misused (target : Descriptor) {found : Problem} (isOther : found.IsOther) :
      Answers reference
        [.meaning reference (.target target), .problem { problem := found, node := reference }]
  | unresolved {found : Problem} (missing : found.isMissing = true) :
      Answers reference
        [.meaning reference .unresolved, .problem { problem := found, node := reference }]
  | inapplicable {found : Problem} (missing : found.isMissing = true) :
      Answers reference
        [.problem { problem := found, node := reference }, .meaning reference .unresolved]
  | ambiguous (candidates : List Descriptor) {found : Problem}
      (ambiguity : found.isAmbiguity = true) :
      Answers reference
        [.meaning reference (.ambiguous candidates),
          .problem { problem := found, node := reference }]

theorem Answers.filled (answers : Answers reference remarks) :
    filled remarks = Slot.meaning.only reference := by
  funext slot
  cases answers <;> cases slot <;> rfl

/-- A property that what is written down has where it holds of each answer and each aside,
in any order.  Names that stand for expressions are left to be judged where they occur. -/
structure Lenient (holds : List Remark → Prop) : Prop where
  nil : holds []
  append : ∀ {first second}, holds first → holds second → holds (first ++ second)
  perm : ∀ {first second : List Remark}, first.Perm second → holds first → holds second
  aside : ∀ remark, remark.IsAside → holds [remark]
  answers : ∀ {reference remarks}, reference.kind ≠ .name → Answers reference remarks →
    holds remarks

/-- A property that holds, besides, of each report that a declaration depends on itself. -/
structure Tolerant (holds : List Remark → Prop) : Prop extends Lenient holds where
  recursive : ∀ name node, holds [ResolutionState.recursion name node]

end Remark

open Remark

namespace Script

variable {isOpen : NodeRef → Bool} {α β : Type} {holds : List Remark → Prop}
  {script : Script isOpen α} {next : α → Script isOpen β} {nodes later : Slot → Multiset NodeRef}
  {reference : NodeRef}

/-- Whatever the script is told, what it writes down has the property. -/
def Ensures (holds : List Remark → Prop) (script : Script isOpen α) : Prop :=
  ∀ remarks value, script.Runs remarks value → holds remarks

/-- What comes before a script without writing anything down does not matter. -/
theorem Ensures.after (silent : script.Silent) (goesOn : ∀ value, (next value).Ensures holds) :
    (script >>= next).Ensures holds := by
  intro remarks value runs
  obtain ⟨first, earlier, later, runsFirst, runsLater, rfl⟩ := runs_bind_iff.mp runs
  rw [silent _ _ runsFirst]
  exact goesOn first _ _ runsLater

/-- What comes after a script without writing anything down does not matter. -/
theorem Ensures.andThen (ensures : script.Ensures holds) (goesOn : ∀ value, (next value).Silent) :
    (script >>= next).Ensures holds := by
  intro remarks value runs
  obtain ⟨first, earlier, later, runsFirst, runsLater, rfl⟩ := runs_bind_iff.mp runs
  rw [goesOn first _ _ runsLater, List.append_nil]
  exact ensures _ _ runsFirst

/-- Whatever the script is told, it fills the slots of some nodes and what it writes down
has the property. -/
def Keeps (nodes : Slot → Multiset NodeRef) (holds : List Remark → Prop)
    (script : Script isOpen α) : Prop :=
  script.Ensures fun remarks => filled remarks = nodes ∧ holds remarks

theorem Keeps.cast (keeps : script.Keeps nodes holds) (same : nodes = later) :
    script.Keeps later holds :=
  same ▸ keeps

theorem Keeps.of_tell {remark : Remark} (same : filled [remark] = nodes) (held : holds [remark]) :
    (tell remark : Script isOpen Unit).Keeps nodes holds := by
  intro remarks value runs
  rw [runs_tell_iff.mp runs]
  exact ⟨same, held⟩

/-- An answer fills the slot of its reference. -/
theorem Ensures.keeps (ensures : script.Ensures (Answers reference))
    (applied : ∀ remarks, Answers reference remarks → holds remarks) :
    script.Keeps (Slot.meaning.only reference) holds :=
  fun remarks value runs =>
    ⟨(ensures remarks value runs).filled, applied remarks (ensures remarks value runs)⟩

section Lenient

variable (lenient : Lenient holds)

include lenient

theorem Silent.keeps (silent : script.Silent) : script.Keeps 0 holds := by
  intro remarks value runs
  rw [silent remarks value runs]
  exact ⟨rfl, lenient.nil⟩

theorem Keeps.of_pure (value : α) : (pure value : Script isOpen α).Keeps 0 holds :=
  Silent.keeps lenient (.of_pure value)

theorem Keeps.bind (keeps : script.Keeps nodes holds)
    (goesOn : ∀ value, (next value).Keeps later holds) :
    (script >>= next).Keeps (nodes + later) holds := by
  intro remarks value runs
  obtain ⟨first, earlier, others, runsFirst, runsLater, rfl⟩ := runs_bind_iff.mp runs
  obtain ⟨filledFirst, held⟩ := keeps _ _ runsFirst
  obtain ⟨filledLater, heldLater⟩ := goesOn first _ _ runsLater
  rw [filled_append, filledFirst, filledLater]
  exact ⟨rfl, lenient.append held heldLater⟩

/-- A script and then another that fills no slot. -/
theorem Keeps.andThen (keeps : script.Keeps nodes holds)
    (goesOn : ∀ value, (next value).Keeps 0 holds) : (script >>= next).Keeps nodes holds :=
  (keeps.bind lenient goesOn).cast (add_zero nodes)

/-- A script that fills no slot and then another. -/
theorem Keeps.after (keeps : script.Keeps 0 holds)
    (goesOn : ∀ value, (next value).Keeps nodes holds) : (script >>= next).Keeps nodes holds :=
  (keeps.bind lenient goesOn).cast (zero_add nodes)

theorem keeps_report {problem : Problem} (isOther : problem.IsOther) (node : NodeRef) :
    (report problem node : Script isOpen Unit).Keeps 0 holds :=
  .of_tell (filled_problem _) (lenient.aside _ isOther)

theorem keeps_tell_typed (node : NodeRef) (type : NominalType) :
    (tell (.typed node type) : Script isOpen Unit).Keeps (Slot.type.only node) holds :=
  .of_tell (filled_typed node type) (lenient.aside (.typed node type) trivial)

theorem keeps_typed (node : NodeRef) (type : NominalType) :
    (typed node type : Script isOpen NominalType).Keeps (Slot.type.only node) holds :=
  (keeps_tell_typed lenient node type).andThen lenient fun _ => .of_pure lenient _

theorem keeps_expect (actual expected : NominalType) (node : NodeRef) :
    (expect actual expected node : Script isOpen Unit).Keeps 0 holds := by
  unfold expect
  split
  · exact .of_pure lenient _
  · exact keeps_report lenient ⟨rfl, rfl, rfl⟩ _

theorem keeps_expectArguments : ∀ (arguments parameters : List NominalType)
    (expressions : List Tree.Expr),
    (expectArguments arguments parameters expressions : Script isOpen Unit).Keeps 0 holds
  | _ :: arguments, _ :: parameters, _ :: expressions =>
      (keeps_expect lenient _ _ _).andThen lenient fun _ =>
        keeps_expectArguments arguments parameters expressions
  | [], _, _ => .of_pure lenient _
  | _ :: _, [], _ => .of_pure lenient _
  | _ :: _, _ :: _, [] => .of_pure lenient _

theorem keeps_resolveValueCall (call callee : NodeRef) (calleeType : NominalType)
    (argumentTypes : List NominalType) (arguments : List Tree.Expr) :
    (resolveValueCall call callee calleeType argumentTypes arguments :
      Script isOpen NominalType).Keeps 0 holds := by
  unfold resolveValueCall
  split
  · exact .of_pure lenient _
  · cases Library.functionParts? calleeType with
    | none =>
        exact (keeps_report lenient ⟨rfl, rfl, rfl⟩ _).andThen lenient fun _ => .of_pure lenient _
    | some parts =>
        obtain ⟨parameters, result⟩ := parts
        have goesOn : (do
            expectArguments argumentTypes parameters arguments
            return result : Script isOpen NominalType).Keeps 0 holds :=
          (keeps_expectArguments lenient _ _ _).andThen lenient fun _ => .of_pure lenient _
        dsimp only
        split
        · exact (keeps_report lenient ⟨rfl, rfl, rfl⟩ _).andThen lenient fun _ => goesOn
        · exact goesOn

end Lenient

/-! ### Answers -/

theorem runs_write {remark : Option NominalType → Remark} {remarks : List Remark} {value : Unit}
    (runs : (write remark (done ()) : Script isOpen Unit).Runs remarks value) :
    ∃ shown, remarks = [remark shown] := by
  cases runs with
  | write shown runs =>
      rw [(runs_pure_iff.mp runs).1]
      exact ⟨shown, rfl⟩

theorem runs_tell_tell {first second : Remark} {remarks : List Remark} {value : Unit}
    (runs : (do tell first; tell second : Script isOpen Unit).Runs remarks value) :
    remarks = [first, second] := by
  obtain ⟨_, earlier, later, runsFirst, runsLater, rfl⟩ := runs_bind_iff.mp runs
  rw [runs_tell_iff.mp runsFirst, runs_tell_iff.mp runsLater]
  rfl

theorem answers_record (reference : NodeRef) (target : Descriptor) :
    (record reference target : Script isOpen Unit).Ensures (Answers reference) :=
  fun _ _ runs => runs_tell_iff.mp runs ▸ .target target

theorem answers_recordError (reference : NodeRef) (name : String) :
    (recordError reference name : Script isOpen NominalType).Ensures (Answers reference) :=
  (answers_record reference _).andThen fun _ => .of_pure _

theorem answers_unresolved (reference : NodeRef) (name : String) :
    (unresolved reference name : Script isOpen Unit).Ensures (Answers reference) :=
  fun _ _ runs => runs_tell_tell runs ▸ .unresolved rfl

end Script

namespace Surroundings

open Script

variable {around : Surroundings} {holds : List Remark → Prop}

theorem silent_callablesAt (name : String) (levels : List (List (Symbol Descriptor))) :
    (around.callablesAt name levels).Silent := by
  induction levels with
  | nil => exact .of_pure _
  | cons level outer ih =>
      refine (silent_callables _).bind fun found => ?_
      cases found with
      | nil => exact ih
      | cons first rest => exact .of_pure _

theorem silent_shown (descriptor : Descriptor) : (around.shown descriptor).Silent := by
  unfold shown
  split
  · exact .of_pure _
  · split
    · exact .of_pure _
    · split
      · next asked => exact (Silent.of_ask asked).bind fun _ => .of_pure _
      · exact .of_pure _

/-- A call is answered at the name or the operator that it goes by. -/
theorem answers_resolveCall (reference : NodeRef) (name : String) (candidates : List Descriptor)
    (arguments : List NominalType) (receiver : Substitution) :
    (around.resolveCall reference name candidates arguments receiver).Ensures
      (Answers reference) := by
  refine .after (silent_signatures receiver candidates) fun judged => ?_
  cases Choice.among judged arguments with
  | none => exact (answers_unresolved reference name).andThen fun _ => .of_pure _
  | mismatch only =>
      intro remarks value runs
      obtain ⟨_, recorded, later, runsRecord, runsLater, rfl⟩ := runs_bind_iff.mp runs
      obtain ⟨inferred, silent, reported, runsShown, runsReport, rfl⟩ := runs_bind_iff.mp runsLater
      obtain ⟨_, problem, _, runsProblem, runsPure, rfl⟩ := runs_bind_iff.mp runsReport
      obtain ⟨own, rfl⟩ := runs_write runsProblem
      rw [runs_tell_iff.mp runsRecord, silent_shown _ _ _ runsShown, (runs_pure_iff.mp runsPure).1]
      exact .misused _ ⟨rfl, rfl, rfl⟩
  | inapplicable =>
      intro remarks value runs
      obtain ⟨_, reported, later, runsReport, runsLater, rfl⟩ := runs_bind_iff.mp runs
      obtain ⟨_, marked, _, runsMark, runsPure, rfl⟩ := runs_bind_iff.mp runsLater
      rw [runs_tell_iff.mp runsReport, runs_tell_iff.mp runsMark, (runs_pure_iff.mp runsPure).1]
      exact .inapplicable rfl
  | ambiguous winners =>
      intro remarks value runs
      obtain ⟨_, marked, later, runsMark, runsLater, rfl⟩ := runs_bind_iff.mp runs
      obtain ⟨_, reported, _, runsReport, runsPure, rfl⟩ := runs_bind_iff.mp runsLater
      rw [runs_tell_iff.mp runsMark, runs_tell_iff.mp runsReport, (runs_pure_iff.mp runsPure).1]
      exact .ambiguous _ rfl
  | chosen best =>
      refine .after (silent_shown best.candidate) fun inferred => ?_
      refine Ensures.andThen (fun remarks value runs => ?_) fun _ => .of_pure _
      obtain ⟨own, rfl⟩ := runs_write runs
      exact .target _

/-- What a name that stands for an expression means, as it is written down. -/
def valueRemarks (around : Surroundings) (name : Tree.SimpleName) : List Remark :=
  match around.lookup SymbolKind.isValue name.text with
  | [] =>
      [.meaning name.node.ref .unresolved,
        .problem { problem := .unresolvedReference name.text, node := name.node.ref }]
  | symbol :: _ => [.meaning name.node.ref (.target symbol.descriptor)]

theorem answers_valueRemarks (around : Surroundings) (name : Tree.SimpleName) :
    Answers name.node.ref (around.valueRemarks name) := by
  unfold valueRemarks
  cases around.lookup SymbolKind.isValue name.text with
  | nil => exact .unresolved rfl
  | cons symbol rest => exact .target _

theorem ensures_resolveValue (name : Tree.SimpleName) :
    (around.resolveValue name).Ensures fun remarks => remarks = around.valueRemarks name := by
  unfold resolveValue valueRemarks
  cases around.lookup SymbolKind.isValue name.text with
  | nil => exact .andThen (fun _ _ runs => runs_tell_tell runs) fun _ => .of_pure _
  | cons symbol rest =>
      refine .andThen (fun _ _ runs => runs_tell_iff.mp runs) fun _ => ?_
      cases symbol.descriptor with
      | «variable» holder => exact silent_variableType holder
      | _ => exact .of_pure _

section Lenient

variable (lenient : Lenient holds)

include lenient

theorem keeps_valueType (descriptor : Descriptor) :
    (around.valueType descriptor).Keeps 0 holds := by
  cases descriptor with
  | «variable» holder => exact Silent.keeps lenient (silent_variableType holder)
  | invoke called type => exact Silent.keeps lenient (silent_variableType called)
  | function function =>
      refine Keeps.after lenient (Silent.keeps lenient (silent_settle _ _)) fun result => ?_
      exact (Keeps.of_tell (filled_arity _) (lenient.aside (.arity _) trivial)).andThen lenient
        fun _ => .of_pure lenient _
  | _ => exact .of_pure lenient _

variable {name : Tree.SimpleName}
  (applied : ∀ remarks, Answers name.node.ref remarks → holds remarks)

theorem keeps_resolveOperator (left right : NominalType) (reference : Tree.OperatorRef) :
    (around.resolveOperator left right reference).Keeps
      (Slot.meaning.only (Node.operator reference).ref) holds := by
  have applied : ∀ remarks, Answers (Node.operator reference).ref remarks → holds remarks :=
    fun _ answers => lenient.answers (show NodeKind.operator ≠ .name from nofun) answers
  unfold resolveOperator
  dsimp only
  split
  · exact ((answers_recordError _ _).keeps applied).andThen lenient fun _ => .of_pure lenient _
  · obtain ⟨members, substitution⟩ := around.membersOf left reference.operator.memberName
    exact ((answers_resolveCall _ _ _ _ _).keeps applied).andThen lenient fun _ =>
      .of_pure lenient _

include applied

theorem keeps_resolveCallableRef :
    (around.resolveCallableRef name).Keeps
      (Slot.meaning.only name.node.ref + Slot.type.only name.node.ref) holds := by
  unfold resolveCallableRef
  generalize around.lookup (fun kind => kind = .function) name.text = symbols
  match symbols with
  | [] =>
      exact ((answers_unresolved _ _).keeps applied).bind lenient fun _ => keeps_typed lenient _ _
  | [symbol] =>
      refine ((answers_record _ _).keeps applied).bind lenient fun _ => ?_
      exact (keeps_valueType lenient _).after lenient fun _ => keeps_typed lenient _ _
  | first :: second :: rest =>
      have answers : (do
          tell (.meaning name.node.ref
            (.ambiguous ((first :: second :: rest).map Symbol.descriptor)))
          report (.callableReferenceAmbiguity name.text (first :: second :: rest).length)
            name.node.ref : Script around.isOpen Unit).Ensures (Answers name.node.ref) :=
        fun _ _ runs => runs_tell_tell runs ▸ .ambiguous _ rfl
      have whole := (answers.keeps applied).bind lenient fun _ =>
        keeps_typed lenient name.node.ref .error
      exact whole

theorem keeps_resolveSelector (receiver : NominalType) :
    (around.resolveSelector receiver name).Keeps
      (Slot.meaning.only name.node.ref + Slot.type.only name.node.ref) holds := by
  unfold resolveSelector
  split
  · exact ((answers_recordError _ _).keeps applied).bind lenient fun _ => keeps_typed lenient _ _
  · obtain ⟨members, substitution⟩ := around.membersOf receiver name.text
    dsimp only
    cases members.filterMap Resolver.asProperty? with
    | nil =>
        exact ((answers_unresolved _ _).keeps applied).bind lenient fun _ => keeps_typed lenient _ _
    | cons property rest =>
        refine ((answers_record _ _).keeps applied).bind lenient fun _ => ?_
        exact (Silent.keeps lenient (silent_variableType _)).after lenient fun _ =>
          keeps_typed lenient _ _

theorem keeps_resolveMemberCall (receiver : NominalType) (arguments : List NominalType) :
    (around.resolveMemberCall receiver name arguments).Keeps
      (Slot.meaning.only name.node.ref + Slot.type.only name.node.ref) holds := by
  unfold resolveMemberCall
  split
  · exact ((answers_recordError _ _).keeps applied).bind lenient fun _ => keeps_typed lenient _ _
  · obtain ⟨members, substitution⟩ := around.membersOf receiver name.text
    refine (Silent.keeps lenient (silent_callables members)).after lenient fun candidates => ?_
    exact ((answers_resolveCall _ _ _ _ _).keeps applied).bind lenient fun _ =>
      keeps_typed lenient _ _

theorem keeps_resolveNameCall (arguments : List NominalType) :
    (around.resolveNameCall name arguments).Keeps
      (Slot.meaning.only name.node.ref + Slot.type.only name.node.ref) holds := by
  refine (Silent.keeps lenient (silent_callablesAt _ _)).after lenient fun candidates => ?_
  exact ((answers_resolveCall _ _ _ _ _).keeps applied).bind lenient fun _ =>
    keeps_typed lenient _ _

end Lenient

end Surroundings

end Gloss
