import Gloss.Proofs.Order.Courses
import Gloss.Proofs.References.Answers
import Gloss.Proofs.Tree.Subtree

/-!
# What an inference asks for

An inference asks for the open types of what its names can mean, candidates that it turns
down later among them.  Whatever it then takes as the target of a reference, it has asked for
the type of that.
-/

namespace Gloss

namespace Node

/-- The name that a reference goes by: a simple name, or the member behind an operator. -/
def word? : Node → Option String
  | .expression (.name name) => some name.text
  | .operator use => some use.operator.memberName
  | _ => none

/-- A reference at the node or below it goes by the name. -/
def Mentions (node : Node) (word : String) : Prop :=
  ∃ below ∈ node.subtree, below.word? = some word

variable {node child : Node} {word : String}

theorem Mentions.self (isWord : node.word? = some word) : node.Mentions word :=
  ⟨node, mem_subtree_iff.mpr (.inl rfl), isWord⟩

theorem Mentions.of_child (isChild : child ∈ node.children) (mentions : child.Mentions word) :
    node.Mentions word := by
  obtain ⟨below, isBelow, isWord⟩ := mentions
  exact ⟨below, mem_subtree_iff.mpr (.inr ⟨child, isChild, isBelow⟩), isWord⟩

end Node

/-- The target that a remark gives to a reference. -/
def Remark.target? : Remark → Option Descriptor
  | .meaning _ (.target target) => some target
  | _ => none

namespace Script

variable {isOpen : NodeRef → Bool} {replies : Replies} {remarks : List Remark}

theorem Trail.of_write {remark : Option NominalType → Remark} {value : Unit}
    (trail : (Script.write remark (Script.done ()) : Script isOpen Unit).Trail replies remarks
      value) :
    replies = [] ∧ ∃ shown, remarks = [remark shown] := by
  cases trail with
  | write shown trail =>
      obtain ⟨rfl, rfl, -⟩ := trail_pure_iff.mp trail
      exact ⟨rfl, shown, rfl⟩

theorem Trail.of_tell {remark : Remark} {value : Unit}
    (trail : (tell remark : Script isOpen Unit).Trail replies remarks value) :
    replies = [] ∧ remarks = [remark] := by
  obtain ⟨rfl, -, rfl⟩ := Trail.of_write trail
  exact ⟨rfl, rfl⟩

theorem Trail.of_ask {node : NodeRef} {asked : isOpen node = true} {value : NominalType}
    (trail : (Script.ask node asked Script.done : Script isOpen NominalType).Trail replies remarks
      value) :
    replies = [(node, value)] := by
  cases trail with
  | ask type trail =>
      obtain ⟨rfl, -, rfl⟩ := trail_pure_iff.mp trail
      rfl

end Script

namespace Surroundings

/-- What a name can mean: a symbol that is seen, or a member of some class. -/
inductive Offers (around : Surroundings) : String → Descriptor → Prop
  | symbol {level : List (Symbol Descriptor)} {symbol : Symbol Descriptor}
      (isLevel : level ∈ around.levels) (isSymbol : symbol ∈ level) :
      Offers around symbol.name symbol.descriptor
  | member {constructor : TypeConstructor} {entry : ClassEntry} {member : Descriptor}
      (found : around.class? constructor = some entry) (isMember : member ∈ entry.members) :
      Offers around member.name member
  | universal {member : Descriptor} (isMember : member ∈ Library.anyClass.members) :
      Offers around member.name member

/-- The name can mean a declaration whose type is left open. -/
def Concerns (around : Surroundings) (word : String) (node : NodeRef) : Prop :=
  ∃ descriptor, around.Offers word descriptor ∧ descriptor.LeavesOpen ∧
    descriptor.declaration = some node

/-- The open type of what a descriptor stands for was asked for. -/
def Heeds (around : Surroundings) (replies : Replies) (descriptor : Descriptor) : Prop :=
  descriptor.LeavesOpen → ∀ node, descriptor.declaration = some node →
    around.isOpen node = true → node ∈ replies.map Prod.fst

/-- What is asked for and written down after some questions: all questions are about what the
names that are said can mean, and none is left out that is about a target. -/
structure Accounts (around : Surroundings) (said : String → Prop) (earlier replies : Replies)
    (remarks : List Remark) : Prop where
  asked : ∀ node ∈ replies.map Prod.fst, ∃ word, said word ∧ around.Concerns word node
  heeded : ∀ remark ∈ remarks, ∀ target, remark.target? = some target →
    around.Heeds (earlier ++ replies) target.original

/-- The names around mean declarations.  A specialized function or a call of a variable is no
declaration, and a name that stands for a value is that of a variable. -/
structure Declarative (around : Surroundings) : Prop where
  owned : around.Owned
  offered : ∀ word descriptor, around.Offers word descriptor → descriptor.original = descriptor
  values : ∀ level ∈ around.levels, ∀ symbol ∈ level, symbol.kind.isValue = true →
    ∃ holder, symbol.descriptor = .variable holder

variable {around : Surroundings} {said : String → Prop} {earlier replies others : Replies}
  {remarks later : List Remark} {descriptor : Descriptor} {word : String} {α β : Type}

theorem Heeds.mono (heeds : around.Heeds replies descriptor) (included : replies ⊆ others) :
    around.Heeds others descriptor :=
  fun leavesOpen node declared isOpen =>
    List.map_subset _ included (heeds leavesOpen node declared isOpen)

namespace Accounts

theorem nil : around.Accounts said earlier [] [] where
  asked := List.forall_mem_nil _
  heeded := List.forall_mem_nil _

theorem append (accounts : around.Accounts said earlier replies remarks)
    (goesOn : around.Accounts said (earlier ++ replies) others later) :
    around.Accounts said earlier (replies ++ others) (remarks ++ later) where
  asked := by
    rw [List.map_append]
    exact List.forall_mem_append.mpr ⟨accounts.asked, goesOn.asked⟩
  heeded := by
    rw [← List.append_assoc]
    refine List.forall_mem_append.mpr ⟨fun remark isWritten target isTarget => ?_, goesOn.heeded⟩
    exact (accounts.heeded remark isWritten target isTarget).mono (List.subset_append_left _ _)

theorem weaken (accounts : around.Accounts said [] replies remarks) (earlier : Replies) :
    around.Accounts said earlier replies remarks where
  asked := accounts.asked
  heeded remark isWritten target isTarget :=
    (accounts.heeded remark isWritten target isTarget).mono (List.subset_append_right _ _)

/-- Remarks that give no targets need no questions. -/
theorem of_noTarget (noTarget : ∀ remark ∈ remarks, remark.target? = none) :
    around.Accounts said earlier [] remarks where
  asked := List.forall_mem_nil _
  heeded remark isWritten target isTarget := by
    rw [noTarget remark isWritten] at isTarget
    cases isTarget

end Accounts

end Surroundings

open Surroundings

variable {around : Surroundings} {said : String → Prop} {α β : Type}

namespace Script

/-- Along all of its trails a script gives account of what it asks for. -/
def Accountable (around : Surroundings) (said : String → Prop) (script : Script around.isOpen α) :
    Prop :=
  ∀ replies remarks value, script.Trail replies remarks value →
    around.Accounts said [] replies remarks

namespace Accountable

variable {script : Script around.isOpen α} {next : α → Script around.isOpen β}

theorem of_pure (value : α) : Accountable around said (pure value) := by
  intro replies remarks result trail
  obtain ⟨rfl, rfl, -⟩ := trail_pure_iff.mp trail
  exact .nil

theorem bind (accountable : Accountable around said script)
    (goesOn : ∀ value, Accountable around said (next value)) :
    Accountable around said (script >>= next) := by
  intro replies remarks value trail
  obtain ⟨first, asked, others, earlier, later, trailFirst, trailLater, rfl, rfl⟩ :=
    trail_bind_iff.mp trail
  exact (accountable _ _ _ trailFirst).append ((goesOn first _ _ _ trailLater).weaken _)

theorem accounts {replies earlier : Replies} {remarks : List Remark} {value : α}
    (trail : script.Trail replies remarks value) (accountable : Accountable around said script) :
    around.Accounts said earlier replies remarks :=
  (accountable _ _ _ trail).weaken earlier

theorem of_tell {remark : Remark} (noTarget : remark.target? = none) :
    Accountable around said (tell remark) := by
  intro replies remarks value trail
  obtain ⟨rfl, rfl⟩ := trail.of_tell
  exact .of_noTarget (List.forall_mem_singleton.mpr noTarget)

theorem report (problem : Problem) (node : NodeRef) :
    Accountable around said (Script.report problem node) :=
  .of_tell rfl

theorem typed (node : NodeRef) (type : NominalType) :
    Accountable around said (Script.typed node type) :=
  (of_tell rfl).bind fun _ => .of_pure _

theorem unresolved (reference : NodeRef) (name : String) :
    Accountable around said (Script.unresolved reference name) :=
  (of_tell rfl).bind fun _ => .report _ _

/-- A target whose type is not left open needs no question. -/
theorem record (reference : NodeRef) {target : Descriptor} (closed : ¬ target.original.LeavesOpen) :
    Accountable around said (Script.record reference target) := by
  intro replies remarks value trail
  obtain ⟨rfl, rfl⟩ := trail.of_tell
  refine ⟨List.forall_mem_nil _, List.forall_mem_singleton.mpr fun other isTarget leavesOpen => ?_⟩
  cases isTarget
  exact absurd leavesOpen closed

theorem recordError (reference : NodeRef) (name : String) :
    Accountable around said (Script.recordError reference name) :=
  (record reference id).bind fun _ => .of_pure _

theorem expect (actual expected : NominalType) (node : NodeRef) :
    Accountable around said (Script.expect actual expected node) := by
  unfold Script.expect
  split
  · exact .of_pure _
  · exact .report _ _

theorem expectArguments : ∀ (arguments parameters : List NominalType)
    (expressions : List Tree.Expr),
    Accountable around said (Script.expectArguments arguments parameters expressions)
  | _ :: arguments, _ :: parameters, _ :: expressions =>
      (expect _ _ _).bind fun _ => expectArguments arguments parameters expressions
  | [], _, _ => .of_pure _
  | _ :: _, [], _ => .of_pure _
  | _ :: _, _ :: _, [] => .of_pure _

theorem resolveValueCall (call callee : NodeRef) (calleeType : NominalType)
    (argumentTypes : List NominalType) (arguments : List Tree.Expr) :
    Accountable around said
      (Script.resolveValueCall call callee calleeType argumentTypes arguments) := by
  unfold Script.resolveValueCall
  split
  · exact .of_pure _
  · cases Library.functionParts? calleeType with
    | none => exact (report _ _).bind fun _ => .of_pure _
    | some parts =>
        obtain ⟨parameters, result⟩ := parts
        have goesOn : Accountable around said (do
            Script.expectArguments argumentTypes parameters arguments
            return result) :=
          (expectArguments _ _ _).bind fun _ => .of_pure _
        dsimp only
        split
        · exact (report _ _).bind fun _ => goesOn
        · exact goesOn

end Accountable

end Script

/-! ### The type of a descriptor -/

namespace Surroundings

/-- The script asks for the open type of what a descriptor stands for and for nothing else. -/
def AsksFor (around : Surroundings) (descriptor : Descriptor) (script : Script around.isOpen α) :
    Prop :=
  ∀ replies remarks value, script.Trail replies remarks value →
    (∀ remark ∈ remarks, remark.target? = none) ∧
      (∀ node ∈ replies.map Prod.fst,
        descriptor.LeavesOpen ∧ descriptor.declaration = some node) ∧
        around.Heeds replies descriptor

variable {descriptor : Descriptor} {script : Script around.isOpen α} {word : String}

theorem AsksFor.of_pure (value : α) (closed : ¬ descriptor.LeavesOpen) :
    around.AsksFor descriptor (pure value : Script around.isOpen α) := by
  intro replies remarks result trail
  obtain ⟨rfl, rfl, -⟩ := Script.trail_pure_iff.mp trail
  exact ⟨List.forall_mem_nil _, List.forall_mem_nil _,
    fun leavesOpen => absurd leavesOpen closed⟩

theorem AsksFor.andThen (asks : around.AsksFor descriptor script)
    {next : α → Script around.isOpen β}
    (goesOn : ∀ value replies remarks last, (next value).Trail replies remarks last →
      replies = [] ∧ ∀ remark ∈ remarks, remark.target? = none) :
    around.AsksFor descriptor (script >>= next) := by
  intro replies remarks last trail
  obtain ⟨first, asked, others, earlier, later, trailFirst, trailLater, rfl, rfl⟩ :=
    Script.trail_bind_iff.mp trail
  obtain ⟨rfl, quiet⟩ := goesOn _ _ _ _ trailLater
  obtain ⟨quietFirst, concerned, heeds⟩ := asks _ _ _ trailFirst
  rw [List.append_nil]
  exact ⟨List.forall_mem_append.mpr ⟨quietFirst, quiet⟩, concerned, heeds⟩

theorem asksFor_settle {known : Option NominalType}
    (leavesOpen : descriptor.LeavesOpen ↔ known = none) :
    around.AsksFor descriptor (around.settle known descriptor.declaration) := by
  intro replies remarks value trail
  have silent := silent_settle known descriptor.declaration remarks value trail.runs
  subst silent
  refine ⟨List.forall_mem_nil _, ?_⟩
  unfold settle at trail
  split at trail
  · obtain ⟨rfl, -, -⟩ := Script.trail_pure_iff.mp trail
    exact ⟨List.forall_mem_nil _, fun isOpen => by cases leavesOpen.mp isOpen⟩
  · next none =>
      obtain ⟨rfl, -, -⟩ := Script.trail_pure_iff.mp trail
      exact ⟨List.forall_mem_nil _, fun _ node declared => by rw [none] at declared; cases declared⟩
  · next node declared =>
      split at trail
      · next isOpen =>
          rw [trail.of_ask]
          refine ⟨fun other isAsked => ?_, fun _ other declaredOther _ => ?_⟩
          · rw [List.mem_singleton.mp isAsked]
            exact ⟨leavesOpen.mpr rfl, declared⟩
          · rw [declared] at declaredOther
            cases declaredOther
            exact List.mem_singleton_self _
      · next notOpen =>
          obtain ⟨rfl, -, -⟩ := Script.trail_pure_iff.mp trail
          refine ⟨List.forall_mem_nil _, fun _ other declaredOther isOpen => ?_⟩
          rw [declared] at declaredOther
          cases declaredOther
          exact absurd isOpen notOpen

theorem asksFor_variableType (holder : VariableDescriptor) :
    around.AsksFor (.variable holder) (around.variableType holder) := by
  cases holder with
  | parameter owner parameter => exact .of_pure _ id
  | property declared => exact asksFor_settle Iff.rfl
  | «local» declared => exact .of_pure _ id

theorem asksFor_returnType (function : FunctionDescriptor) :
    around.AsksFor (.function function) (around.returnType function) :=
  asksFor_settle (show Descriptor.LeavesOpen (.function function) ↔ _ from Iff.rfl)

theorem asksFor_valueType (declared : descriptor.original = descriptor) :
    around.AsksFor descriptor (around.valueType descriptor) := by
  cases descriptor with
  | «variable» holder => exact asksFor_variableType holder
  | function function =>
      refine (asksFor_returnType function).andThen fun result replies remarks last trail => ?_
      obtain ⟨_, asked, others, earlier, later, trailTell, trailPure, rfl, rfl⟩ :=
        Script.trail_bind_iff.mp trail
      obtain ⟨rfl, rfl⟩ := trailTell.of_tell
      obtain ⟨rfl, rfl, -⟩ := Script.trail_pure_iff.mp trailPure
      exact ⟨rfl, List.forall_mem_singleton.mpr rfl⟩
  | invoke called type => cases declared
  | specialized function => cases declared
  | _ => exact .of_pure _ id

/-- A target is accounted for if its type is asked for. -/
theorem AsksFor.accountable (asks : around.AsksFor descriptor script) (isSaid : said word)
    (offers : around.Offers word descriptor) (declared : descriptor.original = descriptor)
    (reference : NodeRef) :
    Script.Accountable around said (do Script.record reference descriptor; script) := by
  intro replies remarks value trail
  obtain ⟨_, asked, others, earlier, later, trailTell, trailLater, rfl, rfl⟩ :=
    Script.trail_bind_iff.mp trail
  obtain ⟨rfl, rfl⟩ := trailTell.of_tell
  obtain ⟨quiet, concerned, heeds⟩ := asks _ _ _ trailLater
  refine ⟨fun node isAsked => ?_, List.forall_mem_append.mpr ⟨?_, ?_⟩⟩
  · obtain ⟨leavesOpen, isDeclared⟩ := concerned node isAsked
    exact ⟨word, isSaid, descriptor, offers, leavesOpen, isDeclared⟩
  · refine List.forall_mem_singleton.mpr fun target isTarget => ?_
    cases isTarget
    rw [declared]
    exact heeds
  · intro remark isWritten target isTarget
    rw [quiet remark isWritten] at isTarget
    cases isTarget

/-! ### Calls -/

/-- A candidate that a call by some name may go to, once some questions are answered.  What is
called through a variable has been asked for by then. -/
def Called (around : Surroundings) (word : String) (replies : Replies) (candidate : Descriptor) :
    Prop :=
  around.Offers word candidate.original ∧
    ((∃ function, candidate = .function function) ∨ around.Heeds replies candidate.original)

theorem Called.mono {replies others : Replies} {candidate : Descriptor}
    (called : around.Called word replies candidate) (included : replies ⊆ others) :
    around.Called word others candidate :=
  called.imp_right fun ready => ready.imp_right fun heeds => heeds.mono included

variable {replies : Replies} {remarks : List Remark}

/-- A name is asked about only as far as it is said what it can mean. -/
def Asked (around : Surroundings) (word : String) (replies : Replies) : Prop :=
  ∀ node ∈ replies.map Prod.fst, around.Concerns word node

theorem Asked.append {others : Replies} (asked : around.Asked word replies)
    (later : around.Asked word others) : around.Asked word (replies ++ others) := by
  unfold Asked
  rw [List.map_append]
  exact List.forall_mem_append.mpr ⟨asked, later⟩

theorem AsksFor.asked (asks : around.AsksFor descriptor script)
    (offers : around.Offers word descriptor) {value : α}
    (trail : script.Trail replies remarks value) : around.Asked word replies := by
  intro node isAsked
  obtain ⟨leavesOpen, declared⟩ := (asks _ _ _ trail).2.1 node isAsked
  exact ⟨descriptor, offers, leavesOpen, declared⟩

theorem called_asCallable (declared : descriptor.original = descriptor)
    (offers : around.Offers word descriptor) {callable : Option Descriptor}
    (trail : (around.asCallable descriptor).Trail replies remarks callable) :
    around.Asked word replies ∧ ∀ candidate ∈ callable, around.Called word replies candidate := by
  cases descriptor with
  | «variable» holder =>
      obtain ⟨type, asked, others, earlier, later, trailType, trailPure, rfl, rfl⟩ :=
        Script.trail_bind_iff.mp trail
      obtain ⟨rfl, -, rfl⟩ := Script.trail_pure_iff.mp trailPure
      have asks : around.AsksFor (.variable holder) (around.variableType holder) :=
        asksFor_variableType holder
      rw [List.append_nil]
      refine ⟨asks.asked offers trailType, fun candidate isCandidate => ?_⟩
      obtain ⟨arity, -, rfl⟩ := Option.map_eq_some_iff.mp isCandidate
      exact ⟨offers, .inr (asks _ _ _ trailType).2.2⟩
  | function function =>
      obtain ⟨rfl, -, rfl⟩ := Script.trail_pure_iff.mp trail
      refine ⟨List.forall_mem_nil _, fun candidate isCandidate => ?_⟩
      cases isCandidate
      exact ⟨offers, .inl ⟨function, rfl⟩⟩
  | specialized function => cases declared
  | «class» called =>
      obtain ⟨rfl, -, rfl⟩ := Script.trail_pure_iff.mp trail
      refine ⟨List.forall_mem_nil _, fun candidate isCandidate => ?_⟩
      cases isCandidate
      exact ⟨offers, .inr fun leavesOpen => False.elim leavesOpen⟩
  | typeParameter _ | invoke _ _ | error _ =>
      obtain ⟨rfl, -, rfl⟩ := Script.trail_pure_iff.mp trail
      exact ⟨List.forall_mem_nil _, fun _ isCandidate => by cases isCandidate⟩

theorem called_callables {descriptors : List Descriptor}
    (declared : ∀ descriptor ∈ descriptors, descriptor.original = descriptor)
    (offers : ∀ descriptor ∈ descriptors, around.Offers word descriptor)
    {found : List Descriptor}
    (trail : (around.callables descriptors).Trail replies remarks found) :
    around.Asked word replies ∧ ∀ candidate ∈ found, around.Called word replies candidate := by
  induction descriptors generalizing replies remarks found with
  | nil =>
      obtain ⟨rfl, -, rfl⟩ := Script.trail_pure_iff.mp trail
      exact ⟨List.forall_mem_nil _, List.forall_mem_nil _⟩
  | cons first rest ih =>
      obtain ⟨declaredFirst, declaredRest⟩ := List.forall_mem_cons.mp declared
      obtain ⟨offersFirst, offersRest⟩ := List.forall_mem_cons.mp offers
      obtain ⟨callable, asked, others, _, _, trailFirst, trailRest, rfl, -⟩ :=
        Script.trail_bind_iff.mp trail
      obtain ⟨later, askedLater, _, _, _, trailLater, trailPure, rfl, -⟩ :=
        Script.trail_bind_iff.mp trailRest
      obtain ⟨rfl, -, rfl⟩ := Script.trail_pure_iff.mp trailPure
      obtain ⟨isAsked, called⟩ := called_asCallable declaredFirst offersFirst trailFirst
      obtain ⟨isAskedLater, calledLater⟩ := ih declaredRest offersRest trailLater
      rw [List.append_nil]
      refine ⟨isAsked.append isAskedLater, List.forall_mem_append.mpr ⟨?_, ?_⟩⟩
      · intro candidate isCandidate
        exact (called candidate (Option.mem_toList.mp isCandidate)).mono
          (List.subset_append_left _ _)
      · intro candidate isCandidate
        exact (calledLater candidate isCandidate).mono (List.subset_append_right _ _)

theorem called_callablesAt (declarative : around.Declarative)
    {levels : List (List (Symbol Descriptor))}
    (seen : levels ⊆ around.levels) {found : List Descriptor}
    (trail : (around.callablesAt word levels).Trail replies remarks found) :
    around.Asked word replies ∧ ∀ candidate ∈ found, around.Called word replies candidate := by
  induction levels generalizing replies remarks with
  | nil =>
      obtain ⟨rfl, -, rfl⟩ := Script.trail_pure_iff.mp trail
      exact ⟨List.forall_mem_nil _, List.forall_mem_nil _⟩
  | cons level outer ih =>
      obtain ⟨isLevel, seenOuter⟩ := List.cons_subset.mp seen
      obtain ⟨first, asked, others, _, _, trailLevel, trailOuter, rfl, -⟩ :=
        Script.trail_bind_iff.mp trail
      have offers : ∀ descriptor ∈ ((level.filter fun symbol => symbol.name = word).filter
          fun symbol => symbol.kind ≠ .typeParameter).map Symbol.descriptor,
            around.Offers word descriptor := by
        intro descriptor isFound
        obtain ⟨symbol, isSymbol, rfl⟩ := List.mem_map.mp isFound
        have named := List.mem_filter.mp (List.mem_of_mem_filter isSymbol)
        exact of_decide_eq_true named.2 ▸ .symbol isLevel named.1
      obtain ⟨isAsked, called⟩ := called_callables
        (fun descriptor isFound => declarative.offered _ _ (offers descriptor isFound)) offers
        trailLevel
      cases first with
      | nil =>
          obtain ⟨isAskedOuter, calledOuter⟩ := ih seenOuter trailOuter
          exact ⟨isAsked.append isAskedOuter, fun candidate isCandidate =>
            (calledOuter candidate isCandidate).mono (List.subset_append_right _ _)⟩
      | cons callable rest =>
          obtain ⟨rfl, -, rfl⟩ := Script.trail_pure_iff.mp trailOuter
          rw [List.append_nil]
          exact ⟨isAsked, called⟩

/-- Judging a candidate asks for its return type. -/
theorem heeds_signature {earlier : Replies} {candidate : Descriptor}
    (called : around.Called word earlier candidate) {receiver : Substitution}
    {signature : Signature}
    (trail : (around.signature receiver candidate).Trail replies remarks signature) :
    around.Asked word replies ∧ signature.candidate = candidate ∧
      around.Heeds (earlier ++ replies) candidate.original := by
  obtain ⟨offers, ready⟩ := called
  cases candidate with
  | function function =>
      obtain ⟨result, asked, others, _, _, trailType, trailPure, rfl, -⟩ :=
        Script.trail_bind_iff.mp trail
      obtain ⟨rfl, -, rfl⟩ := Script.trail_pure_iff.mp trailPure
      have asks : around.AsksFor (.function function) (around.returnType function) :=
        asksFor_returnType function
      rw [List.append_nil]
      refine ⟨asks.asked offers trailType, rfl, (asks _ _ _ trailType).2.2.mono ?_⟩
      exact List.subset_append_right _ _
  | _ =>
      obtain ⟨rfl, -, rfl⟩ := Script.trail_pure_iff.mp trail
      have heeds := ready.resolve_left fun ⟨_, isFunction⟩ => by cases isFunction
      exact ⟨List.forall_mem_nil _, rfl, heeds.mono (List.subset_append_left _ _)⟩

/-- Judging candidates asks for the return types of all of them. -/
theorem heeds_signatures {earlier : Replies} {candidates : List Descriptor}
    (called : ∀ candidate ∈ candidates, around.Called word earlier candidate)
    {receiver : Substitution} {judged : List Signature}
    (trail : (around.signatures receiver candidates).Trail replies remarks judged) :
    around.Asked word replies ∧ ∀ signature ∈ judged, signature.candidate ∈ candidates ∧
      around.Heeds (earlier ++ replies) signature.candidate.original := by
  induction candidates generalizing earlier replies remarks judged with
  | nil =>
      obtain ⟨rfl, -, rfl⟩ := Script.trail_pure_iff.mp trail
      exact ⟨List.forall_mem_nil _, List.forall_mem_nil _⟩
  | cons first rest ih =>
      obtain ⟨calledFirst, calledRest⟩ := List.forall_mem_cons.mp called
      obtain ⟨signature, asked, others, _, _, trailFirst, trailRest, rfl, -⟩ :=
        Script.trail_bind_iff.mp trail
      obtain ⟨later, askedLater, _, _, _, trailLater, trailPure, rfl, -⟩ :=
        Script.trail_bind_iff.mp trailRest
      obtain ⟨rfl, -, rfl⟩ := Script.trail_pure_iff.mp trailPure
      obtain ⟨isAsked, same, heeds⟩ := heeds_signature calledFirst trailFirst
      have calledLater : ∀ candidate ∈ rest, around.Called word (earlier ++ asked) candidate :=
        fun candidate isCandidate =>
          (calledRest candidate isCandidate).mono (List.subset_append_left _ _)
      obtain ⟨isAskedLater, heedsLater⟩ := ih calledLater trailLater
      rw [List.append_nil, ← List.append_assoc]
      refine ⟨isAsked.append isAskedLater, List.forall_mem_cons.mpr ⟨?_, ?_⟩⟩
      · rw [same]
        exact ⟨List.mem_cons_self, heeds.mono (List.subset_append_left _ _)⟩
      · exact fun other isLater => (heedsLater other isLater).imp_left (List.mem_cons_of_mem _)

theorem Declarative.owns (declarative : around.Declarative)
    (offers : around.Offers word descriptor) : around.Owns descriptor := by
  cases offers with
  | symbol isLevel isSymbol => exact declarative.owned.levels _ isLevel _ isSymbol
  | member found isMember => exact declarative.owned.members _ _ found _ isMember
  | universal isMember =>
      have universal : ∀ member ∈ Library.anyClass.members, Resolver.isFunction member = true := by
        decide
      have isFunction := universal descriptor isMember
      cases descriptor with
      | «variable» holder => cases isFunction
      | _ => trivial

/-- What is shown with a candidate is the open type of what it stands for, as far as it is not
the own one. -/
theorem Declarative.concerns_of_shownOpen? (declarative : around.Declarative)
    {candidate : Descriptor} (offers : around.Offers word candidate.original) {node : NodeRef}
    (isShown : candidate.shownOpen? = some node) (notOwn : node ≠ around.own) :
    around.Concerns word node := by
  have ofVariable {called : VariableDescriptor} (offers : around.Offers word (.variable called))
      (isShown : (Descriptor.variable called).shownOpen? = some node) :
      around.Concerns word node := by
    refine ⟨_, offers, ?_⟩
    cases called with
    | property declared =>
        simp only [Descriptor.shownOpen?, Option.ite_none_right_eq_some, Option.isNone_iff_eq_none]
          at isShown
        exact isShown
    | «local» declared => cases isShown
    | parameter owner declared =>
        cases owner with
        | function owner =>
            simp only [Descriptor.shownOpen?, Option.ite_none_right_eq_some,
              Option.isNone_iff_eq_none] at isShown
            exact absurd (declarative.owns offers isShown.1 node isShown.2) notOwn
        | «class» owner | specialized owner => cases isShown
  cases candidate with
  | function declared =>
      simp only [Descriptor.shownOpen?, Option.ite_none_right_eq_some, Option.isNone_iff_eq_none]
        at isShown
      exact ⟨_, offers, isShown⟩
  | «variable» called => exact ofVariable offers isShown
  | invoke called type =>
      exact ofVariable offers (Descriptor.shownOpen?_invoke called type ▸ isShown)
  | _ => cases isShown

theorem accounts_shown (declarative : around.Declarative) (isSaid : said word)
    {earlier : Replies} {candidate : Descriptor} (offers : around.Offers word candidate.original)
    {inferred : Option NominalType → InferredTypes}
    (trail : (around.shown candidate).Trail replies remarks inferred) :
    around.Accounts said earlier replies remarks := by
  have silent := silent_shown candidate remarks inferred trail.runs
  subst silent
  suffices around.Asked word replies from
    ⟨fun node isNode => ⟨word, isSaid, this node isNode⟩, List.forall_mem_nil _⟩
  unfold shown at trail
  split at trail
  · obtain ⟨rfl, -, -⟩ := Script.trail_pure_iff.mp trail
    exact List.forall_mem_nil _
  · next node isShown =>
      split at trail
      · obtain ⟨rfl, -, -⟩ := Script.trail_pure_iff.mp trail
        exact List.forall_mem_nil _
      · next notOwn =>
          split at trail
          · next isOpen =>
              obtain ⟨type, asked, others, _, _, trailAsk, trailPure, rfl, -⟩ :=
                Script.trail_bind_iff.mp trail
              obtain ⟨rfl, -, -⟩ := Script.trail_pure_iff.mp trailPure
              rw [trailAsk.of_ask, List.append_nil]
              exact List.forall_mem_singleton.mpr
                (declarative.concerns_of_shownOpen? offers isShown notOwn)
          · obtain ⟨rfl, -, -⟩ := Script.trail_pure_iff.mp trail
            exact List.forall_mem_nil _

theorem original_callTarget (inferred : InferredTypes) (choice : Applicable) :
    (Resolver.callTarget inferred choice).original = choice.candidate.original := by
  unfold Resolver.callTarget
  split
  · next declared isFunction =>
      rw [isFunction]
      split <;> rfl
  · rfl

/-- A target whose type was asked for before. -/
theorem accounts_target {earlier : Replies} {target : Descriptor}
    (heeds : around.Heeds earlier target.original) (reference : NodeRef) :
    around.Accounts said earlier [] [.meaning reference (.target target)] := by
  refine ⟨List.forall_mem_nil _, List.forall_mem_singleton.mpr fun other isTarget => ?_⟩
  cases isTarget
  rw [List.append_nil]
  exact heeds

/-- Whatever becomes of a call, the types of all candidates were asked for. -/
theorem accounts_resolveCall (declarative : around.Declarative) (isSaid : said word)
    {earlier : Replies} {candidates : List Descriptor}
    (called : ∀ candidate ∈ candidates, around.Called word earlier candidate)
    {reference : NodeRef} {name : String} {arguments : List NominalType} {receiver : Substitution}
    {type : NominalType}
    (trail : (around.resolveCall reference name candidates arguments receiver).Trail replies
      remarks type) : around.Accounts said earlier replies remarks := by
  obtain ⟨judged, asked, others, written, later, trailJudged, trailLater, rfl, rfl⟩ :=
    Script.trail_bind_iff.mp trail
  obtain ⟨isAsked, heeds⟩ := heeds_signatures called trailJudged
  have silent := silent_signatures receiver candidates _ _ trailJudged.runs
  subst silent
  have accountsJudged : around.Accounts said earlier asked [] :=
    ⟨fun node isNode => ⟨word, isSaid, isAsked node isNode⟩, List.forall_mem_nil _⟩
  refine accountsJudged.append ?_
  cases choice : Choice.among judged arguments with
  | none =>
      rw [choice] at trailLater
      exact Script.Accountable.accounts trailLater
        ((Script.Accountable.unresolved _ _).bind fun _ => .of_pure _)
  | inapplicable =>
      rw [choice] at trailLater
      exact Script.Accountable.accounts trailLater
        ((Script.Accountable.report _ _).bind fun _ =>
          (Script.Accountable.of_tell rfl).bind fun _ => .of_pure _)
  | ambiguous winners =>
      rw [choice] at trailLater
      exact Script.Accountable.accounts trailLater
        ((Script.Accountable.of_tell rfl).bind fun _ =>
          (Script.Accountable.report _ _).bind fun _ => .of_pure _)
  | mismatch only =>
      rw [choice] at trailLater
      obtain ⟨isCandidate, heedsOnly⟩ := heeds only (Choice.mem_of_among_eq_mismatch choice)
      obtain ⟨_, _, _, _, _, trailRecord, trailRest, rfl, rfl⟩ :=
        Script.trail_bind_iff.mp trailLater
      obtain ⟨inferred, _, _, _, _, trailShown, trailReport, rfl, rfl⟩ :=
        Script.trail_bind_iff.mp trailRest
      obtain ⟨_, _, _, _, _, trailWrite, trailPure, rfl, rfl⟩ :=
        Script.trail_bind_iff.mp trailReport
      obtain ⟨rfl, rfl⟩ := trailRecord.of_tell
      obtain ⟨rfl, shown, rfl⟩ := Script.Trail.of_write trailWrite
      obtain ⟨rfl, rfl, -⟩ := Script.trail_pure_iff.mp trailPure
      refine (accounts_target heedsOnly reference).append
        (Accounts.append ?_ (Accounts.append ?_ .nil))
      · exact accounts_shown declarative isSaid (called _ isCandidate).1 trailShown
      · exact .of_noTarget (List.forall_mem_singleton.mpr rfl)
  | chosen best =>
      rw [choice] at trailLater
      obtain ⟨signature, isSignature, same⟩ := Choice.exists_of_among_eq_chosen choice
      obtain ⟨isCandidate, heedsBest⟩ := heeds signature isSignature
      rw [← same] at isCandidate heedsBest
      obtain ⟨inferred, _, _, _, _, trailShown, trailRecord, rfl, rfl⟩ :=
        Script.trail_bind_iff.mp trailLater
      obtain ⟨_, _, _, _, _, trailWrite, trailPure, rfl, rfl⟩ :=
        Script.trail_bind_iff.mp trailRecord
      obtain ⟨rfl, shown, rfl⟩ := Script.Trail.of_write trailWrite
      obtain ⟨rfl, rfl, -⟩ := Script.trail_pure_iff.mp trailPure
      refine Accounts.append ?_ (Accounts.append (accounts_target ?_ reference) .nil)
      · exact accounts_shown declarative isSaid (called _ isCandidate).1 trailShown
      · rw [original_callTarget]
        exact heedsBest.mono (List.subset_append_left _ _)

/-! ### Names -/

theorem mem_levels_of_mem_lookup {accept : SymbolKind → Bool} {symbol : Symbol Descriptor}
    (found : symbol ∈ around.lookup accept word) :
    (∃ level ∈ around.levels, symbol ∈ level) ∧ symbol.name = word ∧
      accept symbol.kind = true := by
  unfold lookup at found
  dsimp only at found
  cases isFirst : (around.levels.map fun level =>
      (level.filter fun symbol => symbol.name = word).filter fun symbol =>
        accept symbol.kind).find? fun symbols => !symbols.isEmpty with
  | none =>
      rw [isFirst] at found
      cases found
  | some first =>
      rw [isFirst] at found
      obtain ⟨level, isLevel, rfl⟩ := List.mem_map.mp (List.mem_of_find?_eq_some isFirst)
      obtain ⟨named, accepted⟩ := List.mem_filter.mp found
      obtain ⟨isSymbol, isName⟩ := List.mem_filter.mp named
      exact ⟨⟨level, isLevel, isSymbol⟩, of_decide_eq_true isName, accepted⟩

theorem offers_of_mem_lookup {accept : SymbolKind → Bool} {symbol : Symbol Descriptor}
    (found : symbol ∈ around.lookup accept word) : around.Offers word symbol.descriptor := by
  obtain ⟨⟨level, isLevel, isSymbol⟩, rfl, -⟩ := mem_levels_of_mem_lookup found
  exact .symbol isLevel isSymbol

theorem offers_membersOf (receiver : NominalType) :
    ∀ member ∈ (around.membersOf receiver word).1, around.Offers word member := by
  have universal : ∀ member ∈ Library.anyClass.membersNamed word, around.Offers word member := by
    intro member isMember
    obtain ⟨isUniversal, isName⟩ := List.mem_filter.mp isMember
    exact of_decide_eq_true isName ▸ .universal isUniversal
  intro member isMember
  unfold membersOf at isMember
  split at isMember
  · exact universal member isMember
  · next entry found =>
      dsimp only at isMember
      split at isMember
      · exact universal member isMember
      · obtain ⟨isOwn, isName⟩ := List.mem_filter.mp isMember
        exact of_decide_eq_true isName ▸ .member found isOwn

theorem accountable_resolveSelector (receiver : NominalType) {selector : Tree.SimpleName}
    (isSaid : said selector.text) :
    Script.Accountable around said (around.resolveSelector receiver selector) := by
  unfold resolveSelector
  dsimp only
  split
  · exact (Script.Accountable.recordError _ _).bind fun _ => .typed _ _
  · have offers : ∀ member ∈ (around.membersOf receiver selector.text).1,
        around.Offers selector.text member := offers_membersOf receiver
    generalize around.membersOf receiver selector.text = found at offers
    obtain ⟨members, substitution⟩ := found
    dsimp only at offers ⊢
    split
    · exact (Script.Accountable.unresolved _ _).bind fun _ => .typed _ _
    · next property rest found =>
        have isFound : property ∈ members.filterMap Resolver.asProperty? :=
          found ▸ List.mem_cons_self
        obtain ⟨member, isMember, isProperty⟩ := List.mem_filterMap.mp isFound
        have same : member = .variable (.property property) := by
          cases member with
          | «variable» holder =>
              cases holder with
              | property declared => exact congrArg _ (congrArg _ (Option.some.inj isProperty))
              | _ => cases isProperty
          | _ => cases isProperty
        have offered := offers member isMember
        rw [same] at offered
        have accountable := ((asksFor_variableType (.property property)).accountable isSaid offered
          rfl selector.node.ref).bind fun type =>
            .typed selector.node.ref (type.substitute substitution)
        rwa [bind_assoc] at accountable

section Declarative

variable (declarative : around.Declarative)

include declarative

theorem accountable_resolveValue {name : Tree.SimpleName} (isSaid : said name.text) :
    Script.Accountable around said (around.resolveValue name) := by
  unfold resolveValue
  cases found : around.lookup SymbolKind.isValue name.text with
  | nil => exact (Script.Accountable.unresolved _ _).bind fun _ => .of_pure _
  | cons symbol rest =>
      have isFound : symbol ∈ around.lookup SymbolKind.isValue name.text :=
        found ▸ List.mem_cons_self
      obtain ⟨⟨level, isLevel, isSymbol⟩, -, isValue⟩ := mem_levels_of_mem_lookup isFound
      obtain ⟨holder, isVariable⟩ := declarative.values level isLevel symbol isSymbol isValue
      have offers := offers_of_mem_lookup isFound
      have declared := declarative.offered _ _ offers
      dsimp only
      rw [isVariable] at offers declared ⊢
      exact (asksFor_variableType holder).accountable isSaid offers declared _

theorem accountable_resolveCallableRef {name : Tree.SimpleName} (isSaid : said name.text) :
    Script.Accountable around said (around.resolveCallableRef name) := by
  unfold resolveCallableRef
  dsimp only
  split
  · exact (Script.Accountable.unresolved _ _).bind fun _ => .typed _ _
  · next symbol found =>
      have isFound : symbol ∈ around.lookup (fun kind => kind = .function) name.text :=
        found ▸ List.mem_cons_self
      have offers := offers_of_mem_lookup isFound
      have declared := declarative.offered _ _ offers
      have accountable := ((asksFor_valueType declared).accountable isSaid offers declared
        name.node.ref).bind fun type => .typed name.node.ref type
      rwa [bind_assoc] at accountable
  · exact (Script.Accountable.of_tell rfl).bind fun _ =>
      (Script.Accountable.report _ _).bind fun _ => .typed _ _

/-- A call is accounted for once its candidates are. -/
theorem accountable_call {candidates : Script around.isOpen (List Descriptor)}
    (silent : candidates.Silent) (isSaid : said word)
    (prepared : ∀ replies remarks found, candidates.Trail replies remarks found →
      around.Asked word replies ∧ ∀ candidate ∈ found, around.Called word replies candidate)
    (reference : NodeRef) (name : String) (arguments : List NominalType) (receiver : Substitution) :
    Script.Accountable around said (do
      let found ← candidates
      around.resolveCall reference name found arguments receiver) := by
  intro replies remarks value trail
  obtain ⟨found, asked, others, written, later, trailFound, trailCall, rfl, rfl⟩ :=
    Script.trail_bind_iff.mp trail
  obtain ⟨isAsked, called⟩ := prepared _ _ _ trailFound
  have nothing := silent _ _ trailFound.runs
  subst nothing
  have accounts : around.Accounts said [] asked [] :=
    ⟨fun node isNode => ⟨word, isSaid, isAsked node isNode⟩, List.forall_mem_nil _⟩
  exact accounts.append (accounts_resolveCall declarative isSaid called trailCall)

theorem accountable_resolveMemberCall (receiver : NominalType) {selector : Tree.SimpleName}
    (isSaid : said selector.text) (arguments : List NominalType) :
    Script.Accountable around said (around.resolveMemberCall receiver selector arguments) := by
  unfold resolveMemberCall
  dsimp only
  split
  · exact (Script.Accountable.recordError _ _).bind fun _ => .typed _ _
  · have offers : ∀ member ∈ (around.membersOf receiver selector.text).1,
        around.Offers selector.text member := offers_membersOf receiver
    generalize around.membersOf receiver selector.text = found at offers
    obtain ⟨members, substitution⟩ := found
    have called := accountable_call declarative (silent_callables members) isSaid
      (fun _ _ _ => called_callables
        (fun member isMember => declarative.offered _ _ (offers member isMember)) offers)
      selector.node.ref selector.text arguments substitution
    have accountable := called.bind fun type => .typed selector.node.ref type
    rwa [bind_assoc] at accountable

theorem accountable_resolveNameCall {name : Tree.SimpleName} (isSaid : said name.text)
    (arguments : List NominalType) :
    Script.Accountable around said (around.resolveNameCall name arguments) := by
  have called := accountable_call declarative (silent_callablesAt name.text around.levels) isSaid
    (fun _ _ _ => called_callablesAt declarative (List.Subset.refl _))
    name.node.ref name.text arguments .empty
  have accountable := called.bind fun type => .typed name.node.ref type
  rwa [bind_assoc] at accountable

theorem accountable_resolveOperator (left right : NominalType) {reference : Tree.OperatorRef}
    (isSaid : said reference.operator.memberName) :
    Script.Accountable around said (around.resolveOperator left right reference) := by
  unfold resolveOperator
  dsimp only
  split
  · exact (Script.Accountable.recordError _ _).bind fun _ => .of_pure _
  · have offers : ∀ member ∈ (around.membersOf left reference.operator.memberName).1,
        around.Offers reference.operator.memberName member := offers_membersOf left
    generalize around.membersOf left reference.operator.memberName = found at offers
    obtain ⟨members, substitution⟩ := found
    refine Script.Accountable.bind (fun replies remarks value trail => ?_) fun _ => .of_pure _
    refine accounts_resolveCall declarative isSaid (fun candidate isCandidate => ?_) trail
    obtain ⟨isMember, isFunction⟩ := List.mem_filter.mp isCandidate
    have offered := offers candidate isMember
    have declared := declarative.offered _ _ offered
    refine ⟨declared.symm ▸ offered, .inl ?_⟩
    cases candidate with
    | function function => exact ⟨function, rfl⟩
    | specialized function => cases declared
    | _ => cases isFunction

end Declarative

/-! ### Expressions -/

section Children

attribute [local simp] Node.children Node.parts Node.expressionParts Part.children
  Tree.Expr.node Tree.SimpleName.node

theorem mentions_name {value : Tree.Expr} {name : Tree.SimpleName}
    (isChild : name.node ∈ value.node.children) : value.node.Mentions name.text :=
  .of_child isChild (.self rfl)

theorem mentioned_child {value : Tree.Expr} {child : Node}
    (mentioned : ∀ word, value.node.Mentions word → said word)
    (isChild : child ∈ value.node.children) : ∀ word, child.Mentions word → said word :=
  fun word mentions => mentioned word (mentions.of_child isChild)

mutual

/-- Inferring an expression gives account of what it asks for, one case for each form of it. -/
theorem accountable_infer (declarative : around.Declarative) : (value : Tree.Expr) →
    (∀ word, value.node.Mentions word → said word) →
      Script.Accountable around said (around.infer value)
  | .name name, mentioned => by
      rw [infer]
      have isSaid := mentioned name.text (.self rfl)
      exact (accountable_resolveValue declarative isSaid).bind fun _ => .typed _ _
  | .integer span value, mentioned | .text span value, mentioned
  | .boolean span value, mentioned | .null span, mentioned => by
      rw [infer]
      exact .typed _ _
  | .callableRef span target, mentioned => by
      rw [infer]
      have isSaid := mentioned target.text (mentions_name (by simp))
      exact (accountable_resolveCallableRef declarative isSaid).bind fun _ => .typed _ _
  | .paren span inner, mentioned => by
      rw [infer]
      exact (accountable_infer declarative inner (mentioned_child mentioned (by simp))).bind
        fun _ => .typed _ _
  | .ifThen span condition thenBranch, mentioned => by
      rw [infer]
      refine (accountable_infer declarative condition (mentioned_child mentioned (by simp))).bind
        fun _ => ?_
      refine (Script.Accountable.expect _ _ _).bind fun _ => ?_
      exact (accountable_infer declarative thenBranch (mentioned_child mentioned (by simp))).bind
        fun _ => .typed _ _
  | .ifElse span condition thenBranch elseBranch, mentioned => by
      rw [infer]
      refine (accountable_infer declarative condition (mentioned_child mentioned (by simp))).bind
        fun _ => ?_
      refine (Script.Accountable.expect _ _ _).bind fun _ => ?_
      refine (accountable_infer declarative thenBranch (mentioned_child mentioned (by simp))).bind
        fun _ => ?_
      exact (accountable_infer declarative elseBranch (mentioned_child mentioned (by simp))).bind
        fun _ => .typed _ _
  | .member span receiver selector, mentioned => by
      rw [infer]
      refine (accountable_infer declarative receiver (mentioned_child mentioned (by simp))).bind
        fun _ => ?_
      have isSaid := mentioned selector.text (mentions_name (by simp))
      exact (accountable_resolveSelector _ isSaid).bind fun _ => .typed _ _
  | .binary span left operator right, mentioned => by
      rw [infer]
      refine (accountable_infer declarative left (mentioned_child mentioned (by simp))).bind
        fun _ => ?_
      refine (accountable_infer declarative right (mentioned_child mentioned (by simp))).bind
        fun _ => ?_
      have isSaid : said operator.operator.memberName :=
        mentioned_child mentioned (by simp) _ (.self (rfl : (Node.operator operator).word? = _))
      exact (accountable_resolveOperator declarative _ _ isSaid).bind fun _ => .typed _ _
  | .call span callee arguments, mentioned => by
      have inferred := accountable_inferAll declarative arguments fun argument isArgument =>
        mentioned_child mentioned (by
          simp only [Node.children, Node.parts, Node.expressionParts, Tree.Expr.node,
            Part.children, List.flatMap_cons, List.flatMap_nil, List.append_nil]
          exact List.mem_append_right _ (List.mem_map_of_mem isArgument))
      cases callee with
      | name name =>
          rw [infer]
          have isSaid := mentioned name.text (mentions_name (by simp))
          exact inferred.bind fun _ =>
            (accountable_resolveNameCall declarative isSaid _).bind fun _ => .typed _ _
      | member memberSpan receiver selector =>
          rw [infer]
          have mentionedCallee : ∀ word,
              (Tree.Expr.member memberSpan receiver selector).node.Mentions word → said word :=
            mentioned_child mentioned (by simp)
          refine inferred.bind fun _ => ?_
          have ofReceiver := accountable_infer declarative receiver
            (mentioned_child mentionedCallee (by simp))
          refine ofReceiver.bind fun _ => ?_
          have isSaid := mentionedCallee selector.text (mentions_name (by simp))
          refine (accountable_resolveMemberCall declarative _ isSaid _).bind fun _ => ?_
          exact (Script.Accountable.of_tell rfl).bind fun _ => .typed _ _
      | _ =>
          rw [infer_call]
          · refine inferred.bind fun _ => ?_
            refine (accountable_infer declarative _ (mentioned_child mentioned (by simp))).bind
              fun _ => ?_
            exact (Script.Accountable.resolveValueCall _ _ _ _ _).bind fun _ => .typed _ _
          all_goals simp

theorem accountable_inferAll (declarative : around.Declarative) : (values : List Tree.Expr) →
    (∀ value ∈ values, ∀ word, value.node.Mentions word → said word) →
      Script.Accountable around said (around.inferAll values)
  | [], _ => by
      rw [inferAll]
      exact .of_pure _
  | value :: rest, mentioned => by
      obtain ⟨mentionedFirst, mentionedRest⟩ := List.forall_mem_cons.mp mentioned
      rw [inferAll]
      exact (accountable_infer declarative value mentionedFirst).bind fun _ =>
        (accountable_inferAll declarative rest mentionedRest).bind fun _ => .of_pure _

end

end Children

end Surroundings

end Gloss
