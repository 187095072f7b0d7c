import Gloss.Proofs.Order.Checks
import Gloss.Proofs.Tree.Subtree

/-!
# Types that are written down

An inference writes down the type that it comes to.
-/

namespace Gloss

namespace Script

variable {isOpen : NodeRef → Bool} {α : Type} {node : NodeRef}

/-- Whatever the script is told, the type that it comes to is written down for a node. -/
def Records (node : NodeRef) (script : Script isOpen NominalType) : Prop :=
  ∀ remarks type, script.Runs remarks type → .typed node type ∈ remarks

theorem Records.after {script : Script isOpen α} {next : α → Script isOpen NominalType}
    (records : ∀ value, (next value).Records node) : (script >>= next).Records node := by
  intro remarks type runs
  obtain ⟨first, earlier, later, -, runsLater, rfl⟩ := runs_bind_iff.mp runs
  exact List.mem_append_right _ (records first _ _ runsLater)

theorem records_typed (node : NodeRef) (type : NominalType) :
    (typed node type : Script isOpen NominalType).Records node := by
  intro remarks value runs
  obtain ⟨_, earlier, later, runsTell, runsPure, rfl⟩ := runs_bind_iff.mp runs
  rw [runs_tell_iff.mp runsTell, (runs_pure_iff.mp runsPure).2]
  exact List.mem_append_left _ (List.mem_singleton_self _)

end Script

namespace Surroundings

open Script

variable {around : Surroundings}

/-- An inference ends by writing the type of its expression down. -/
theorem records_infer (value : Tree.Expr) : (around.infer value).Records value.node.ref := by
  cases value with
  | call span callee arguments =>
      cases callee with
      | name name =>
          rw [infer]
          exact .after fun _ => .after fun _ => records_typed _ _
      | member memberSpan receiver selector =>
          rw [infer]
          exact .after fun _ => .after fun _ => .after fun _ => .after fun _ => records_typed _ _
      | _ =>
          rw [infer_call]
          · exact .after fun _ => .after fun _ => .after fun _ => records_typed _ _
          all_goals simp
  | name | callableRef | paren =>
      rw [infer]
      exact .after fun _ => records_typed _ _
  | integer | text | boolean | null =>
      rw [infer]
      exact records_typed _ _
  | ifThen | binary =>
      rw [infer]
      exact .after fun _ => .after fun _ => .after fun _ => records_typed _ _
  | ifElse =>
      rw [infer]
      exact .after fun _ => .after fun _ => .after fun _ => .after fun _ => records_typed _ _
  | member =>
      rw [infer]
      exact .after fun _ => .after fun _ => records_typed _ _

end Surroundings

/-! ### Expressions on the way -/

/-- The expression is a condition with two branches. -/
def Tree.Expr.IsChoice : Tree.Expr → Prop
  | .ifElse _ _ _ _ => True
  | _ => False

/-- The expression is inferred wherever it stands.  A name or a member is not where it is
called. -/
def Tree.Expr.IsInferred : Tree.Expr → Prop
  | .name _ | .member _ _ _ => False
  | _ => True

theorem Tree.Expr.IsChoice.isInferred {value : Tree.Expr} (isChoice : value.IsChoice) :
    value.IsInferred := by
  cases value with
  | ifElse => trivial
  | _ => cases isChoice

namespace Script

variable {isOpen : NodeRef → Bool} {α β : Type} {value : Tree.Expr} {script : Script isOpen α}
  {next : α → Script isOpen β} {classes : TypeConstructor → Option ClassEntry}

/-- Whatever the script is told, the expression is inferred on the way, where the classes are
the given ones. -/
def Covers (classes : TypeConstructor → Option ClassEntry) (value : Tree.Expr)
    (script : Script isOpen α) : Prop :=
  ∀ remarks result, script.Runs remarks result →
    ∃ (around : Surroundings) (own : List Remark) (type : NominalType), around.class? = classes ∧
      (around.infer value).Runs own type ∧ own ⊆ remarks

theorem covers_infer_self (around : Surroundings) (value : Tree.Expr) :
    (around.infer value).Covers around.class? value :=
  fun remarks type runs => ⟨around, remarks, type, rfl, runs, List.Subset.refl _⟩

theorem Covers.andThen (covers : script.Covers classes value) :
    (script >>= next).Covers classes value := by
  intro remarks result runs
  obtain ⟨first, earlier, later, runsFirst, -, rfl⟩ := runs_bind_iff.mp runs
  obtain ⟨around, own, type, same, inferred, included⟩ := covers _ _ runsFirst
  exact ⟨around, own, type, same, inferred,
    List.Subset.trans included (List.subset_append_left _ _)⟩

theorem Covers.after (covers : ∀ first, (next first).Covers classes value) :
    (script >>= next).Covers classes value := by
  intro remarks result runs
  obtain ⟨first, earlier, later, -, runsLater, rfl⟩ := runs_bind_iff.mp runs
  obtain ⟨around, own, type, same, inferred, included⟩ := covers first _ _ runsLater
  exact ⟨around, own, type, same, inferred,
    List.Subset.trans included (List.subset_append_right _ _)⟩

end Script

namespace Surroundings

open Script

variable {around : Surroundings} {inner : Tree.Expr}

section Children

attribute [local simp] Node.children Node.parts Node.expressionParts Part.children
  Tree.Expr.node Tree.SimpleName.node

theorem notMem_subtree_name (isInferred : inner.IsInferred) (name : Tree.SimpleName) :
    inner.node ∉ name.node.subtree := by
  intro isBelow
  rcases Node.mem_subtree_iff.mp isBelow with same | ⟨child, isChild, -⟩
  · cases same
    cases isInferred
  · simp at isChild

theorem notMem_subtree_operator (use : Tree.OperatorRef) :
    inner.node ∉ (Node.operator use).subtree := by
  intro isBelow
  rcases Node.mem_subtree_iff.mp isBelow with same | ⟨child, isChild, -⟩
  · cases same
  · simp at isChild

/-- The expression itself is inferred, and what is below it is below one of its children. -/
theorem covers_of_children {value : Tree.Expr} (isBelow : inner.node ∈ value.node.subtree)
    (children : ∀ child ∈ value.node.children, inner.node ∈ child.subtree →
      (around.infer value).Covers around.class? inner) : (around.infer value).Covers around.class? inner := by
  rcases Node.mem_subtree_iff.mp isBelow with same | ⟨child, isChild, isBelow⟩
  · cases same
    exact covers_infer_self _ _
  · exact children child isChild isBelow

mutual

/-- What is inferred wherever it stands is inferred along with an expression that it is in. -/
theorem covers_infer (isInferred : inner.IsInferred) : (value : Tree.Expr) →
    inner.node ∈ value.node.subtree → (around.infer value).Covers around.class? inner
  | .name name, isBelow => absurd isBelow (notMem_subtree_name isInferred name)
  | .integer span value, isBelow | .text span value, isBelow | .boolean span value, isBelow
  | .null span, isBelow => by
      refine covers_of_children isBelow fun child isChild _ => ?_
      simp at isChild
  | .callableRef span target, isBelow => by
      refine covers_of_children isBelow fun child isChild isBelow => ?_
      obtain rfl : child = target.node := by simpa using isChild
      exact absurd isBelow (notMem_subtree_name isInferred target)
  | .paren span value, isBelow => by
      refine covers_of_children isBelow fun child isChild isBelow => ?_
      obtain rfl : child = value.node := by simpa using isChild
      rw [infer]
      exact (covers_infer isInferred value isBelow).andThen
  | .ifThen span condition thenBranch, isBelow => by
      refine covers_of_children isBelow fun child isChild isBelow => ?_
      have isPart : child = condition.node ∨ child = thenBranch.node := by simpa using isChild
      rw [infer]
      rcases isPart with rfl | rfl
      · exact (covers_infer isInferred condition isBelow).andThen
      · exact .after fun _ => .after fun _ => (covers_infer isInferred thenBranch isBelow).andThen
  | .ifElse span condition thenBranch elseBranch, isBelow => by
      refine covers_of_children isBelow fun child isChild isBelow => ?_
      have isPart : child = condition.node ∨ child = thenBranch.node ∨
          child = elseBranch.node := by
        simpa using isChild
      rw [infer]
      rcases isPart with rfl | rfl | rfl
      · exact (covers_infer isInferred condition isBelow).andThen
      · exact .after fun _ => .after fun _ => (covers_infer isInferred thenBranch isBelow).andThen
      · exact .after fun _ => .after fun _ => .after fun _ =>
          (covers_infer isInferred elseBranch isBelow).andThen
  | .member span receiver selector, isBelow => by
      refine covers_of_children isBelow fun child isChild isBelow => ?_
      have isPart : child = receiver.node ∨ child = selector.node := by simpa using isChild
      rw [infer]
      rcases isPart with rfl | rfl
      · exact (covers_infer isInferred receiver isBelow).andThen
      · exact absurd isBelow (notMem_subtree_name isInferred selector)
  | .binary span left operator right, isBelow => by
      refine covers_of_children isBelow fun child isChild isBelow => ?_
      have isPart : child = left.node ∨ child = .operator operator ∨ child = right.node := by
        simpa using isChild
      rw [infer]
      rcases isPart with rfl | rfl | rfl
      · exact (covers_infer isInferred left isBelow).andThen
      · exact absurd isBelow (notMem_subtree_operator operator)
      · exact .after fun _ => (covers_infer isInferred right isBelow).andThen
  | .call span callee arguments, isBelow => by
      refine covers_of_children isBelow fun child isChild isBelow => ?_
      have isPart : child = callee.node ∨ ∃ argument ∈ arguments, argument.node = child := by
        simpa using isChild
      cases callee with
      | name name =>
          rw [infer]
          rcases isPart with rfl | ⟨argument, isArgument, rfl⟩
          · exact absurd isBelow (notMem_subtree_name isInferred name)
          · exact (covers_inferAll isInferred arguments ⟨argument, isArgument, isBelow⟩).andThen
      | member memberSpan receiver selector =>
          rw [infer]
          rcases isPart with rfl | ⟨argument, isArgument, rfl⟩
          · rcases Node.mem_subtree_iff.mp isBelow with same | ⟨part, isPart, isBelow⟩
            · cases same
              cases isInferred
            · have isPart : part = receiver.node ∨ part = selector.node := by simpa using isPart
              rcases isPart with rfl | rfl
              · exact .after fun _ => (covers_infer isInferred receiver isBelow).andThen
              · exact absurd isBelow (notMem_subtree_name isInferred selector)
          · exact (covers_inferAll isInferred arguments ⟨argument, isArgument, isBelow⟩).andThen
      | _ =>
          rw [infer_call]
          · rcases isPart with rfl | ⟨argument, isArgument, rfl⟩
            · exact .after fun _ => (covers_infer isInferred _ isBelow).andThen
            · exact (covers_inferAll isInferred arguments ⟨argument, isArgument, isBelow⟩).andThen
          all_goals simp

theorem covers_inferAll (isInferred : inner.IsInferred) : (values : List Tree.Expr) →
    (∃ value ∈ values, inner.node ∈ value.node.subtree) → (around.inferAll values).Covers around.class? inner
  | [], isBelow => by
      obtain ⟨value, isValue, -⟩ := isBelow
      cases isValue
  | value :: rest, isBelow => by
      rw [inferAll]
      rcases List.exists_mem_cons_iff _ _ _ |>.mp isBelow with isBelow | isBelow
      · exact (covers_infer isInferred value isBelow).andThen
      · exact .after fun _ => (covers_inferAll isInferred rest isBelow).andThen

end

end Children

end Surroundings

end Gloss
