import Gloss.Proofs.Audit.Inference
import Gloss.Proofs.Order.Slots

/-!
# Tallies

A tally counts for each slot the nodes for which it is filled, and the nodes
that are visited.  Every part of a tree has a tally, and so has a ledger: what
was written in it and what was visited so far.
-/

namespace Gloss

/-- The nodes for which each slot is filled, and the nodes that are visited. -/
abbrev Tally := (Slot → Multiset NodeRef) × Multiset NodeRef

namespace Tally

def entry (slot : Slot) (node : NodeRef) : Tally := (slot.only node, 0)

def visit (node : NodeRef) : Tally := (0, {node})

/-- What is filled where nothing is visited. -/
def filling (filled : Slot → Multiset NodeRef) : Tally := (filled, 0)

theorem filling_zero : filling 0 = 0 := rfl

theorem filling_add (first second : Slot → Multiset NodeRef) :
    filling (first + second) = filling first + filling second :=
  Prod.ext rfl (add_zero 0).symm

theorem filling_sum {α : Type} (filled : α → Slot → Multiset NodeRef) (parts : List α) :
    filling (parts.map filled).sum = (parts.map fun part => filling (filled part)).sum := by
  induction parts with
  | nil => rfl
  | cons part rest ih => rw [List.map_cons, List.sum_cons, filling_add, ih, List.map_cons,
      List.sum_cons]

end Tally

namespace Tree

namespace Expr

mutual

/-- The expressions whose inference is begun when that of an expression is.  A
name or a member that is called is not inferred on its own. -/
def visited (value : Expr) : Multiset NodeRef :=
  {value.node.ref} +
    match value with
    | .paren _ inner => inner.visited
    | .ifThen _ condition thenBranch => condition.visited + thenBranch.visited
    | .ifElse _ condition thenBranch elseBranch =>
        condition.visited + (thenBranch.visited + elseBranch.visited)
    | .member _ receiver _ => receiver.visited
    | .binary _ left _ right => left.visited + right.visited
    | .call _ (.name _) arguments => visitedAll arguments
    | .call _ (.member _ receiver _) arguments => visitedAll arguments + receiver.visited
    | .call _ callee arguments => visitedAll arguments + callee.visited
    | _ => 0

def visitedAll : List Expr → Multiset NodeRef
  | [] => 0
  | value :: rest => value.visited + visitedAll rest

end

/-- What the inference of an expression adds to a ledger. -/
def tally (value : Expr) : Tally := (value.node.filled, value.visited)

def tallyAll (values : List Expr) : Tally := (values.map tally).sum

end Expr

namespace Statement

def visited : Statement → Multiset NodeRef
  | .expression value => value.visited
  | .variable declared =>
      {(Node.property declared).ref} + (declared.initializer.map Expr.visited).getD 0

def tally (statement : Statement) : Tally := (statement.node.filled, statement.visited)

end Statement

namespace TypeRef

/-- What the resolution of a written type adds to a ledger. -/
def tally (type : TypeRef) : Tally := .filling (Node.type type).filled

def tallyAll (types : List TypeRef) : Tally := (types.map tally).sum

def tally? (type : Option TypeRef) : Tally := (type.map tally).getD 0

theorem tallyAll_nil : tallyAll [] = 0 := rfl

theorem tallyAll_cons (type : TypeRef) (rest : List TypeRef) :
    tallyAll (type :: rest) = type.tally + tallyAll rest :=
  rfl

theorem tallyAll_eq (types : List TypeRef) :
    tallyAll types = ((types.map fun type => (Node.type type).filled).sum, 0) := by
  induction types with
  | nil => rfl
  | cons type rest ih =>
      rw [tallyAll_cons, ih, List.map_cons, List.sum_cons]
      exact Prod.ext rfl (add_zero _)

theorem tally_named (span : Span) (nullable : Bool) (name : String) (nameSpan : Span)
    (arguments : List TypeRef) :
    (named span nullable name nameSpan arguments).tally =
      tallyAll arguments +
        (Tally.entry .meaning (named span nullable name nameSpan arguments).node +
          Tally.entry .type (named span nullable name nameSpan arguments).node) := by
  rw [tallyAll_eq]
  exact Prod.ext (filled_named span nullable name nameSpan arguments) rfl

theorem tally_function (span : Span) (nullable : Bool) (parameters : List TypeRef)
    (result : TypeRef) :
    (function span nullable parameters result).tally =
      tallyAll parameters +
        (result.tally +
          Tally.entry .type (function span nullable parameters result).node) := by
  rw [tallyAll_eq]
  exact Prod.ext ((filled_function span nullable parameters result).trans (add_assoc _ _ _)) rfl

end TypeRef

end Tree

namespace Tree.Expr

theorem tallyAll_nil : tallyAll [] = 0 := rfl

theorem tallyAll_cons (value : Expr) (rest : List Expr) :
    tallyAll (value :: rest) = value.tally + tallyAll rest :=
  rfl

theorem tallyAll_eq (values : List Expr) :
    tallyAll values = ((values.map fun value => value.node.filled).sum, visitedAll values) := by
  induction values with
  | nil => rfl
  | cons value rest ih =>
      rw [tallyAll_cons, ih, List.map_cons, List.sum_cons]
      rfl

section Equations

theorem visited_paren (span : Span) (inner : Expr) :
    (Expr.paren span inner).visited = {(Expr.paren span inner).node.ref} + inner.visited :=
  rfl

theorem visited_ifThen (span : Span) (condition thenBranch : Expr) :
    (Expr.ifThen span condition thenBranch).visited =
      {(Expr.ifThen span condition thenBranch).node.ref} +
        (condition.visited + thenBranch.visited) :=
  rfl

theorem visited_ifElse (span : Span) (condition thenBranch elseBranch : Expr) :
    (Expr.ifElse span condition thenBranch elseBranch).visited =
      {(Expr.ifElse span condition thenBranch elseBranch).node.ref} +
        (condition.visited + (thenBranch.visited + elseBranch.visited)) :=
  rfl

theorem visited_member (span : Span) (receiver : Expr) (selector : SimpleName) :
    (Expr.member span receiver selector).visited =
      {(Expr.member span receiver selector).node.ref} + receiver.visited :=
  rfl

theorem visited_binary (span : Span) (left right : Expr) (operator : OperatorRef) :
    (Expr.binary span left operator right).visited =
      {(Expr.binary span left operator right).node.ref} + (left.visited + right.visited) :=
  rfl

theorem visited_callName (span : Span) (name : SimpleName) (arguments : List Expr) :
    (Expr.call span (.name name) arguments).visited =
      {(Expr.call span (.name name) arguments).node.ref} + visitedAll arguments :=
  rfl

theorem visited_callMember (span memberSpan : Span) (receiver : Expr) (selector : SimpleName)
    (arguments : List Expr) :
    (Expr.call span (.member memberSpan receiver selector) arguments).visited =
      {(Expr.call span (.member memberSpan receiver selector) arguments).node.ref} +
        (visitedAll arguments + receiver.visited) :=
  rfl

/-- A visit and then what is filled. -/
theorem tally_name (name : SimpleName) :
    (Expr.name name).tally =
      Tally.visit name.node.ref +
        (Tally.entry .meaning name.node.ref + Tally.entry .type name.node.ref) := by
  refine Prod.ext ?_ ?_
  · exact (filled_name name).trans (zero_add _).symm
  · rfl

theorem tally_leaf {value : Expr} (noName : ∀ name, value ≠ .name name)
    (leaf : value.node.children = []) (alone : value.visited = {value.node.ref}) :
    value.tally = Tally.visit value.node.ref + Tally.entry .type value.node.ref := by
  refine Prod.ext ?_ ?_
  · exact (filled_leaf noName leaf).trans (zero_add _).symm
  · exact alone.trans (add_zero _).symm

theorem tally_callableRef (span : Span) (target : SimpleName) :
    (Expr.callableRef span target).tally =
      Tally.visit (Expr.callableRef span target).node.ref +
        (Tally.entry .meaning target.node.ref + Tally.entry .type target.node.ref +
          Tally.entry .type (Expr.callableRef span target).node.ref) := by
  refine Prod.ext ?_ ?_
  · exact (filled_callableRef span target).trans (zero_add _).symm
  · rfl

theorem tally_paren (span : Span) (inner : Expr) :
    (Expr.paren span inner).tally =
      Tally.visit (Expr.paren span inner).node.ref +
        (inner.tally + Tally.entry .type (Expr.paren span inner).node.ref) := by
  refine Prod.ext ?_ ?_
  · exact (filled_paren span inner).trans (zero_add _).symm
  · simp [tally, visited_paren, Tally.visit, Tally.entry]

theorem tally_ifThen (span : Span) (condition thenBranch : Expr) :
    (Expr.ifThen span condition thenBranch).tally =
      Tally.visit (Expr.ifThen span condition thenBranch).node.ref +
        (condition.tally + (thenBranch.tally +
          Tally.entry .type (Expr.ifThen span condition thenBranch).node.ref)) := by
  refine Prod.ext ?_ ?_
  · exact (filled_ifThen span condition thenBranch).trans (zero_add _).symm
  · simp [tally, visited_ifThen, Tally.visit, Tally.entry]

theorem tally_ifElse (span : Span) (condition thenBranch elseBranch : Expr) :
    (Expr.ifElse span condition thenBranch elseBranch).tally =
      Tally.visit (Expr.ifElse span condition thenBranch elseBranch).node.ref +
        (condition.tally + (thenBranch.tally + (elseBranch.tally +
          Tally.entry .type (Expr.ifElse span condition thenBranch elseBranch).node.ref))) := by
  refine Prod.ext ?_ ?_
  · exact (filled_ifElse span condition thenBranch elseBranch).trans (zero_add _).symm
  · simp [tally, visited_ifElse, Tally.visit, Tally.entry]

theorem tally_member (span : Span) (receiver : Expr) (selector : SimpleName) :
    (Expr.member span receiver selector).tally =
      Tally.visit (Expr.member span receiver selector).node.ref +
        (receiver.tally +
          ((Tally.entry .meaning selector.node.ref + Tally.entry .type selector.node.ref) +
            Tally.entry .type (Expr.member span receiver selector).node.ref)) := by
  refine Prod.ext ?_ ?_
  · refine (filled_member span receiver selector).trans ?_
    exact (add_assoc _ _ _).trans (zero_add _).symm
  · simp [tally, visited_member, Tally.visit, Tally.entry]

theorem tally_binary (span : Span) (left right : Expr) (operator : OperatorRef) :
    (Expr.binary span left operator right).tally =
      Tally.visit (Expr.binary span left operator right).node.ref +
        (left.tally + (right.tally + (Tally.entry .meaning (Node.operator operator).ref +
          Tally.entry .type (Expr.binary span left operator right).node.ref))) := by
  refine Prod.ext ?_ ?_
  · exact (filled_binary span left right operator).trans (zero_add _).symm
  · simp [tally, visited_binary, Tally.visit, Tally.entry]

theorem tally_callName (span : Span) (name : SimpleName) (arguments : List Expr) :
    (Expr.call span (.name name) arguments).tally =
      Tally.visit (Expr.call span (.name name) arguments).node.ref +
        (tallyAll arguments +
          ((Tally.entry .meaning name.node.ref + Tally.entry .type name.node.ref) +
            Tally.entry .type (Expr.call span (.name name) arguments).node.ref)) := by
  rw [tallyAll_eq]
  refine Prod.ext ?_ ?_
  · refine (filled_call span (.name name) arguments).trans ?_
    refine (add_assoc _ _ _).trans ((zero_add _).symm.trans ?_)
    exact congrArg (fun callee => 0 + (_ + (callee + _))) (filled_name name)
  · simp [tally, visited_callName, Tally.visit, Tally.entry]

theorem tally_callMember (span memberSpan : Span) (receiver : Expr) (selector : SimpleName)
    (arguments : List Expr) :
    (Expr.call span (.member memberSpan receiver selector) arguments).tally =
      Tally.visit (Expr.call span (.member memberSpan receiver selector) arguments).node.ref +
        (tallyAll arguments + (receiver.tally +
          ((Tally.entry .meaning selector.node.ref + Tally.entry .type selector.node.ref) +
            (Tally.entry .type (Expr.member memberSpan receiver selector).node.ref +
              Tally.entry .type
                (Expr.call span (.member memberSpan receiver selector) arguments).node.ref)))) := by
  rw [tallyAll_eq]
  refine Prod.ext ?_ ?_
  · refine (filled_call span _ arguments).trans ?_
    rw [filled_member]
    simp only [tally, Tally.visit, Tally.entry, Prod.fst_add, zero_add]
    abel
  · simp [tally, visited_callMember, Tally.visit, Tally.entry]

theorem tally_call (span : Span) {callee : Expr} (arguments : List Expr)
    (noName : ∀ name, callee ≠ .name name)
    (noMember : ∀ span receiver selector, callee ≠ .member span receiver selector) :
    (Expr.call span callee arguments).tally =
      Tally.visit (Expr.call span callee arguments).node.ref +
        (tallyAll arguments + (callee.tally +
          Tally.entry .type (Expr.call span callee arguments).node.ref)) := by
  rw [tallyAll_eq]
  refine Prod.ext ?_ ?_
  · refine (filled_call span callee arguments).trans ?_
    exact (add_assoc _ _ _).trans (zero_add _).symm
  · cases callee with
    | name name => exact absurd rfl (noName name)
    | member span receiver selector => exact absurd rfl (noMember span receiver selector)
    | _ => simp [tally, visited, Tally.visit, Tally.entry]

end Equations

end Tree.Expr

end Gloss
