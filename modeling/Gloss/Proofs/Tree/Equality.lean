import Gloss.Tree
import Mathlib.Logic.Basic

/-!
# Trees can be compared

Whether two trees are the same, spans included, is decided constructor by constructor.  The trees
of two texts are compared in this way.
-/

namespace Gloss.Tree

mutual

def TypeRef.decEq : (first second : TypeRef) → Decidable (first = second)
  | .named span nullable name nameSpan arguments,
      .named span' nullable' name' nameSpan' arguments' =>
      have := TypeRef.decEqAll arguments arguments'
      decidable_of_iff (span = span' ∧ nullable = nullable' ∧ name = name' ∧
        nameSpan = nameSpan' ∧ arguments = arguments') (by simp)
  | .function span nullable parameters result, .function span' nullable' parameters' result' =>
      have := TypeRef.decEqAll parameters parameters'
      have := TypeRef.decEq result result'
      decidable_of_iff (span = span' ∧ nullable = nullable' ∧ parameters = parameters' ∧
        result = result') (by simp)
  | .named .., .function .. | .function .., .named .. => isFalse (by simp)

def TypeRef.decEqAll : (first second : List TypeRef) → Decidable (first = second)
  | [], [] => isTrue rfl
  | type :: rest, type' :: rest' =>
      have := TypeRef.decEq type type'
      have := TypeRef.decEqAll rest rest'
      decidable_of_iff (type = type' ∧ rest = rest') (by simp)
  | [], _ :: _ | _ :: _, [] => isFalse (by simp)

end

instance : DecidableEq TypeRef := TypeRef.decEq

mutual

/-- Expressions of different forms are told apart first, so that each form is compared with itself
only. -/
def Expr.decEq (first second : Expr) : Decidable (first = second) :=
  if alike : first.ctorIdx = second.ctorIdx then
    match first, second, alike with
    | .name simple, .name simple', _ => decidable_of_iff (simple = simple') (by simp)
    | .integer span value, .integer span' value', _
    | .text span value, .text span' value', _
    | .boolean span value, .boolean span' value', _ =>
        decidable_of_iff (span = span' ∧ value = value') (by simp)
    | .null span, .null span', _ => decidable_of_iff (span = span') (by simp)
    | .callableRef span target, .callableRef span' target', _ =>
        decidable_of_iff (span = span' ∧ target = target') (by simp)
    | .paren span inner, .paren span' inner', _ =>
        have := Expr.decEq inner inner'
        decidable_of_iff (span = span' ∧ inner = inner') (by simp)
    | .ifThen span condition thenBranch, .ifThen span' condition' thenBranch', _ =>
        have := Expr.decEq condition condition'
        have := Expr.decEq thenBranch thenBranch'
        decidable_of_iff (span = span' ∧ condition = condition' ∧ thenBranch = thenBranch')
          (by simp)
    | .ifElse span condition thenBranch elseBranch,
        .ifElse span' condition' thenBranch' elseBranch', _ =>
        have := Expr.decEq condition condition'
        have := Expr.decEq thenBranch thenBranch'
        have := Expr.decEq elseBranch elseBranch'
        decidable_of_iff (span = span' ∧ condition = condition' ∧ thenBranch = thenBranch' ∧
          elseBranch = elseBranch') (by simp)
    | .call span callee arguments, .call span' callee' arguments', _ =>
        have := Expr.decEq callee callee'
        have := Expr.decEqAll arguments arguments'
        decidable_of_iff (span = span' ∧ callee = callee' ∧ arguments = arguments') (by simp)
    | .member span receiver selector, .member span' receiver' selector', _ =>
        have := Expr.decEq receiver receiver'
        decidable_of_iff (span = span' ∧ receiver = receiver' ∧ selector = selector') (by simp)
    | .binary span left operator right, .binary span' left' operator' right', _ =>
        have := Expr.decEq left left'
        have := Expr.decEq right right'
        decidable_of_iff (span = span' ∧ left = left' ∧ operator = operator' ∧ right = right')
          (by simp)
  else isFalse fun same => alike (congrArg Expr.ctorIdx same)

def Expr.decEqAll : (first second : List Expr) → Decidable (first = second)
  | [], [] => isTrue rfl
  | value :: rest, value' :: rest' =>
      have := Expr.decEq value value'
      have := Expr.decEqAll rest rest'
      decidable_of_iff (value = value' ∧ rest = rest') (by simp)
  | [], _ :: _ | _ :: _, [] => isFalse (by simp)

end

instance : DecidableEq Expr := Expr.decEq

deriving instance DecidableEq for ConstructorParameter, ValueParameter, Property, Statement, Block,
  Body, Function, Member, Class, TopLevel, File

end Gloss.Tree
