import Gloss.Proofs.Grammar.Matching
import Gloss.Proofs.Grammar.Nodes

/-!
# How operators group

Multiplication binds more tightly than addition, addition more tightly than
comparison, and suffixes more tightly than all of them.  For most operands this
follows from the rules that read them.  A conditional is the exception: it is
read where the tightest operands are, but ends with an expression that no
bracket closes.  What can follow it is what that expression has not taken, and
an expression takes all suffixes and all operators but comparisons.
-/

namespace Gloss

namespace Tree

/-- How tightly an operator binds: comparisons least. -/
def Operator.level : Operator → Nat
  | .times | .divide | .remainder => 2
  | .plus | .minus => 1
  | .less | .greater | .atMost | .atLeast | .equal | .unequal => 0

namespace Expr

/-- The level of the operator of a binary expression. -/
def level? : Expr → Option Nat
  | .binary _ _ use _ => some use.operator.level
  | _ => none

def isConditional : Expr → Bool
  | .ifThen .. | .ifElse .. => true
  | _ => false

end Expr

/-- Two expressions can be the operands of an operator without brackets around
them. -/
structure Groups (left : Expr) (operator : Operator) (right : Expr) : Prop where
  leftLevel : ∀ level, left.level? = some level → operator.level ≤ level
  /-- Comparisons do not chain. -/
  comparisonLeft : operator.level = 0 →
    ∀ level, left.level? = some level → operator.level < level
  rightLevel : ∀ level, right.level? = some level → operator.level < level
  conditionalLeft : left.isConditional = true → operator.level = 0

/-- A suffix can follow an expression without brackets around it. -/
structure TakesSuffix (expression : Expr) : Prop where
  level? : expression.level? = none
  isConditional : expression.isConditional = false

end Tree

/-- The operands of the node go without brackets. -/
def Node.Grouped : Node → Prop
  | .expression (.binary _ left use right) => Tree.Groups left use.operator right
  | .expression (.call _ callee _) => Tree.TakesSuffix callee
  | .expression (.member _ receiver _) => Tree.TakesSuffix receiver
  | _ => True

theorem Node.grouped_of_isStep {node : Node} (noStep : node.isStep = false) : node.Grouped := by
  cases node with
  | expression value => cases value <;> trivial
  | _ => trivial

theorem Tree.Operator.level_lt (operator : Operator) : operator.level < 3 := by
  cases operator <;> decide

namespace Grammar

open Node (Throughout throughout_nil throughout_singleton)

/-- A rule that reads by matching. -/
abbrev Matches (text : List Char) : Peg.RuleReading Rule := Peg.Matches Token.scan phrase text

/-- A phrase that does not match at an offset. -/
abbrev Refuses (text : List Char) {α : Type} (refused : Phrase α) (start : Nat) : Prop :=
  Peg.Refuses Token.scan phrase text refused start

/-- Neither a suffix nor an operator of the level or above can follow here,
comparisons apart. -/
structure Ended (text : List Char) (level stop : Nat) : Prop where
  suffix : Refuses text (.rule .suffix) stop
  multiplicative : level ≤ 2 → Refuses text (operation .multiplicativeOperator .suffixed) stop
  additive : level ≤ 1 → Refuses text (operation .additiveOperator .multiplicative) stop

/-- An expression with no operators below a level, and with nothing to follow
that its branches could have taken. -/
structure Operand (text : List Char) (level : Nat) (value : Tree.Expr) (stop : Nat) : Prop where
  level_le : ∀ found, value.level? = some found → level ≤ found
  ended : value.isConditional = true → Ended text 1 stop

theorem Operand.mono {text : List Char} {level lower : Nat} {value : Tree.Expr} {stop : Nat}
    (operand : Operand text level value stop) (le : lower ≤ level) :
    Operand text lower value stop :=
  ⟨fun found isLevel => Nat.le_trans le (operand.level_le found isLevel), operand.ended⟩

/-- What an expression is good for that a rule has read. -/
def Role (text : List Char) : {α : Type} → Rule α → α → Nat → Prop
  | _, .expression, _, stop => Ended text 1 stop
  | _, .additive, value, stop => Operand text 1 value stop ∧ Ended text 1 stop
  | _, .multiplicative, value, stop => Operand text 2 value stop ∧ Ended text 2 stop
  | _, .suffixed, value, stop => Operand text 3 value stop ∧ Ended text 3 stop
  | _, .primary, value, stop | _, .conditional, value, stop | _, .literal, value, stop
  | _, .integerLiteral, value, stop | _, .textLiteral, value, stop
  | _, .truthLiteral, value, stop | _, .nullLiteral, value, stop
  | _, .callableReference, value, stop | _, .parenthesized, value, stop =>
      Operand text 3 value stop
  | _, .comparisonOperator, use, _ => use.operator.level = 0
  | _, .additiveOperator, use, _ => use.operator.level = 1
  | _, .multiplicativeOperator, use, _ => use.operator.level = 2
  | _, _, _, _ => True

/-- A match whose value is grouped. -/
structure GroupedReading (text : List Char) {α : Type} (name : Rule α) (start : Nat) (value : α)
    (stop : Nat) : Prop where
  matching : Matches text name start value stop
  extent : Extent text name start stop
  role : Role text name value stop
  grouped : Throughout Node.Grouped (roots name value)

/-- Reading by matches whose values are grouped. -/
def groupedReading (text : List Char) : Peg.RuleReading Rule := fun _ => GroupedReading text

/-- What a rule reads at its extent, whatever its value. -/
def extentReading (text : List Char) : Peg.RuleReading Rule := fun _ name start _ stop =>
  Extent text name start stop

section Refusals

variable {text : List Char} {start stop : Nat} {α β γ : Type}

/-- A phrase that ends with no white space takes something where it matches. -/
theorem lt_of_run {described : Phrase α} (closing : closes described false = true) {depth : Nat}
    {cursor next : Cursor} {value : α} (stands : cursor.In text)
    (run : described.run Token.scan (Peg.runRule Token.scan phrase depth) cursor =
      .matched value next) : cursor.offset < next.offset := by
  have extent : ∀ {β : Type} (name : Rule β) start value stop,
      extentReading text name start value stop → Extent text name start stop :=
    fun _ _ _ _ reads => reads
  have sound : ∀ {β : Type} (name : Rule β) cursor value next, cursor.In text →
      Peg.runRule Token.scan phrase depth name cursor = .matched value next →
        extentReading text name cursor.offset value next.offset ∧ next.In text :=
    fun _ _ _ _ stands run => Peg.reads_of_runRule Token.scan_le_length
      (fun _ _ _ _ reads => extent_of_reads extent reads) stands run
  obtain ⟨reads, -⟩ := Peg.reads_of_run Token.scan_le_length sound described stands run
  rcases firmTo_of_reads extent closing reads with firm | ⟨impossible, -⟩
  · exact firm.1
  · cases impossible

/-- What ends with a repetition ends where no more of it matches. -/
theorem refuses_of_matches {name : Rule α} {first : Phrase β} {item : Phrase γ}
    {change : β × List γ → α}
    (isRepetition : phrase name = .map change (.both first (.many item)))
    (closing : closes item false = true) {value : α} (extent : Extent text name start stop)
    (firm : name.isFirm = true) (matching : Matches text name start value stop) :
    Refuses text item stop := by
  have tight := extent.tight firm
  have inText : start ≤ text.length :=
    Nat.le_trans (Nat.le_of_lt tight.start_lt_stop) tight.stop_le_length
  exact Peg.refuses_of_matches Token.scan_le_length isRepetition
    (fun _ _ _ _ stands run => lt_of_run closing stands run) inText matching

/-- What is refused at an offset is not read from there. -/
theorem not_refuses_of_reads {described : Phrase α} (plain : described.isPlain = true) {value : α}
    (reads : Reads text (groupedReading text) described start value stop) :
    ¬Refuses text described start :=
  Peg.not_refuses_of_matchesPhrase (Peg.matchesPhrase_of_reads plain
    (Peg.reads_mono (fun _ _ _ _ reading => reading.matching) reads))

end Refusals

section Rules

variable {text : List Char} {start middle stop : Nat}

theorem everywhere_of_grouped {name : Rule Tree.Expr} {value : Tree.Expr}
    (reading : GroupedReading text name start value stop)
    (isRoot : roots name value = [value.node]) : value.node.Everywhere Node.Grouped :=
  throughout_singleton.mp (isRoot ▸ reading.grouped)

/-- An expression with no operators below a level, all of it grouped, up to
where no more operators of another level follow. -/
structure Chain (text : List Char) (level ending : Nat) (value : Tree.Expr) (stop : Nat) :
    Prop where
  operand : Operand text level value stop
  ended : Ended text ending stop
  everywhere : value.node.Everywhere Node.Grouped

theorem Operand.isConditional {level : Nat} {value : Tree.Expr}
    (operand : Operand text level value stop) (goesOn : ¬Ended text 1 stop) :
    value.isConditional = false := by
  cases isConditional : value.isConditional with
  | false => rfl
  | true => exact absurd (operand.ended isConditional) goesOn

/-- A binary expression is no conditional. -/
theorem operand_binary {left right : Tree.Expr} {use : Tree.OperatorRef} :
    Operand text use.operator.level (binary left (use, right)) stop := by
  refine ⟨?_, nofun⟩
  rintro found ⟨⟩
  exact Nat.le_refl _

/-- Operators of one level, which is not that of comparisons, associate to the
left. -/
theorem chain_foldl {level : Nat} (noComparison : 0 < level) (operator : Rule Tree.OperatorRef)
    (operand : Rule Tree.Expr)
    (hasLevel : ∀ {start use stop}, GroupedReading text operator start use stop →
      use.operator.level = level)
    (isOperand : ∀ {start value stop}, GroupedReading text operand start value stop →
      Chain text (level + 1) (level + 1) value stop)
    (notEnded : ∀ {start}, Ended text 1 start → Refuses text (operation operator operand) start)
    {first : Tree.Expr} {rest : List (Tree.OperatorRef × Tree.Expr)}
    (firstReads : GroupedReading text operand start first middle)
    (restReads : Peg.Repeats
      (Reads text (groupedReading text) (operation operator operand)) middle rest stop) :
    Chain text level (level + 1) (rest.foldl binary first) stop := by
  refine restReads.foldl (motive := Chain text level (level + 1)) ?_ ?_
  · intro left right start stop leftChain reads
    obtain ⟨use, right⟩ := right
    -- The last branch of a conditional on the left would have taken this operator.
    have goesOn : ¬Ended text 1 start := fun ended =>
      not_refuses_of_reads rfl reads (notEnded ended)
    obtain ⟨_, useReads, rightReads⟩ := reads
    obtain ⟨_, useReads⟩ := exists_reads_before useReads
    obtain ⟨_, rightReads⟩ := exists_reads_before rightReads
    obtain rfl := hasLevel useReads
    have rightChain := isOperand rightReads
    have isConditional := leftChain.operand.isConditional goesOn
    have groups : Tree.Groups left use.operator right :=
      { leftLevel := leftChain.operand.level_le
        comparisonLeft := fun comparison => absurd comparison (Nat.ne_of_gt noComparison)
        rightLevel := rightChain.operand.level_le
        conditionalLeft := by simp [isConditional] }
    exact ⟨operand_binary, rightChain.ended, everywhere_binary groups leftChain.everywhere
      (.of_children trivial throughout_nil) rightChain.everywhere⟩
  · have chain := isOperand firstReads
    exact ⟨chain.operand.mono (Nat.le_succ _), chain.ended, chain.everywhere⟩

theorem takesSuffix {value : Tree.Expr} (operand : Operand text 3 value stop)
    (goesOn : ¬Ended text 1 stop) : Tree.TakesSuffix value := by
  refine ⟨?_, operand.isConditional goesOn⟩
  cases value with
  | binary span left use right =>
      have := operand.level_le _ rfl
      have := use.operator.level_lt
      omega
  | _ => rfl

theorem operand_withSuffix {value : Tree.Expr} {suffix : Suffix} :
    Operand text 3 (withSuffix value suffix) stop := by
  cases suffix <;> exact ⟨nofun, nofun⟩

theorem chain_suffixed {value : Tree.Expr}
    (matching : Matches text .suffixed start value stop) (extent : Extent text .suffixed start stop)
    (reads : Reads text (groupedReading text) (phrase .suffixed) start value stop) :
    Chain text 3 3 value stop := by
  have refused : Refuses text (.rule .suffix) stop :=
    refuses_of_matches rfl (by decide) extent rfl matching
  obtain ⟨⟨first, suffixes⟩, ⟨middle, firstReads, restReads⟩, rfl⟩ := reads
  have kept : Operand text 3 (suffixes.foldl withSuffix first) stop ∧
      (suffixes.foldl withSuffix first).node.Everywhere Node.Grouped := by
    refine restReads.foldl
      (motive := fun value stop => Operand text 3 value stop ∧
        value.node.Everywhere Node.Grouped) ?_ ?_
    · intro value suffix start stop sofar reads
      have goesOn : ¬Ended text 1 start := fun ended =>
        not_refuses_of_reads rfl reads ended.suffix
      have takes := takesSuffix sofar.1 goesOn
      refine ⟨operand_withSuffix, everywhere_withSuffix ?_ sofar.2 reads.grouped⟩
      cases suffix <;> exact takes
    · exact ⟨firstReads.role, everywhere_of_grouped firstReads rfl⟩
  exact ⟨kept.1, ⟨refused, by omega, by omega⟩, kept.2⟩

theorem chain_multiplicative {value : Tree.Expr}
    (matching : Matches text .multiplicative start value stop)
    (extent : Extent text .multiplicative start stop)
    (reads : Reads text (groupedReading text) (phrase .multiplicative) start value
      stop) :
    Chain text 2 2 value stop := by
  have refused : Refuses text (operation .multiplicativeOperator .suffixed) stop :=
    refuses_of_matches rfl (by decide) extent rfl matching
  obtain ⟨⟨first, rest⟩, ⟨middle, firstReads, restReads⟩, rfl⟩ := reads
  have chain : Chain text 2 3 (rest.foldl binary first) stop :=
    chain_foldl (by omega) .multiplicativeOperator .suffixed (fun reading => reading.role)
      (fun reading => ⟨reading.role.1, reading.role.2, everywhere_of_grouped reading rfl⟩)
      (fun ended => ended.multiplicative (by omega)) firstReads restReads
  exact ⟨chain.operand, ⟨chain.ended.suffix, fun _ => refused, by omega⟩, chain.everywhere⟩

theorem chain_additive {value : Tree.Expr}
    (matching : Matches text .additive start value stop)
    (extent : Extent text .additive start stop)
    (reads : Reads text (groupedReading text) (phrase .additive) start value stop) :
    Chain text 1 1 value stop := by
  have refused : Refuses text (operation .additiveOperator .multiplicative) stop :=
    refuses_of_matches rfl (by decide) extent rfl matching
  obtain ⟨⟨first, rest⟩, ⟨middle, firstReads, restReads⟩, rfl⟩ := reads
  have chain : Chain text 1 2 (rest.foldl binary first) stop :=
    chain_foldl (by omega) .additiveOperator .multiplicative (fun reading => reading.role)
      (fun reading => ⟨reading.role.1, reading.role.2, everywhere_of_grouped reading rfl⟩)
      (fun ended => ended.additive (Nat.le_refl _)) firstReads restReads
  exact ⟨chain.operand, ⟨chain.ended.suffix, fun _ => chain.ended.multiplicative (by omega),
    fun _ => refused⟩, chain.everywhere⟩

/-- At most one comparison, of two operands that are none. -/
theorem chain_expression {value : Tree.Expr}
    (reads : Reads text (groupedReading text) (phrase .expression) start value stop) :
    Chain text 0 1 value stop := by
  obtain ⟨⟨left, right⟩, ⟨middle, leftReads, rightReads⟩, rfl⟩ := reads
  have inLeft := everywhere_of_grouped leftReads rfl
  obtain ⟨leftOperand, leftEnded⟩ := leftReads.role
  rcases rightReads with ⟨missing, rfl⟩ | ⟨⟨use, found⟩, present, _, useReads, rightReads⟩
  · cases missing
    exact ⟨leftOperand.mono (Nat.zero_le _), leftEnded, inLeft⟩
  · cases present
    obtain ⟨_, useReads⟩ := exists_reads_before useReads
    obtain ⟨_, rightReads⟩ := exists_reads_before rightReads
    have isComparison : use.operator.level = 0 := useReads.role
    obtain ⟨rightOperand, rightEnded⟩ := rightReads.role
    have groups : Tree.Groups left use.operator found :=
      { leftLevel := by simp [isComparison]
        comparisonLeft := fun _ => by rw [isComparison]; exact leftOperand.level_le
        rightLevel := by rw [isComparison]; exact rightOperand.level_le
        conditionalLeft := fun _ => isComparison }
    exact ⟨operand_binary.mono (Nat.zero_le _), rightEnded, everywhere_binary groups inLeft
      (.of_children trivial throughout_nil) (everywhere_of_grouped rightReads rfl)⟩

/-- A conditional ends where its last branch does. -/
theorem operand_conditional {value : Tree.Expr}
    (reads : Reads text (groupedReading text) (phrase .conditional) start value stop) :
    Operand text 3 value stop := by
  obtain ⟨⟨span, condition, thenBranch, elseBranch⟩, ⟨-, reads⟩, rfl⟩ := reads
  obtain ⟨_, _, -, _, thenReads, elseReads⟩ := exists_reads_before reads
  rcases elseReads with ⟨missing, rfl⟩ | ⟨found, present, elseReads⟩
  · cases missing
    exact ⟨nofun, fun _ => thenReads.role⟩
  · cases present
    obtain ⟨_, elseReads⟩ := exists_reads_before elseReads
    exact ⟨nofun, fun _ => elseReads.role⟩

theorem level_of_reads {operator : Tree.Operator} {use : Tree.OperatorRef}
    {rule : Peg.RuleReading Rule}
    (reads : Reads text rule (Grammar.operator operator) start use stop) :
    use.operator = operator := by
  obtain ⟨_, -, rfl⟩ := reads
  rfl

theorem role_of_reads {α : Type} {name : Rule α} {value : α} (once : isChain name = false)
    (reads : Reads text (groupedReading text) (phrase name) start value stop) :
    Role text name value stop := by
  cases name with
  | expression | additive | multiplicative | suffixed => cases once
  | comparisonOperator =>
      rcases reads with reads | reads | reads | reads | reads | reads <;>
        exact congrArg _ (level_of_reads reads)
  | additiveOperator =>
      rcases reads with reads | reads <;> exact congrArg _ (level_of_reads reads)
  | multiplicativeOperator =>
      rcases reads with reads | reads | reads <;> exact congrArg _ (level_of_reads reads)
  | primary =>
      rcases reads with reads | reads | reads | reads | ⟨_, -, rfl⟩
      · exact reads.role
      · exact reads.role
      · exact reads.role
      · exact reads.role
      · exact ⟨nofun, nofun⟩
  | conditional => exact operand_conditional reads
  | literal =>
      rcases reads with reads | reads | reads | reads <;> exact reads.role
  | integerLiteral | textLiteral | truthLiteral | nullLiteral | callableReference
  | parenthesized =>
      obtain ⟨_, -, rfl⟩ := reads
      exact ⟨nofun, nofun⟩
  | _ => trivial

theorem isStep_of_makesName {α : Type} {name : Rule α} {value : α}
    (makes : makesName name = true) : ∀ node ∈ roots name value, node.isStep = false := by
  cases name <;> first | cases makes; done | exact List.forall_mem_singleton.mpr rfl

/-- A rule groups what it reads when the rules inside of it do. -/
theorem groupedReading_of_reads {α : Type} {name : Rule α} {value : α}
    (matching : Matches text name start value stop)
    (reads : Reads text (groupedReading text) (phrase name) start value stop) :
    GroupedReading text name start value stop := by
  have extents : ∀ {β : Type} (name : Rule β) start value stop,
      groupedReading text name start value stop → Extent text name start stop :=
    fun _ _ _ _ inner => inner.extent
  have extent := extent_of_reads extents reads
  by_cases once : isChain name = false
  · refine ⟨matching, extent, role_of_reads once reads, ?_⟩
    refine throughout_roots (fun inner => inner.grouped) once ?_ ?_ reads
    · exact fun _ _ _ noStep => Node.grouped_of_isStep noStep
    · exact fun makes node isRoot => Node.grouped_of_isStep (isStep_of_makesName makes node isRoot)
  · cases name with
    | expression =>
        have chain := chain_expression reads
        exact ⟨matching, extent, chain.ended, throughout_singleton.mpr chain.everywhere⟩
    | additive =>
        have chain := chain_additive matching extent reads
        exact ⟨matching, extent, ⟨chain.operand, chain.ended⟩,
          throughout_singleton.mpr chain.everywhere⟩
    | multiplicative =>
        have chain := chain_multiplicative matching extent reads
        exact ⟨matching, extent, ⟨chain.operand, chain.ended⟩,
          throughout_singleton.mpr chain.everywhere⟩
    | suffixed =>
        have chain := chain_suffixed matching extent reads
        exact ⟨matching, extent, ⟨chain.operand, chain.ended⟩,
          throughout_singleton.mpr chain.everywhere⟩
    | _ => exact absurd rfl once

end Rules

/-- In a tree that was read from a text, whatever goes without brackets around
it is grouped by the levels of the operators. -/
theorem grouped_of_read {file : String} {text : List Char} {tree : Tree.File}
    (read : read file text = .ok tree) : (Node.file tree).Everywhere Node.Grouped := by
  obtain ⟨next, matched, -⟩ := exists_match_of_read read
  have closed : ∀ {α : Type} (name : Rule α) start value stop,
      Matches text name start value stop →
      Reads text (fun _ inner start value stop => Matches text inner start value stop ∧
        groupedReading text inner start value stop) (phrase name) start value stop →
      groupedReading text name start value stop := fun _ _ _ _ matching reads =>
    groupedReading_of_reads matching (Peg.reads_mono (fun _ _ _ _ inner => inner.2) reads)
  obtain ⟨⟨-, reading⟩, -⟩ :=
    Peg.matches_of_runRule Token.scan_le_length closed (Cursor.in_ofText text) matched
  exact throughout_singleton.mp reading.grouped

/-- A conditional without brackets on the left of a comparison, with the
operators of all levels on the right. -/
theorem grouped_of_read_conditional :
    ∃ tree, read "sample" "val a = if (b) c == d == e - 1 - 2 * f.g(3)".toList = .ok tree ∧
      (Node.file tree).Everywhere Node.Grouped := by
  have computed :
      (read "sample" "val a = if (b) c == d == e - 1 - 2 * f.g(3)".toList).isOk = true := by
    decide +kernel
  cases readable : read "sample" "val a = if (b) c == d == e - 1 - 2 * f.g(3)".toList with
  | error fault =>
      rw [readable] at computed
      cases computed
  | ok tree => exact ⟨tree, rfl, grouped_of_read readable⟩

end Grammar

end Gloss
