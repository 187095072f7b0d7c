import Gloss.Proofs.Grammar.Placement

/-!
# Expressions in their places

Binary expressions and suffixes are read from left to right, so the expression
read so far always fills the stretch from the start.
-/

namespace Gloss.Grammar

open Node (Fills Row WellPlaced)

variable {text : List Char} {rule : Peg.RuleReading Rule} {start middle stop : Nat}

/-- A token that makes an expression without parts. -/
theorem fills_literal {token : Token} {make : Span × List Char → Tree.Expr} {value : Tree.Expr}
    (spans : ∀ found, (make found).node.span = found.1)
    (nameless : ∀ found, (make found).node.name? = none)
    (childless : ∀ found, (make found).node.children = [])
    (tight : Text.Tight text ⟨start, stop⟩)
    (reads : Reads text rule (.map make (.spanned (.token token))) start value stop) :
    Fills text start value.node stop := by
  obtain ⟨⟨span, characters⟩, ⟨isSpan, -⟩, rfl⟩ := reads
  cases isSpan
  refine ⟨spans _, .of_nameless tight (spans _) (nameless _) ?_ ?_⟩
  · rw [childless]
    exact .nil (Nat.le_of_lt tight.start_lt_stop)
  · rw [childless]
    exact fun _ member => absurd member List.not_mem_nil

theorem fills_operator {operator : Tree.Operator} {use : Tree.OperatorRef}
    (tight : Text.Tight text ⟨start, stop⟩)
    (reads : Reads text rule (Grammar.operator operator) start use stop) :
    Fills text start (.operator use) stop := by
  obtain ⟨⟨span, characters⟩, ⟨spans, reads⟩, rfl⟩ := reads
  cases spans
  have spelled : Text.slice start stop text = operator.symbol.toList := by
    rw [slice_of_reads_token reads]
    obtain ⟨count, scanned, rfl, -⟩ := reads
    obtain ⟨rfl, isPrefix⟩ := Token.scanSymbol_eq_some scanned
    exact (List.prefix_iff_eq_take.mp isPrefix).symm
  refine ⟨rfl, .of_named [] [] tight rfl rfl spelled
    tight.start_lt_stop (fun _ => rfl) rfl ?_ ?_⟩
  · exact .nil (Nat.le_refl _)
  · exact .nil (Nat.le_refl _)

theorem fills_binary {left right : Tree.Expr} {use : Tree.OperatorRef}
    {useStart useStop rightStart : Nat} (leftFills : Fills text start left.node middle)
    (beforeUse : middle ≤ useStart) (useFills : Fills text useStart (.operator use) useStop)
    (beforeRight : useStop ≤ rightStart) (rightFills : Fills text rightStart right.node stop) :
    Fills text start (binary left (use, right)).node stop := by
  have leftSpan : left.span = ⟨start, middle⟩ := leftFills.span
  have rightSpan : right.span = ⟨rightStart, stop⟩ := rightFills.span
  have span : (binary left (use, right)).node.span = ⟨start, stop⟩ := by
    change Span.mk left.span.start right.span.stop = ⟨start, stop⟩
    rw [leftSpan, rightSpan]
  have tight : Text.Tight text ⟨start, stop⟩ := by
    have leftTight := leftFills.placed.tidy.tight
    have rightTight := rightFills.placed.tidy.tight
    rw [leftFills.span] at leftTight
    rw [rightFills.span] at rightTight
    have between : middle ≤ rightStart :=
      Nat.le_trans beforeUse (Nat.le_trans useFills.row.le beforeRight)
    exact leftTight.join rightTight between
  have row : Row text start [left.node, .operator use, right.node] stop :=
    (leftFills.row.append (useFills.row.widen beforeUse beforeRight)).append rightFills.row
  exact ⟨span, .of_several tight span rfl row (by simp [binary, Tree.Expr.node, Node.children,
    Node.parts, Node.expressionParts, Part.children])⟩

variable (sound : Sound text rule)

include sound

theorem places_comparisonOperator {use : Tree.OperatorRef}
    (reads : Reads text rule (phrase .comparisonOperator) start use stop) :
    Places text .comparisonOperator start use stop := by
  have tight := tight_of_reads sound rfl reads
  rcases reads with reads | reads | reads | reads | reads | reads
  all_goals exact fills_operator tight reads

theorem places_additiveOperator {use : Tree.OperatorRef}
    (reads : Reads text rule (phrase .additiveOperator) start use stop) :
    Places text .additiveOperator start use stop := by
  have tight := tight_of_reads sound rfl reads
  rcases reads with reads | reads
  all_goals exact fills_operator tight reads

theorem places_multiplicativeOperator {use : Tree.OperatorRef}
    (reads : Reads text rule (phrase .multiplicativeOperator) start use stop) :
    Places text .multiplicativeOperator start use stop := by
  have tight := tight_of_reads sound rfl reads
  rcases reads with reads | reads | reads
  all_goals exact fills_operator tight reads

/-- An operator and an operand after an expression make it a larger one. -/
theorem fills_operation {operator : Rule Tree.OperatorRef} {operand : Rule Tree.Expr}
    {left : Tree.Expr} {right : Tree.OperatorRef × Tree.Expr}
    (leftFills : Fills text start left.node middle)
    (reads : Reads text rule (operation operator operand) middle right stop)
    (operatorPlaced : ∀ start use stop, Places text operator start use stop →
      Fills text start (.operator use) stop)
    (operandPlaced : ∀ start value stop, Places text operand start value stop →
      Fills text start value.node stop) :
    Fills text start (binary left right).node stop := by
  obtain ⟨afterUse, useReads, operandReads⟩ := reads
  obtain ⟨useStart, ⟨useBlank, useBlankReads⟩, useReads⟩ := reads_before.mp useReads
  obtain ⟨rightStart, ⟨rightBlank, rightBlankReads⟩, operandReads⟩ := reads_before.mp operandReads
  exact fills_binary leftFills (le_of_reads_blank sound useBlankReads)
    (operatorPlaced _ _ _ (sound.places useReads)) (le_of_reads_blank sound rightBlankReads)
    (operandPlaced _ _ _ (sound.places operandReads))

theorem fills_foldl_binary {operator : Rule Tree.OperatorRef} {operand : Rule Tree.Expr}
    {left : Tree.Expr} {rest : List (Tree.OperatorRef × Tree.Expr)}
    (leftFills : Fills text start left.node middle)
    (repeats : Peg.Repeats (Reads text rule (operation operator operand)) middle rest stop)
    (operatorPlaced : ∀ start use stop, Places text operator start use stop →
      Fills text start (.operator use) stop)
    (operandPlaced : ∀ start value stop, Places text operand start value stop →
      Fills text start value.node stop) :
    Fills text start (rest.foldl binary left).node stop := by
  induction repeats generalizing left with
  | nil => exact leftFills
  | cons reads moves rest ih =>
      exact ih (fills_operation sound leftFills reads operatorPlaced operandPlaced)

theorem places_expression {value : Tree.Expr}
    (reads : Reads text rule (phrase .expression) start value stop) :
    Places text .expression start value stop := by
  obtain ⟨⟨left, right⟩, ⟨middle, leftReads, rightReads⟩, rfl⟩ := reads
  have leftFills : Fills text start left.node middle := sound.places leftReads
  rcases rightReads with ⟨missing, same⟩ | ⟨found, present, rightReads⟩
  · cases missing
    subst same
    exact leftFills
  · cases present
    exact fills_operation sound leftFills rightReads (fun _ _ _ fills => fills)
      (fun _ _ _ fills => fills)

theorem places_additive {value : Tree.Expr}
    (reads : Reads text rule (phrase .additive) start value stop) :
    Places text .additive start value stop := by
  obtain ⟨⟨left, rest⟩, ⟨middle, leftReads, restReads⟩, rfl⟩ := reads
  have leftFills : Fills text start left.node middle := sound.places leftReads
  exact fills_foldl_binary sound leftFills restReads (fun _ _ _ fills => fills)
    (fun _ _ _ fills => fills)

theorem places_multiplicative {value : Tree.Expr}
    (reads : Reads text rule (phrase .multiplicative) start value stop) :
    Places text .multiplicative start value stop := by
  obtain ⟨⟨left, rest⟩, ⟨middle, leftReads, restReads⟩, rfl⟩ := reads
  have leftFills : Fills text start left.node middle := sound.places leftReads
  exact fills_foldl_binary sound leftFills restReads (fun _ _ _ fills => fills)
    (fun _ _ _ fills => fills)

theorem places_arguments {values : List Tree.Expr}
    (reads : Reads text rule (phrase .arguments) start values stop) :
    Places text .arguments start values stop :=
  row_of_separated sound reads fun _ _ _ fills => fills

theorem places_callSuffix {value : Suffix}
    (reads : Reads text rule (phrase .callSuffix) start value stop) :
    Places text .callSuffix start value stop := by
  obtain ⟨⟨span, arguments⟩, ⟨spans, reads⟩, rfl⟩ := reads
  cases spans
  obtain ⟨innerStart, innerStop, opens, closes, reads⟩ :=
    reads_inside sound (by decide) (by decide) reads
  have row : Row text innerStart (arguments.map Tree.Expr.node) innerStop :=
    row_of_orEmpty reads fun _ inner => sound.places inner
  exact ⟨rfl, innerStop, closes, row.widen (Nat.le_of_lt opens) (Nat.le_refl _)⟩

theorem places_memberSuffix {value : Suffix}
    (reads : Reads text rule (phrase .memberSuffix) start value stop) :
    Places text .memberSuffix start value stop := by
  obtain ⟨selector, reads, rfl⟩ := reads
  obtain ⟨selectorStart, ⟨dot, dotReads⟩, reads⟩ := reads_before.mp reads
  have fills : Fills text selectorStart selector.node stop := sound.places reads
  have span : selector.span = ⟨selectorStart, stop⟩ := fills.span
  exact ⟨congrArg Span.stop span,
    fills.row.widen (le_of_reads sound.extent dotReads) (Nat.le_refl _)⟩

theorem places_suffix {value : Suffix}
    (reads : Reads text rule (phrase .suffix) start value stop) :
    Places text .suffix start value stop := by
  rcases reads with reads | reads
  · have places : Places text .callSuffix start value stop := sound.places reads
    exact places
  · have places : Places text .memberSuffix start value stop := sound.places reads
    exact places

/-- A suffix after an expression makes it a larger one. -/
theorem fills_withSuffix {value : Tree.Expr} {suffix : Suffix}
    (fills : Fills text start value.node middle) (reads : rule .suffix middle suffix stop) :
    Fills text start (withSuffix value suffix).node stop := by
  have valueSpan : value.span = ⟨start, middle⟩ := fills.span
  have tight : Text.Tight text ⟨start, stop⟩ := by
    have valueTight := fills.placed.tidy.tight
    rw [fills.span] at valueTight
    exact valueTight.join ((sound.extent _ _ _ _ reads).tight rfl) (Nat.le_refl _)
  have places : PlacesSuffix text middle suffix stop := sound.places reads
  cases suffix with
  | call arguments last =>
      obtain ⟨rfl, inner, closes, row⟩ := places
      have span : (withSuffix value (.call arguments last)).node.span = ⟨start, last⟩ := by
        change Span.mk value.span.start last = ⟨start, last⟩
        rw [valueSpan]
      have children : (withSuffix value (.call arguments last)).node.children =
          [value.node] ++ arguments.map Tree.Expr.node := by
        simp [withSuffix, Tree.Expr.node, Node.children, Node.parts, Node.expressionParts,
          Part.children]
      have whole := fills.row.append row
      rw [← children] at whole
      exact ⟨span, .of_inner tight span rfl whole (Nat.le_refl _) (Nat.le_of_lt closes)
        (.inr closes)⟩
  | member selector =>
      obtain ⟨selectorStop, row⟩ := places
      have span : (withSuffix value (.member selector)).node.span = ⟨start, stop⟩ := by
        change Span.mk value.span.start selector.span.stop = ⟨start, stop⟩
        rw [valueSpan, selectorStop]
      have whole : Row text start [value.node, selector.node] stop := fills.row.append row
      exact ⟨span, .of_several tight span rfl whole (Nat.lt_succ_self 1)⟩

theorem fills_foldl_withSuffix {value : Tree.Expr} {suffixes : List Suffix}
    (fills : Fills text start value.node middle)
    (repeats : Peg.Repeats (rule .suffix) middle suffixes stop) :
    Fills text start (suffixes.foldl withSuffix value).node stop := by
  induction repeats generalizing value with
  | nil => exact fills
  | cons reads moves rest ih => exact ih (fills_withSuffix sound fills reads)

theorem places_suffixed {value : Tree.Expr}
    (reads : Reads text rule (phrase .suffixed) start value stop) :
    Places text .suffixed start value stop := by
  obtain ⟨⟨inner, suffixes⟩, ⟨middle, innerReads, suffixReads⟩, rfl⟩ := reads
  have fills : Fills text start inner.node middle := sound.places innerReads
  exact fills_foldl_withSuffix sound fills suffixReads

theorem places_parenthesized {value : Tree.Expr}
    (reads : Reads text rule (phrase .parenthesized) start value stop) :
    Places text .parenthesized start value stop := by
  have tight := tight_of_reads sound rfl reads
  obtain ⟨⟨span, inner⟩, ⟨spans, reads⟩, rfl⟩ := reads
  cases spans
  obtain ⟨innerStart, innerStop, opens, closes, reads⟩ :=
    reads_inside sound (by decide) (by decide) reads
  have fills : Fills text innerStart inner.node innerStop := sound.places reads
  exact ⟨rfl, .of_inner tight rfl rfl fills.row (Nat.le_of_lt opens) (Nat.le_of_lt closes)
    (.inl opens)⟩

theorem places_callableReference {value : Tree.Expr}
    (reads : Reads text rule (phrase .callableReference) start value stop) :
    Places text .callableReference start value stop := by
  have tight := tight_of_reads sound rfl reads
  obtain ⟨⟨span, target⟩, ⟨spans, reads⟩, rfl⟩ := reads
  cases spans
  obtain ⟨targetStart, ⟨colons, colonsRead⟩, reads⟩ := reads_before.mp reads
  have fills : Fills text targetStart target.node stop := sound.places reads
  have opens := lt_of_reads_symbol (by decide) colonsRead
  exact ⟨rfl, .of_inner tight rfl rfl fills.row (Nat.le_of_lt opens) (Nat.le_refl _)
    (.inl opens)⟩

theorem places_conditional {value : Tree.Expr}
    (reads : Reads text rule (phrase .conditional) start value stop) :
    Places text .conditional start value stop := by
  have tight := tight_of_reads sound rfl reads
  obtain ⟨⟨span, condition, thenBranch, elseBranch⟩, ⟨spans, reads⟩, rfl⟩ := reads
  cases spans
  obtain ⟨afterKeyword, ⟨skipped, skippedReads⟩, afterCondition, conditionReads, afterThen,
    thenReads, elseReads⟩ := reads_before.mp reads
  have keywordLe := le_of_reads sound.extent skippedReads
  obtain ⟨conditionEnd, conditionReads, blank, blankReads⟩ := reads_followedBy.mp conditionReads
  obtain ⟨conditionStart, conditionStop, opens, closes, conditionReads⟩ :=
    reads_inside sound (by decide) (by decide) conditionReads
  have blankLe := le_of_reads_blank sound blankReads
  have conditionFills : Fills text conditionStart condition.node conditionStop :=
    sound.places conditionReads
  have thenFills : Fills text afterCondition thenBranch.node afterThen := sound.places thenReads
  have row : Row text conditionStart [condition.node, thenBranch.node] afterThen :=
    (conditionFills.row.widen (Nat.le_refl _) (by omega)).append thenFills.row
  have inner : start < conditionStart := by omega
  rcases elseReads with ⟨missing, same⟩ | ⟨found, present, elseReads⟩
  · cases missing
    subst same
    exact ⟨rfl, .of_inner tight rfl rfl row (Nat.le_of_lt inner) (Nat.le_refl _) (.inl inner)⟩
  · cases present
    have elseRow : Row text afterThen [found.node] stop :=
      row_of_before sound elseReads fun _ branch => Fills.row (sound.places branch)
    exact ⟨rfl, .of_inner tight rfl rfl (row.append elseRow) (Nat.le_of_lt inner)
      (Nat.le_refl _) (.inl inner)⟩

theorem places_integerLiteral {value : Tree.Expr}
    (reads : Reads text rule (phrase .integerLiteral) start value stop) :
    Places text .integerLiteral start value stop :=
  fills_literal (fun _ => rfl) (fun _ => rfl) (fun _ => rfl) (tight_of_reads sound rfl reads) reads

theorem places_textLiteral {value : Tree.Expr}
    (reads : Reads text rule (phrase .textLiteral) start value stop) :
    Places text .textLiteral start value stop :=
  fills_literal (fun _ => rfl) (fun _ => rfl) (fun _ => rfl) (tight_of_reads sound rfl reads) reads

theorem places_truthLiteral {value : Tree.Expr}
    (reads : Reads text rule (phrase .truthLiteral) start value stop) :
    Places text .truthLiteral start value stop :=
  fills_literal (fun _ => rfl) (fun _ => rfl) (fun _ => rfl) (tight_of_reads sound rfl reads) reads

theorem places_nullLiteral {value : Tree.Expr}
    (reads : Reads text rule (phrase .nullLiteral) start value stop) :
    Places text .nullLiteral start value stop :=
  fills_literal (fun _ => rfl) (fun _ => rfl) (fun _ => rfl) (tight_of_reads sound rfl reads) reads

theorem places_literal {value : Tree.Expr}
    (reads : Reads text rule (phrase .literal) start value stop) :
    Places text .literal start value stop := by
  rcases reads with reads | reads | reads | reads
  · have fills : Places text .integerLiteral start value stop := sound.places reads
    exact fills
  · have fills : Places text .textLiteral start value stop := sound.places reads
    exact fills
  · have fills : Places text .truthLiteral start value stop := sound.places reads
    exact fills
  · have fills : Places text .nullLiteral start value stop := sound.places reads
    exact fills

theorem places_primary {value : Tree.Expr}
    (reads : Reads text rule (phrase .primary) start value stop) :
    Places text .primary start value stop := by
  rcases reads with reads | reads | reads | reads | ⟨name, reads, rfl⟩
  · have fills : Places text .conditional start value stop := sound.places reads
    exact fills
  · have fills : Places text .literal start value stop := sound.places reads
    exact fills
  · have fills : Places text .callableReference start value stop := sound.places reads
    exact fills
  · have fills : Places text .parenthesized start value stop := sound.places reads
    exact fills
  · have fills : Places text .nameReference start name stop := sound.places reads
    exact fills

end Gloss.Grammar
