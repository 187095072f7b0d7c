import Gloss.Proofs.Grammar.Progress
import Gloss.Proofs.Grammar.Nodes
import Gloss.Proofs.Tree.Spans

/-!
# Matching looks ahead only

What comes before a cursor has no influence on a match: at an offset of a text
a rule matches what it matches at the start of the rest of the text, with all
spans moved.  White space and comments before a file move it as a whole.
-/

namespace Gloss

/-- The cursor with as many more characters before it. -/
def Cursor.behind (count : Nat) (cursor : Cursor) : Cursor := ⟨cursor.offset + count, cursor.rest⟩

namespace Outcome

variable {α : Type}

/-- The outcome with as many more characters before the text, and with a value
that is changed accordingly. -/
def behind (count : Nat) (change : α → α) : Outcome α → Outcome α
  | .exhausted => .exhausted
  | .mismatch => .mismatch
  | .matched value next => .matched (change value) (next.behind count)

theorem next?_behind (count : Nat) (change : α → α) (outcome : Outcome α) :
    (outcome.behind count change).next?.map Cursor.offset =
      (outcome.next?.map Cursor.offset).map (· + count) := by
  cases outcome <;> rfl

end Outcome

namespace Peg

variable {τ : Type} {ρ : Type → Type} {α β : Type}

/-- The value of a phrase changes in a given way when as many more characters
come before the text, where the values of the rules change in theirs. -/
inductive Carries (count : Nat) (rule : ⦃α : Type⦄ → ρ α → α → α) :
    {α : Type} → Peg τ ρ α → (α → α) → Prop where
  | token (sought : τ) : Carries count rule (.token sought) id
  | rule {α : Type} (name : ρ α) : Carries count rule (.rule name) (rule name)
  | both {α γ : Type} {first : Peg τ ρ α} {second : Peg τ ρ γ} {change : α → α}
      {other : γ → γ} : Carries count rule first change → Carries count rule second other →
      Carries count rule (.both first second) (Prod.map change other)
  | either {α : Type} {first second : Peg τ ρ α} {change : α → α} :
      Carries count rule first change → Carries count rule second change →
      Carries count rule (.either first second) change
  | optional {α : Type} {inner : Peg τ ρ α} {change : α → α} :
      Carries count rule inner change → Carries count rule (.optional inner) (Option.map change)
  | many {α : Type} {inner : Peg τ ρ α} {change : α → α} :
      Carries count rule inner change → Carries count rule (.many inner) (List.map change)
  | map {α γ : Type} {inner : Peg τ ρ α} {make : α → γ} {change : α → α} {outer : γ → γ} :
      Carries count rule inner change → (∀ value, make (change value) = outer (make value)) →
      Carries count rule (.map make inner) outer
  | spanned {α : Type} {inner : Peg τ ρ α} {change : α → α} :
      Carries count rule inner change →
      Carries count rule (.spanned inner) (Prod.map (Span.behind count) change)

section Runs

variable {scan : τ → List Char → Option Nat} {count : Nat}
  {rule : ⦃α : Type⦄ → ρ α → α → α}

theorem repeated_behind {step : Cursor → Outcome α} {change : α → α}
    (stepBehind : ∀ cursor, step (cursor.behind count) = (step cursor).behind count change)
    (limit : Nat) (cursor : Cursor) :
    repeated step limit (cursor.behind count) =
      (repeated step limit cursor).behind count (List.map change) := by
  induction limit generalizing cursor with
  | zero => rfl
  | succ limit ih =>
      rw [repeated, repeated, stepBehind]
      cases step cursor with
      | exhausted | mismatch => rfl
      | matched value next =>
          have sameMove : (next.behind count).offset ≤ (cursor.behind count).offset ↔
              next.offset ≤ cursor.offset := Nat.add_le_add_iff_right
          simp only [Outcome.behind, sameMove, ih]
          split
          · rfl
          · cases repeated step limit next <;> rfl

/-- Matching a phrase behind as many more characters. -/
theorem run_behind {call : {α : Type} → ρ α → Cursor → Outcome α}
    (callBehind : ∀ {α : Type} (name : ρ α) cursor,
      call name (cursor.behind count) = (call name cursor).behind count (rule name))
    {phrase : Peg τ ρ α} {change : α → α} (carries : Carries count rule phrase change)
    (cursor : Cursor) :
    phrase.run scan call (cursor.behind count) =
      (phrase.run scan call cursor).behind count change := by
  induction carries generalizing cursor with
  | token sought =>
      have sameRest : (cursor.behind count).rest = cursor.rest := rfl
      rw [run, run, sameRest]
      cases scan sought cursor.rest with
      | none => rfl
      | some found =>
          simp only [Outcome.behind, Cursor.behind, Cursor.advance, id_eq, Nat.add_right_comm]
  | rule name => exact callBehind name cursor
  | @both _ _ first second _ _ _ _ firstIh secondIh =>
      rw [run, run, firstIh]
      cases first.run scan call cursor with
      | exhausted | mismatch => rfl
      | matched value middle =>
          simp only [Outcome.behind, Outcome.andThen, secondIh]
          cases second.run scan call middle <;> rfl
  | @either _ first second _ _ _ firstIh secondIh =>
      rw [run, run, firstIh]
      cases first.run scan call cursor with
      | exhausted | matched => rfl
      | mismatch => exact secondIh cursor
  | @optional _ inner _ _ ih =>
      rw [run, run, ih]
      cases inner.run scan call cursor <;> rfl
  | many _ ih => exact repeated_behind ih _ cursor
  | @map _ _ inner make _ _ _ exchange ih =>
      rw [run, run, ih]
      cases inner.run scan call cursor with
      | exhausted | mismatch => rfl
      | matched value next => simp only [Outcome.behind, Outcome.andThen, exchange]
  | @spanned _ inner _ _ ih =>
      rw [run, run, ih]
      cases inner.run scan call cursor <;> rfl

/-- Matching a rule behind as many more characters, where every rule's phrase
carries the change of its values. -/
theorem runRule_behind {grammar : {α : Type} → ρ α → Peg τ ρ α}
    (carries : ∀ {α : Type} (name : ρ α), Carries count rule (grammar name) (rule name))
    (depth : Nat) (name : ρ α) (cursor : Cursor) :
    runRule scan grammar depth name (cursor.behind count) =
      (runRule scan grammar depth name cursor).behind count (rule name) := by
  induction depth generalizing α cursor with
  | zero => rfl
  | succ depth ih => exact run_behind ih (carries name) cursor

end Runs

section Combinators

variable {count : Nat} {rule : ⦃α : Type⦄ → ρ α → α → α} {first : Peg τ ρ α}
  {second : Peg τ ρ β} {change : α → α} {other : β → β}

theorem carries_before (inFirst : Carries count rule first change)
    (inSecond : Carries count rule second other) : Carries count rule (first *> second) other :=
  .map (.both inFirst inSecond) fun _ => rfl

theorem carries_followedBy (inFirst : Carries count rule first change)
    (inSecond : Carries count rule second other) : Carries count rule (first <* second) change :=
  .map (.both inFirst inSecond) fun _ => rfl

theorem carries_separated (inSeparator : Carries count rule second other)
    (inItem : Carries count rule first change) :
    Carries count rule (separated second first) (List.map change) :=
  .map (.both inItem (.many (carries_before inSeparator inItem))) fun _ => rfl

theorem carries_orEmpty {inner : Peg τ ρ (List α)}
    (inside : Carries count rule inner (List.map change)) :
    Carries count rule (orEmpty inner) (List.map change) :=
  .map (.optional inside) fun found => by cases found <;> rfl

end Combinators

end Peg

/-- A suffix with other spans; the offset where it stops moves along. -/
def Suffix.behind (count : Nat) : Suffix → Suffix
  | .call arguments stop => .call (arguments.map (Tree.Expr.respan (.behind count))) (stop + count)
  | .member selector => .member (selector.respan (.behind count))

/-- What a rule has read, moved behind as many more characters. -/
def Rule.behind (count : Nat) : ⦃α : Type⦄ → Rule α → α → α
  | _, .file => Tree.File.respan (.behind count)
  | _, .packagePart | _, .packageHeader => Tree.Package.respan (.behind count)
  | _, .topLevel | _, .declaration => Tree.TopLevel.respan (.behind count)
  | _, .qualifiedName => List.map (Tree.SimpleName.respan (.behind count))
  | _, .member => Tree.Member.respan (.behind count)
  | _, .classDeclaration => Tree.Class.respan (.behind count)
  | _, .typeParameters => List.map (Tree.TypeParameter.respan (.behind count))
  | _, .constructorParameters | _, .constructorParameterList =>
      List.map (Tree.ConstructorParameter.respan (.behind count))
  | _, .constructorParameter => Tree.ConstructorParameter.respan (.behind count)
  | _, .classBody => List.map (Tree.Member.respan (.behind count))
  | _, .functionDeclaration => Tree.Function.respan (.behind count)
  | _, .valueParameters => List.map (Tree.ValueParameter.respan (.behind count))
  | _, .valueParameter => Tree.ValueParameter.respan (.behind count)
  | _, .functionBody => Tree.Body.respan (.behind count)
  | _, .block => Tree.Block.respan (.behind count)
  | _, .statement | _, .statementBody => Tree.Statement.respan (.behind count)
  | _, .propertyDeclaration => Tree.Property.respan (.behind count)
  | _, .type | _, .typeBody | _, .functionType | _, .namedType =>
      Tree.TypeRef.respan (.behind count)
  | _, .typeList | _, .typeArguments => List.map (Tree.TypeRef.respan (.behind count))
  | _, .expressionBody | _, .expression | _, .additive | _, .multiplicative | _, .suffixed
  | _, .primary | _, .conditional | _, .parenthesized | _, .callableReference | _, .literal
  | _, .integerLiteral | _, .textLiteral | _, .truthLiteral | _, .nullLiteral =>
      Tree.Expr.respan (.behind count)
  | _, .comparisonOperator | _, .additiveOperator | _, .multiplicativeOperator =>
      Tree.OperatorRef.respan (.behind count)
  | _, .suffix | _, .callSuffix | _, .memberSuffix => Suffix.behind count
  | _, .arguments => List.map (Tree.Expr.respan (.behind count))
  | _, .declaredName | _, .typeName => Prod.map (Span.behind count) id
  | _, .typeParameter => Tree.TypeParameter.respan (.behind count)
  | _, .nameReference => Tree.SimpleName.respan (.behind count)
  | _, .nullable | _, .packageKeyword | _, .classKeyword | _, .functionKeyword | _, .ifKeyword
  | _, .elseKeyword | _, .blank => id
  | _, .bindingKeyword => id

namespace Grammar

open Peg (Carries carries_before carries_followedBy carries_separated carries_orEmpty)

variable {count : Nat} {α : Type}

/-- A phrase whose value changes in a given way behind as many more
characters. -/
abbrev CarriesBehind (count : Nat) (described : Phrase α) (change : α → α) : Prop :=
  Carries count (Rule.behind count) described change

theorem carries_word (keyword : Keyword) : CarriesBehind count (word keyword) id :=
  .map (.token _) fun _ => rfl

theorem carries_blank : CarriesBehind count blank id := .rule Rule.blank

theorem carries_separator (text : String) : CarriesBehind count (separator text) id :=
  carries_before (carries_before carries_blank (.token _)) carries_blank

theorem carries_bracketed {opening closing : String} {inner : Phrase α} {change : α → α}
    (inside : CarriesBehind count inner change) :
    CarriesBehind count (bracketed opening closing inner) change :=
  carries_followedBy (carries_followedBy
    (carries_before (carries_before (.token _) carries_blank) inside) carries_blank) (.token _)

theorem carries_name : CarriesBehind count name (Prod.map (Span.behind count) id) :=
  .map (.spanned (.token _)) fun _ => rfl

theorem carries_operator (operator : Tree.Operator) :
    CarriesBehind count (Grammar.operator operator) (Tree.OperatorRef.respan (.behind count)) :=
  .map (.spanned (.token _)) fun _ => rfl

theorem carries_operation (operator : Rule Tree.OperatorRef) (operand : Rule Tree.Expr) :
    CarriesBehind count (operation operator operand)
      (Prod.map (operator.behind count) (operand.behind count)) :=
  .both (carries_before carries_blank (.rule _)) (carries_before carries_blank (.rule _))

theorem binary_behind (left : Tree.Expr) (right : Tree.OperatorRef × Tree.Expr) :
    binary (left.respan (.behind count))
        (Prod.map (Tree.OperatorRef.respan (.behind count)) (Tree.Expr.respan (.behind count))
          right) =
      (binary left right).respan (.behind count) := by
  simp [binary, Tree.Expr.respan, SpanChange.behind, Span.behind]

theorem withSuffix_behind (value : Tree.Expr) (suffix : Suffix) :
    withSuffix (value.respan (.behind count)) (suffix.behind count) =
      (withSuffix value suffix).respan (.behind count) := by
  cases suffix <;>
    simp [withSuffix, Suffix.behind, Tree.Expr.respan, Tree.SimpleName.respan, SpanChange.behind,
      Span.behind]

/-- Adding the operands of a chain one by one changes no span but by moving it. -/
theorem foldl_binary_behind (first : Tree.Expr) (rest : List (Tree.OperatorRef × Tree.Expr)) :
    (rest.map (Prod.map (Tree.OperatorRef.respan (.behind count))
        (Tree.Expr.respan (.behind count)))).foldl binary (first.respan (.behind count)) =
      (rest.foldl binary first).respan (.behind count) := by
  rw [List.foldl_map]
  exact List.foldl_hom _ fun left right => binary_behind left right

theorem foldl_withSuffix_behind (value : Tree.Expr) (suffixes : List Suffix) :
    (suffixes.map (Suffix.behind count)).foldl withSuffix (value.respan (.behind count)) =
      (suffixes.foldl withSuffix value).respan (.behind count) := by
  rw [List.foldl_map]
  exact List.foldl_hom _ fun left right => withSuffix_behind left right

theorem orNull_behind (span : Span) (type : Tree.TypeRef) :
    (type.respan (.behind count)).orNull (span.behind count) =
      (type.orNull span).respan (.behind count) := by
  cases type <;> rfl

/-- A package directive ends with the last of its names. -/
theorem package_behind (span : Span) (names : List Tree.SimpleName) :
    let moved := names.map (Tree.SimpleName.respan (.behind count))
    Tree.Package.mk ⟨(span.behind count).start,
        (moved.getLast?.map fun last => last.span.stop).getD (span.behind count).stop⟩ moved =
      (Tree.Package.mk ⟨span.start, (names.getLast?.map fun last => last.span.stop).getD span.stop⟩
        names).respan (.behind count) := by
  simp only [List.getLast?_map]
  cases names.getLast? <;> rfl

/-- The value of every rule moves with the text. -/
theorem carries_phrase (name : Rule α) :
    CarriesBehind count (phrase name) (name.behind count) := by
  cases name with
  | file =>
      exact .map (.spanned (carries_before carries_blank
        (.both (.optional (.rule _)) (.many (.rule _))))) fun _ => rfl
  | packagePart => exact carries_followedBy (.rule Rule.packageHeader) carries_blank
  | topLevel =>
      exact carries_followedBy (carries_followedBy (.rule Rule.declaration)
        (.optional (carries_before carries_blank (.token _)))) carries_blank
  | packageHeader =>
      refine .map (.spanned (carries_followedBy (carries_before
        (carries_before (.rule _) carries_blank) (.rule Rule.qualifiedName))
        (.optional (carries_before carries_blank (.token _))))) ?_
      exact fun found => package_behind found.1 found.2
  | qualifiedName => exact carries_separated (carries_separator _) (.rule _)
  | declaration =>
      exact .either (.map (.rule _) fun _ => rfl)
        (.either (.map (.rule _) fun _ => rfl) (.map (.rule _) fun _ => rfl))
  | member => exact .either (.map (.rule _) fun _ => rfl) (.map (.rule _) fun _ => rfl)
  | classDeclaration =>
      exact .map (.spanned (carries_before (carries_before (.rule _) carries_blank)
        (.both (.rule _) (.both (carries_orEmpty (carries_before carries_blank (.rule _)))
          (.both (carries_orEmpty (carries_before carries_blank (.rule _)))
            (carries_orEmpty (carries_before carries_blank (.rule _)))))))) fun _ => rfl
  | typeParameters => exact carries_bracketed (carries_separated (carries_separator _) (.rule _))
  | constructorParameters => exact carries_bracketed (carries_orEmpty (.rule _))
  | constructorParameterList => exact carries_separated (carries_separator _) (.rule _)
  | constructorParameter =>
      refine .map (.spanned (.both (.optional (carries_followedBy (.rule _) carries_blank))
        (.both (carries_followedBy (.rule _) (carries_separator _)) (.rule _)))) ?_
      rintro ⟨span, binding, name, type⟩
      cases binding <;> rfl
  | classBody =>
      exact carries_followedBy (carries_before (carries_before (.token _) carries_blank)
        (.many (carries_followedBy (.rule _) carries_blank))) (.token _)
  | functionDeclaration =>
      exact .map (.spanned (carries_before (.rule _)
        (.both (carries_orEmpty (carries_before carries_blank (.rule _)))
          (.both (carries_before carries_blank (.rule _))
            (.both (carries_before carries_blank (carries_bracketed (carries_orEmpty (.rule _))))
              (.both (.optional (carries_before (carries_separator _) (.rule _)))
                (carries_before carries_blank (.rule _)))))))) fun _ => rfl
  | valueParameters => exact carries_separated (carries_separator _) (.rule _)
  | valueParameter =>
      exact .map (.spanned (.both (carries_followedBy (.rule _) (carries_separator _))
        (.rule _))) fun _ => rfl
  | functionBody => exact .either (.map (.rule _) fun _ => rfl) (.map (.rule _) fun _ => rfl)
  | expressionBody => exact carries_before (carries_before (.token _) carries_blank) (.rule _)
  | block =>
      exact .map (.spanned (carries_followedBy (carries_before
        (carries_before (.token _) carries_blank)
        (.many (carries_followedBy (.rule _) carries_blank))) (.token _))) fun _ => rfl
  | statement =>
      exact carries_followedBy (.rule _) (.optional (carries_before carries_blank (.token _)))
  | statementBody => exact .either (.map (.rule _) fun _ => rfl) (.map (.rule _) fun _ => rfl)
  | propertyDeclaration =>
      exact .map (.spanned (.both (.rule _) (.both (carries_before carries_blank (.rule _))
        (.both (.optional (carries_before (carries_separator _) (.rule _)))
          (.optional (carries_before (carries_separator _) (.rule _))))))) fun _ => rfl
  | type =>
      refine .map (.spanned (.both (.rule _) (.optional (.rule _)))) ?_
      rintro ⟨span, type, question⟩
      cases question with
      | none => rfl
      | some => exact orNull_behind span type
  | typeBody => exact .either (.rule _) (.rule _)
  | nullable => exact .map (.token _) fun _ => rfl
  | functionType =>
      refine .map (.spanned (.both (carries_bracketed (carries_orEmpty (.rule _)))
        (carries_before (carries_separator _) (.rule _)))) ?_
      rintro ⟨span, parameters, result⟩
      exact congrArg (Tree.TypeRef.function _ _ · _) (Tree.TypeRef.respanAll_eq_map _).symm
  | typeList => exact carries_separated (carries_separator _) (.rule _)
  | namedType =>
      refine .map (.spanned (.both (.rule _) (carries_orEmpty (.rule _)))) ?_
      rintro ⟨span, name, arguments⟩
      exact congrArg (Tree.TypeRef.named _ _ _ _) (Tree.TypeRef.respanAll_eq_map _).symm
  | typeArguments => exact carries_bracketed (.rule _)
  | expression =>
      refine .map (.both (.rule _) (.optional (carries_operation _ _))) ?_
      rintro ⟨left, right⟩
      cases right with
      | none => rfl
      | some right => exact binary_behind left right
  | comparisonOperator =>
      exact .either (carries_operator _) (.either (carries_operator _) (.either
        (carries_operator _) (.either (carries_operator _) (.either (carries_operator _)
          (carries_operator _)))))
  | additive | multiplicative =>
      refine .map (.both (.rule _) (.many (carries_operation _ _))) ?_
      rintro ⟨first, rest⟩
      exact foldl_binary_behind first rest
  | additiveOperator => exact .either (carries_operator _) (carries_operator _)
  | multiplicativeOperator =>
      exact .either (carries_operator _) (.either (carries_operator _) (carries_operator _))
  | suffixed =>
      refine .map (.both (.rule _) (.many (.rule _))) ?_
      rintro ⟨value, suffixes⟩
      exact foldl_withSuffix_behind value suffixes
  | suffix => exact .either (.rule _) (.rule _)
  | callSuffix =>
      exact .map (.spanned (carries_bracketed (carries_orEmpty (.rule _)))) fun _ => rfl
  | memberSuffix => exact .map (carries_before (.token _) (.rule _)) fun _ => rfl
  | arguments => exact carries_separated (carries_separator _) (.rule _)
  | primary =>
      exact .either (.rule _) (.either (.rule _) (.either (.rule _) (.either (.rule _)
        (.map (.rule _) fun _ => rfl))))
  | conditional =>
      refine .map (.spanned (carries_before (carries_before (.rule _) carries_blank)
        (.both (carries_followedBy (carries_bracketed (.rule _)) carries_blank)
          (.both (.rule _) (.optional (carries_before (carries_before
            (carries_before carries_blank (.rule _)) carries_blank) (.rule _))))))) ?_
      rintro ⟨span, condition, thenBranch, elseBranch⟩
      cases elseBranch <;> rfl
  | parenthesized =>
      exact .map (.spanned (carries_bracketed (.rule _))) fun _ => rfl
  | callableReference =>
      exact .map (.spanned (carries_before (.token _) (.rule _))) fun _ => rfl
  | literal => exact .either (.rule _) (.either (.rule _) (.either (.rule _) (.rule _)))
  | integerLiteral | textLiteral | truthLiteral | nullLiteral =>
      exact .map (.spanned (.token _)) fun _ => rfl
  | declaredName | typeName => exact carries_name
  | typeParameter | nameReference => exact .map carries_name fun _ => rfl
  | packageKeyword | classKeyword | functionKeyword | ifKeyword | elseKeyword =>
      exact carries_word _
  | bindingKeyword => exact .map (.token _) fun _ => rfl
  | blank => exact .map (.token _) fun _ => rfl

/-- A rule matches the same behind as many more characters, moved. -/
theorem matchRule_behind (name : Rule α) (cursor : Cursor) :
    matchRule name (cursor.behind count) =
      (matchRule name cursor).behind count (name.behind count) :=
  Peg.runRule_behind carries_phrase _ name cursor

theorem matchEnd?_eq (name : Rule α) (text : List Char) (start : Nat) :
    matchEnd? name text start = (matchEnd? name (text.drop start) 0).map (· + start) := by
  have moved : (Cursor.ofText text).advance start =
      ((Cursor.ofText (text.drop start)).advance 0).behind start := rfl
  rw [matchEnd?, moved, matchRule_behind, Outcome.next?_behind]
  rfl

end Grammar

/-! ### Blanks before a file -/

/-- White space and comments, each comment up to the end of its line. -/
inductive Text.Blanks : List Char → Prop where
  | nil : Blanks []
  | space {character : Char} {rest : List Char} (blank : isBlank character = true) :
      Blanks rest → Blanks (character :: rest)
  | comment {inside rest : List Char} (oneLine : '\n' ∉ inside) :
      Blanks rest → Blanks ('/' :: '/' :: inside ++ '\n' :: rest)

namespace Token

open Text (Blanks isBlank)

theorem blankLength_comment {inside : List Char} (oneLine : '\n' ∉ inside) (rest : List Char) :
    blankLength true (inside ++ '\n' :: rest) = inside.length + 1 + blankLength false rest := by
  induction inside with
  | nil => rfl
  | cons first others ih =>
      obtain ⟨noEnd, othersOneLine⟩ := not_or.mp (mt List.mem_cons.mpr oneLine)
      have goesOn : (first != '\n') = true := bne_iff_ne.mpr (Ne.symm noEnd)
      rw [List.cons_append, blankLength, goesOn, ih othersOneLine, List.length_cons]
      omega

/-- Blanks before a text are taken together with those at its start. -/
theorem blankLength_append {blanks : List Char} (isBlanks : Blanks blanks) (text : List Char) :
    blankLength false (blanks ++ text) = blanks.length + blankLength false text := by
  induction isBlanks with
  | nil => exact (Nat.zero_add _).symm
  | @space character rest blank _ ih =>
      have noSlash : character ≠ '/' := by
        rintro rfl
        cases blank
      rw [List.cons_append, blankLength.eq_4 _ _ fun _ isSlash _ => noSlash isSlash, if_pos blank,
        ih, List.length_cons]
      omega
  | @comment inside rest oneLine _ ih =>
      simp only [List.cons_append, List.append_assoc, blankLength, blankLength_comment oneLine, ih,
        List.length_cons, List.length_append]
      omega

/-- Behind blanks no more blanks come. -/
theorem blankLength_drop (inComment : Bool) (text : List Char) :
    blankLength false (text.drop (blankLength inComment text)) = 0 := by
  fun_induction blankLength inComment text with
  | case1 => rfl
  | case2 character rest ih => rwa [Nat.add_comm, List.drop_succ_cons]
  | case3 rest ih => rwa [Nat.add_comm, List.drop_succ_cons, List.drop_succ_cons]
  | case4 character rest noComment blank ih => rwa [Nat.add_comm, List.drop_succ_cons]
  | case5 character rest noComment solid =>
      rw [List.drop_zero, blankLength.eq_4 _ _ noComment, if_neg solid]

end Token

/-- The cursor behind the blanks that it stands at. -/
def Cursor.skip (cursor : Cursor) : Cursor := cursor.advance (Token.blankLength false cursor.rest)

theorem Cursor.skip_eq_self {cursor : Cursor} (none : Token.blankLength false cursor.rest = 0) :
    cursor.skip = cursor := by
  rw [skip, none]
  rfl

theorem Cursor.skip_skip (cursor : Cursor) : cursor.skip.skip = cursor.skip :=
  skip_eq_self (Token.blankLength_drop false cursor.rest)

/-- The file behind blanks: all nodes move, but the file begins where it began. -/
def Tree.File.behindBlanks (count : Nat) (file : File) : File :=
  { file.respan (.behind count) with span := ⟨file.span.start, file.span.stop + count⟩ }

namespace Grammar

variable {text : List Char} {count : Nat} {α : Type}

theorem matchPhrase_blank (cursor : Cursor) :
    matchPhrase blank cursor = .matched () cursor.skip := by
  rw [matchPhrase, blank, Peg.run, matchRule_eq_matchPhrase]
  rfl

theorem eq_skip_of_matchPhrase_blank {cursor next : Cursor} {value : Unit}
    (run : matchPhrase blank cursor = .matched value next) : next = cursor.skip := by
  rw [matchPhrase_blank] at run
  exact (Outcome.matched.inj run).2.symm

/-- Whether a phrase takes blanks before anything else. -/
def leadsBlank : {α : Type} → Phrase α → Bool
  | _, .rule .blank => true
  | _, .both first _ => leadsBlank first
  | _, .map _ inner => leadsBlank inner
  | _, _ => false

/-- A phrase that takes blanks first is matched behind them as before them. -/
theorem matchPhrase_skip {described : Phrase α} (leads : leadsBlank described = true)
    (cursor : Cursor) : matchPhrase described cursor.skip = matchPhrase described cursor := by
  induction described with
  | rule name =>
      cases name with
      | blank =>
          change matchPhrase blank _ = matchPhrase blank _
          rw [matchPhrase_blank, matchPhrase_blank, Cursor.skip_skip]
      | _ => cases leads
  | both first second firstIh =>
      change (matchPhrase first _).andThen _ = (matchPhrase first _).andThen _
      rw [firstIh leads]
  | map change inner ih =>
      change (matchPhrase inner _).andThen _ = (matchPhrase inner _).andThen _
      rw [ih leads]
  | token | either | optional | many | spanned => cases leads

/-- What the rule for files matches, its span apart. -/
def fileInside : Phrase (Option Tree.Package × List Tree.TopLevel) :=
  blank *> .both (.optional (.rule .packagePart)) (.many (.rule .topLevel))

theorem matchRule_file_eq_matched_iff {cursor next : Cursor} {tree : Tree.File} :
    matchRule .file cursor = .matched tree next ↔
      matchPhrase fileInside cursor = .matched (tree.package, tree.declarations) next ∧
        tree.span = ⟨cursor.offset, next.offset⟩ := by
  rw [matchRule_eq_matchPhrase]
  change (Outcome.andThen (Outcome.andThen (matchPhrase fileInside cursor) _) _) = _ ↔ _
  cases matchPhrase fileInside cursor with
  | exhausted | mismatch => simp [Outcome.andThen]
  | matched found last =>
      obtain ⟨span, package, declarations⟩ := tree
      obtain ⟨foundPackage, foundDeclarations⟩ := found
      simp only [Outcome.andThen, Outcome.matched.injEq, Tree.File.mk.injEq, Prod.mk.injEq]
      constructor
      · rintro ⟨⟨rfl, rfl, rfl⟩, rfl⟩
        exact ⟨⟨⟨rfl, rfl⟩, rfl⟩, rfl⟩
      · rintro ⟨⟨⟨rfl, rfl⟩, rfl⟩, rfl⟩
        exact ⟨⟨rfl, rfl, rfl⟩, rfl⟩

theorem matchRule_file_blanks {blanks : List Char} (isBlanks : Text.Blanks blanks)
    {tree : Tree.File} {next : Cursor}
    (matched : matchRule .file (Cursor.ofText text) = .matched tree next) :
    matchRule .file (Cursor.ofText (blanks ++ text)) =
      .matched (tree.behindBlanks blanks.length) (next.behind blanks.length) := by
  have moved : matchRule .file ((Cursor.ofText text).behind blanks.length) =
      .matched (tree.respan (.behind blanks.length)) (next.behind blanks.length) := by
    rw [matchRule_behind, matched]
    rfl
  obtain ⟨-, span⟩ := matchRule_file_eq_matched_iff.mp matched
  obtain ⟨inside, -⟩ := matchRule_file_eq_matched_iff.mp moved
  have sameSkip : (Cursor.ofText (blanks ++ text)).skip =
      ((Cursor.ofText text).behind blanks.length).skip := by
    simp only [Cursor.skip, Cursor.ofText, Cursor.behind, Cursor.advance,
      Token.blankLength_append isBlanks, Cursor.mk.injEq]
    exact ⟨by omega, by rw [← List.drop_drop, List.drop_left]⟩
  refine matchRule_file_eq_matched_iff.mpr ⟨?_, ?_⟩
  · rw [← matchPhrase_skip rfl, sameSkip, matchPhrase_skip rfl, inside]
    rfl
  · rw [Tree.File.behindBlanks, span]
    rfl

theorem oversized?_respan (node : Node) (above : List Node) :
    oversized? ⟨node.respan (.behind count), above⟩ = oversized? ⟨node, above⟩ := by
  cases node with
  | expression value =>
      cases value with
      | integer span digits =>
          simp only [oversized?, Node.respan, Tree.Expr.respan, SpanChange.behind,
            Span.size_behind]
      | _ => rfl
  | _ => rfl

/-- No number of a file is too long just in case none of its nodes is such a
number. -/
theorem findSome?_oversized_eq_none_iff {file : Tree.File} :
    file.occurrences.findSome? oversized? = none ↔
      ∀ node ∈ file.nodes, oversized? ⟨node, []⟩ = none := by
  have byNode : file.occurrences.findSome? oversized? = none ↔
      ∀ node ∈ file.occurrences.map Occurrence.node, oversized? ⟨node, []⟩ = none := by
    rw [List.findSome?_eq_none_iff, List.forall_mem_map]
    rfl
  rw [byNode, Tree.File.map_node_occurrences, List.forall_mem_cons]
  exact and_iff_right rfl

theorem nodes_behindBlanks (file : Tree.File) :
    (file.behindBlanks count).nodes = file.nodes.map (Node.respan (.behind count)) := by
  have children : (Node.file (file.behindBlanks count)).children =
      ((Node.file file).respan (.behind count)).children := rfl
  rw [Tree.File.nodes, children, Node.children_respan, List.flatMap_map, Tree.File.nodes,
    List.map_flatMap]
  exact List.flatMap_congr fun child _ => Node.subtree_respan child

/-- Matching looks ahead only: a rule matches at an offset of a text just in
case it matches the rest of the text, and ends as many characters later.  So
blanks before a file move its nodes, and change nothing else. -/
theorem looks_ahead :
    (∀ {α : Type} (name : Rule α) (text : List Char) (start : Nat), start ≤ text.length →
      matchEnd? name text start = (matchEnd? name (text.drop start) 0).map (· + start)) ∧
    ∀ (file : String) (blanks text : List Char) (tree : Tree.File), Text.Blanks blanks →
      read file text = .ok tree →
        read file (blanks ++ text) = .ok (tree.behindBlanks blanks.length) := by
  refine ⟨fun name text start _ => matchEnd?_eq name text start, ?_⟩
  intro file blanks text tree isBlanks isRead
  obtain ⟨next, matched, atEnd⟩ := exists_match_of_read isRead
  have fits : tree.occurrences.findSome? oversized? = none := by
    cases digits : tree.occurrences.findSome? oversized? with
    | none => rfl
    | some => simp [read, matched, atEnd, digits] at isRead
  have moved := matchRule_file_blanks isBlanks matched
  have movedFits : (tree.behindBlanks blanks.length).occurrences.findSome? oversized? = none := by
    rw [findSome?_oversized_eq_none_iff, nodes_behindBlanks, List.forall_mem_map]
    intro node isNode
    rw [oversized?_respan]
    exact findSome?_oversized_eq_none_iff.mp fits node isNode
  simp [read, moved, movedFits, Cursor.behind, atEnd]

/-- A comment and white space before a declaration, and a rule that matches in
the middle of it. -/
theorem looks_ahead_sample :
    (8 ≤ "val a = f(b) + c".toList.length ∧
      matchEnd? .expression "val a = f(b) + c".toList 8 =
        (matchEnd? .expression "f(b) + c".toList 0).map (· + 8)) ∧
    ∃ tree, Text.Blanks "// note\n ".toList ∧
      read "sample" "val a = f(b) + c".toList = .ok tree ∧
        read "sample" "// note\n val a = f(b) + c".toList = .ok (tree.behindBlanks 9) := by
  have oneLine : '\n' ∉ " note".toList := by decide
  have isBlanks : Text.Blanks "// note\n ".toList := .comment oneLine (.space (by decide) .nil)
  have computed : (read "sample" "val a = f(b) + c".toList).isOk = true := by decide +kernel
  refine ⟨⟨by decide, looks_ahead.1 .expression _ 8 (by decide)⟩, ?_⟩
  cases readable : read "sample" "val a = f(b) + c".toList with
  | error fault =>
      rw [readable] at computed
      cases computed
  | ok tree => exact ⟨tree, isBlanks, rfl, looks_ahead.2 _ _ _ tree isBlanks readable⟩

end Grammar

end Gloss
