import Gloss.Proofs.Grammar.Extents
import Gloss.Proofs.Tree.Placement

/-!
# What rules read

`Places` says how the nodes that a rule reads lie in the stretch that it reads.
A reading of the rules is sound when every rule keeps to this and to its
extent; this module shows what follows for the phrases that rules are made of.
-/

namespace Gloss.Grammar

open Node (Fills Row WellPlaced)

/-- How the value of a suffix lies in its stretch: the arguments of a call end
before the closing parenthesis, a selector ends the suffix. -/
def PlacesSuffix (text : List Char) (start : Nat) : Suffix → Nat → Prop
  | .call arguments last, stop =>
      last = stop ∧ ∃ inner, inner < stop ∧
        Row text start (arguments.map Tree.Expr.node) inner
  | .member selector, stop =>
      selector.span.stop = stop ∧ Row text start [selector.node] stop

/-- How the value of a rule lies in the stretch that the rule reads. -/
def Places (text : List Char) : {α : Type} → Rule α → Nat → α → Nat → Prop
  | _, .file, start, file, stop =>
      file.span = ⟨start, stop⟩ ∧ Row text start (Node.file file).children stop
  | _, .packagePart, start, package, stop => Row text start [.package package] stop
  | _, .topLevel, start, declaration, stop => Row text start [declaration.node] stop
  | _, .packageHeader, start, package, stop => Row text start [.package package] stop
  | _, .qualifiedName, start, names, stop =>
      Row text start (names.map Tree.SimpleName.node) stop ∧
        ∃ last, names.getLast? = some last ∧ last.span.stop = stop
  | _, .declaration, start, declaration, stop => Fills text start declaration.node stop
  | _, .member, start, member, stop => Fills text start member.node stop
  | _, .classDeclaration, start, declaration, stop => Fills text start (.class declaration) stop
  | _, .typeParameters, start, parameters, stop =>
      Row text start (parameters.map .typeParameter) stop
  | _, .constructorParameters, start, parameters, stop =>
      Row text start (parameters.map .constructorParameter) stop
  | _, .constructorParameterList, start, parameters, stop =>
      Row text start (parameters.map .constructorParameter) stop
  | _, .constructorParameter, start, parameter, stop =>
      Fills text start (.constructorParameter parameter) stop
  | _, .classBody, start, members, stop => Row text start (members.map Tree.Member.node) stop
  | _, .functionDeclaration, start, function, stop => Fills text start (.function function) stop
  | _, .valueParameters, start, parameters, stop =>
      Row text start (parameters.map .valueParameter) stop
  | _, .valueParameter, start, parameter, stop =>
      Fills text start (.valueParameter parameter) stop
  | _, .functionBody, start, body, stop => Row text start [body.node] stop
  | _, .expressionBody, start, body, stop => Row text start [body.node] stop
  | _, .block, start, block, stop => Fills text start (.block block) stop
  | _, .statement, start, statement, stop => Row text start [statement.node] stop
  | _, .statementBody, start, statement, stop => Fills text start statement.node stop
  | _, .propertyDeclaration, start, property, stop => Fills text start (.property property) stop
  | _, .type, start, type, stop => Fills text start (.type type) stop
  | _, .typeBody, start, type, stop => Fills text start (.type type) stop
  | _, .functionType, start, type, stop => Fills text start (.type type) stop
  | _, .typeList, start, types, stop => Row text start (types.map .type) stop
  | _, .namedType, start, type, stop => Fills text start (.type type) stop
  | _, .typeArguments, start, types, stop => Row text start (types.map .type) stop
  | _, .expression, start, value, stop => Fills text start value.node stop
  | _, .comparisonOperator, start, use, stop => Fills text start (.operator use) stop
  | _, .additive, start, value, stop => Fills text start value.node stop
  | _, .additiveOperator, start, use, stop => Fills text start (.operator use) stop
  | _, .multiplicative, start, value, stop => Fills text start value.node stop
  | _, .multiplicativeOperator, start, use, stop => Fills text start (.operator use) stop
  | _, .suffixed, start, value, stop => Fills text start value.node stop
  | _, .suffix, start, suffix, stop => PlacesSuffix text start suffix stop
  | _, .callSuffix, start, suffix, stop => PlacesSuffix text start suffix stop
  | _, .memberSuffix, start, suffix, stop => PlacesSuffix text start suffix stop
  | _, .arguments, start, values, stop => Row text start (values.map Tree.Expr.node) stop
  | _, .primary, start, value, stop => Fills text start value.node stop
  | _, .conditional, start, value, stop => Fills text start value.node stop
  | _, .parenthesized, start, value, stop => Fills text start value.node stop
  | _, .callableReference, start, value, stop => Fills text start value.node stop
  | _, .literal, start, value, stop => Fills text start value.node stop
  | _, .integerLiteral, start, value, stop => Fills text start value.node stop
  | _, .textLiteral, start, value, stop => Fills text start value.node stop
  | _, .truthLiteral, start, value, stop => Fills text start value.node stop
  | _, .nullLiteral, start, value, stop => Fills text start value.node stop
  | _, .declaredName, start, name, stop =>
      name.1 = ⟨start, stop⟩ ∧ Text.slice start stop text = name.2.toList
  | _, .typeParameter, start, parameter, stop => Fills text start (.typeParameter parameter) stop
  | _, .typeName, start, name, stop =>
      name.1 = ⟨start, stop⟩ ∧ Text.slice start stop text = name.2.toList
  | _, .nameReference, start, name, stop => Fills text start name.node stop
  | _, .nullable, _, _, _ => True
  | _, .packageKeyword, _, _, _ => True
  | _, .classKeyword, _, _, _ => True
  | _, .functionKeyword, _, _, _ => True
  | _, .ifKeyword, _, _, _ => True
  | _, .elseKeyword, _, _, _ => True
  | _, .bindingKeyword, _, _, _ => True
  | _, .blank, _, _, _ => True

/-- What a rule reads has the extent of the rule and is placed as it must be. -/
structure Sound (text : List Char) (rule : Peg.RuleReading Rule) : Prop where
  extent : ∀ {α : Type} (name : Rule α) start value stop,
    rule name start value stop → Extent text name start stop
  places : ∀ {α : Type} {name : Rule α} {start value stop},
    rule name start value stop → Places text name start value stop

section Combinators

variable {text : List Char} {rule : Peg.RuleReading Rule} {α β : Type} {start stop : Nat}

theorem reads_before {first : Phrase α} {second : Phrase β} {value : β} :
    Reads text rule (first *> second) start value stop ↔
      ∃ middle, (∃ skipped, Reads text rule first start skipped middle) ∧
        Reads text rule second middle value stop := by
  constructor
  · intro given
    obtain ⟨⟨skipped, found⟩, ⟨middle, firstReads, secondReads⟩, same⟩ := given
    cases same
    exact ⟨middle, ⟨skipped, firstReads⟩, secondReads⟩
  · intro given
    obtain ⟨middle, ⟨skipped, firstReads⟩, secondReads⟩ := given
    exact ⟨(skipped, value), ⟨middle, firstReads, secondReads⟩, rfl⟩

theorem reads_followedBy {first : Phrase α} {second : Phrase β} {value : α} :
    Reads text rule (first <* second) start value stop ↔
      ∃ middle, Reads text rule first start value middle ∧
        ∃ skipped, Reads text rule second middle skipped stop := by
  constructor
  · intro given
    obtain ⟨⟨found, skipped⟩, ⟨middle, firstReads, secondReads⟩, same⟩ := given
    cases same
    exact ⟨middle, firstReads, skipped, secondReads⟩
  · intro given
    obtain ⟨middle, firstReads, skipped, secondReads⟩ := given
    exact ⟨(value, skipped), ⟨middle, firstReads, secondReads⟩, rfl⟩

theorem lt_of_reads_symbol {symbol : String} (firm : (Token.symbol symbol).isFirm = true)
    {value : List Char} (reads : Reads text rule (Grammar.symbol symbol) start value stop) :
    start < stop := by
  obtain ⟨count, scanned, -, rfl⟩ := reads
  have positive := (Token.firm_of_scan firm scanned).positive
  omega

/-- A phrase of tokens reads the text that it gives. -/
theorem slice_of_reads_token {token : Token} {value : List Char}
    (reads : Reads text rule (.token token) start value stop) :
    Text.slice start stop text = value := by
  obtain ⟨count, -, rfl, rfl⟩ := reads
  rw [Text.slice, ← List.take_drop]

theorem row_of_repeats {item : Nat → α → Nat → Prop} {toNode : α → Node} {values : List α}
    (repeats : Peg.Repeats item start values stop)
    (placed : ∀ start value stop, item start value stop → Row text start [toNode value] stop) :
    Row text start (values.map toNode) stop := by
  induction repeats with
  | nil => exact .nil (Nat.le_refl _)
  | cons read moves rest ih => exact (placed _ _ _ read).append ih

theorem row_of_orEmpty {inner : Phrase (List α)} {toNode : α → Node} {values : List α}
    (reads : Reads text rule (.orEmpty inner) start values stop)
    (placed : ∀ values, Reads text rule inner start values stop →
      Row text start (values.map toNode) stop) :
    Row text start (values.map toNode) stop := by
  obtain ⟨found, ⟨rfl, rfl⟩ | ⟨inside, rfl, innerReads⟩, rfl⟩ := reads
  · exact .nil (Nat.le_refl _)
  · exact placed _ innerReads

theorem row_of_optional {inner : Phrase α} {toNode : α → Node} {value : Option α}
    (reads : Reads text rule (.optional inner) start value stop)
    (placed : ∀ value, Reads text rule inner start value stop →
      Row text start [toNode value] stop) :
    Row text start (value.map toNode).toList stop := by
  obtain ⟨rfl, rfl⟩ | ⟨found, rfl, innerReads⟩ := reads
  · exact .nil (Nat.le_refl _)
  · exact placed _ innerReads

variable (sound : Sound text rule)

include sound

theorem le_of_reads_blank {value : Unit} (reads : Reads text rule blank start value stop) :
    start ≤ stop :=
  le_of_reads sound.extent reads

theorem lt_of_rule {name : Rule α} (firm : name.isFirm = true) {value : α}
    (reads : rule name start value stop) : start < stop :=
  ((sound.extent _ _ _ _ reads).tight firm).start_lt_stop

/-- What stands between two brackets. -/
theorem reads_inside {opening closing : String}
    (opens : (Token.symbol opening).isFirm = true)
    (closes : (Token.symbol closing).isFirm = true) {inner : Phrase α} {value : α}
    (reads : Reads text rule (bracketed opening closing inner) start value stop) :
    ∃ innerStart innerStop, start < innerStart ∧ innerStop < stop ∧
      Reads text rule inner innerStart value innerStop := by
  obtain ⟨afterBlank, reads, closingValue, closingReads⟩ := reads_followedBy.mp reads
  obtain ⟨innerStop, reads, blankValue, blankReads⟩ := reads_followedBy.mp reads
  obtain ⟨innerStart, ⟨skipped, skippedReads⟩, innerReads⟩ := reads_before.mp reads
  obtain ⟨afterOpening, ⟨openingValue, openingReads⟩, openingBlank⟩ :=
    reads_before.mp skippedReads
  have opened := lt_of_reads_symbol opens openingReads
  have closed := lt_of_reads_symbol closes closingReads
  have afterStart := le_of_reads_blank sound openingBlank
  have beforeStop := le_of_reads_blank sound blankReads
  exact ⟨innerStart, innerStop, by omega, by omega, innerReads⟩

theorem row_of_separated {separating : String} {item : Rule α} {toNode : α → Node}
    {values : List α}
    (reads : Reads text rule (.separated (separator separating) (.rule item)) start values stop)
    (placed : ∀ start value stop, Places text item start value stop →
      Fills text start (toNode value) stop) :
    Row text start (values.map toNode) stop := by
  obtain ⟨⟨first, rest⟩, ⟨middle, firstReads, restReads⟩, rfl⟩ := reads
  have firstFills := placed _ _ _ (sound.places firstReads)
  refine firstFills.row.append (row_of_repeats restReads ?_)
  intro itemStart value itemStop itemReads
  obtain ⟨afterSeparator, ⟨skipped, skippedReads⟩, valueReads⟩ := reads_before.mp itemReads
  have valueFills := placed _ _ _ (sound.places valueReads)
  exact valueFills.row.widen (le_of_reads sound.extent skippedReads) (Nat.le_refl _)

/-- What a phrase reads may have other phrases before it. -/
theorem row_of_before {skip : Phrase β} {inner : Phrase α} {nodes : List Node} {value : α}
    (reads : Reads text rule (skip *> inner) start value stop)
    (placed : ∀ start, Reads text rule inner start value stop → Row text start nodes stop) :
    Row text start nodes stop := by
  obtain ⟨middle, ⟨skipped, skippedReads⟩, innerReads⟩ := reads_before.mp reads
  exact (placed _ innerReads).widen (le_of_reads sound.extent skippedReads) (Nat.le_refl _)

end Combinators

end Gloss.Grammar

/-! ### Names and written types -/

namespace Gloss.Grammar

open Node (Fills Row WellPlaced)

variable {text : List Char} {rule : Peg.RuleReading Rule} {start stop : Nat}

theorem spelled_of_reads_name {found : Span × String}
    (reads : Reads text rule name start found stop) :
    found.1 = ⟨start, stop⟩ ∧ Text.slice start stop text = found.2.toList := by
  obtain ⟨⟨span, characters⟩, ⟨spans, reads⟩, rfl⟩ := reads
  exact ⟨spans, by simpa using slice_of_reads_token reads⟩

theorem children_named (span : Span) (nullable : Bool) (name : String) (nameSpan : Span)
    (arguments : List Tree.TypeRef) :
    (Node.type (.named span nullable name nameSpan arguments)).children =
      arguments.map .type := by
  simp [Node.children, Node.parts, Node.typeParts, Part.children]

theorem children_functionType (span : Span) (nullable : Bool)
    (parameters : List Tree.TypeRef) (result : Tree.TypeRef) :
    (Node.type (.function span nullable parameters result)).children =
      parameters.map .type ++ [.type result] := by
  simp [Node.children, Node.parts, Node.typeParts, Part.children]

/-- A question mark after a type widens the type and nothing in it. -/
theorem fills_orNull {type : Tree.TypeRef} {middle : Nat}
    (fills : Fills text start (.type type) middle) (le : middle ≤ stop)
    (tight : Text.Tight text ⟨start, stop⟩) :
    Fills text start (.type (type.orNull ⟨start, stop⟩)) stop := by
  cases type with
  | named span nullable name nameSpan arguments =>
      refine ⟨rfl, fills.placed.extend fills.span rfl le tight ?_ rfl rfl⟩
      rw [Tree.TypeRef.orNull, children_named, children_named]
  | function span nullable parameters result =>
      refine ⟨rfl, fills.placed.extend fills.span rfl le tight ?_ rfl rfl⟩
      rw [Tree.TypeRef.orNull, children_functionType, children_functionType]

variable (sound : Sound text rule)

include sound

theorem tight_of_reads {α : Type} {name : Rule α} {value : α} (firm : name.isFirm = true)
    (reads : Reads text rule (phrase name) start value stop) :
    Text.Tight text ⟨start, stop⟩ :=
  (extent_of_reads sound.extent reads).tight firm

theorem places_typeParameter {value : Tree.TypeParameter}
    (reads : Reads text rule (phrase .typeParameter) start value stop) :
    Places text .typeParameter start value stop := by
  have tight := tight_of_reads sound rfl reads
  obtain ⟨⟨span, name⟩, reads, rfl⟩ := reads
  obtain ⟨spans, spelled⟩ := spelled_of_reads_name reads
  cases spans
  refine ⟨rfl, .of_named [] [] tight rfl rfl spelled
    tight.start_lt_stop (fun isReference => by cases isReference) rfl ?_ ?_⟩
  · exact .nil (Nat.le_refl _)
  · exact .nil (Nat.le_refl _)

theorem places_nameReference {value : Tree.SimpleName}
    (reads : Reads text rule (phrase .nameReference) start value stop) :
    Places text .nameReference start value stop := by
  have tight := tight_of_reads sound rfl reads
  obtain ⟨⟨span, name⟩, reads, rfl⟩ := reads
  obtain ⟨spans, spelled⟩ := spelled_of_reads_name reads
  cases spans
  refine ⟨rfl, .of_named [] [] tight rfl rfl spelled
    tight.start_lt_stop (fun _ => rfl) rfl ?_ ?_⟩
  · exact .nil (Nat.le_refl _)
  · exact .nil (Nat.le_refl _)

theorem places_typeParameters {values : List Tree.TypeParameter}
    (reads : Reads text rule (phrase .typeParameters) start values stop) :
    Places text .typeParameters start values stop := by
  obtain ⟨innerStart, innerStop, opens, closes, reads⟩ :=
    reads_inside sound (by decide) (by decide) reads
  have row := row_of_separated sound reads fun _ _ _ fills => fills
  exact row.widen (Nat.le_of_lt opens) (Nat.le_of_lt closes)

theorem places_typeList {values : List Tree.TypeRef}
    (reads : Reads text rule (phrase .typeList) start values stop) :
    Places text .typeList start values stop :=
  row_of_separated sound reads fun _ _ _ fills => fills

theorem places_typeArguments {values : List Tree.TypeRef}
    (reads : Reads text rule (phrase .typeArguments) start values stop) :
    Places text .typeArguments start values stop := by
  obtain ⟨innerStart, innerStop, opens, closes, reads⟩ :=
    reads_inside sound (by decide) (by decide) reads
  have row : Row text innerStart (values.map .type) innerStop := sound.places reads
  exact row.widen (Nat.le_of_lt opens) (Nat.le_of_lt closes)

theorem places_namedType {value : Tree.TypeRef}
    (reads : Reads text rule (phrase .namedType) start value stop) :
    Places text .namedType start value stop := by
  have tight := tight_of_reads sound rfl reads
  obtain ⟨⟨span, ⟨nameSpan, name⟩, arguments⟩, ⟨spans, middle, nameReads, reads⟩, rfl⟩ := reads
  cases spans
  obtain ⟨nameSpans, spelled⟩ := sound.places nameReads
  cases nameSpans
  have row : Row text middle (arguments.map .type) stop :=
    row_of_orEmpty reads fun _ inner => sound.places inner
  refine ⟨rfl, .of_named [] _ tight rfl rfl spelled (lt_of_rule sound rfl nameReads)
    (fun _ => rfl) (children_named ..) ?_ row⟩
  exact .nil (Nat.le_refl _)

theorem places_functionType {value : Tree.TypeRef}
    (reads : Reads text rule (phrase .functionType) start value stop) :
    Places text .functionType start value stop := by
  have tight := tight_of_reads sound rfl reads
  obtain ⟨⟨span, parameters, result⟩, ⟨spans, middle, parameterReads, reads⟩, rfl⟩ := reads
  cases spans
  obtain ⟨innerStart, innerStop, opens, closes, parameterReads⟩ :=
    reads_inside sound (by decide) (by decide) parameterReads
  have parameterRow : Row text innerStart (parameters.map .type) innerStop :=
    row_of_orEmpty parameterReads fun _ inner => sound.places inner
  have resultRow : Row text middle [.type result] stop :=
    row_of_before sound reads fun _ inner => Fills.row (sound.places inner)
  have row := parameterRow.append (resultRow.widen (Nat.le_of_lt closes) (Nat.le_refl _))
  rw [← children_functionType ⟨start, stop⟩ false] at row
  exact ⟨rfl, .of_inner tight rfl rfl row (Nat.le_of_lt opens) (Nat.le_refl _) (.inl opens)⟩

theorem places_typeBody {value : Tree.TypeRef}
    (reads : Reads text rule (phrase .typeBody) start value stop) :
    Places text .typeBody start value stop := by
  rcases reads with reads | reads
  · have fills : Places text .functionType start value stop := sound.places reads
    exact fills
  · have fills : Places text .namedType start value stop := sound.places reads
    exact fills

theorem places_type {value : Tree.TypeRef}
    (reads : Reads text rule (phrase .type) start value stop) :
    Places text .type start value stop := by
  have tight := tight_of_reads sound rfl reads
  obtain ⟨⟨span, type, question⟩, ⟨spans, middle, typeReads, reads⟩, rfl⟩ := reads
  cases spans
  have le := le_of_reads sound.extent reads
  have fills : Fills text start (.type type) middle := sound.places typeReads
  rcases reads with ⟨missing, same⟩ | ⟨found, present, -⟩
  · cases missing
    subst same
    exact fills
  · cases present
    exact fills_orNull fills le tight

end Gloss.Grammar
