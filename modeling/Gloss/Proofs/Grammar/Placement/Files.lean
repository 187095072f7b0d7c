import Gloss.Grammar.Reading
import Gloss.Proofs.Grammar.Placement.Expressions

/-!
# Declarations and files in their places

With the declarations, the package line and the file itself every rule keeps to
its place when the rules inside of it do.  So a text that can be read has a well
placed tree.
-/

namespace Gloss.Grammar

open Node (Fills Row WellPlaced)

variable {text : List Char} {rule : Peg.RuleReading Rule} {start stop : Nat}
variable (sound : Sound text rule)

include sound

theorem places_constructorParameter {value : Tree.ConstructorParameter}
    (reads : Reads text rule (phrase .constructorParameter) start value stop) :
    Places text .constructorParameter start value stop := by
  have tight := tight_of_reads sound rfl reads
  obtain ⟨⟨span, binding, ⟨nameSpan, name⟩, type⟩,
    ⟨spans, nameStart, bindingReads, typeStart, nameReads, typeReads⟩, rfl⟩ := reads
  cases spans
  obtain ⟨nameStop, nameReads, colon, colonReads⟩ := reads_followedBy.mp nameReads
  obtain ⟨nameSpans, spelled⟩ := sound.places nameReads
  cases nameSpans
  have fills : Fills text typeStart (.type type) stop := sound.places typeReads
  refine ⟨rfl, .of_named [] [.type type] tight rfl rfl spelled
    (lt_of_rule sound rfl nameReads) (fun isReference => by cases isReference) ?_ ?_ ?_⟩
  · cases binding <;> rfl
  · exact .nil (le_of_reads sound.extent bindingReads)
  · exact fills.row.widen (le_of_reads sound.extent colonReads) (Nat.le_refl _)

theorem places_constructorParameterList {values : List Tree.ConstructorParameter}
    (reads : Reads text rule (phrase .constructorParameterList) start values stop) :
    Places text .constructorParameterList start values stop :=
  row_of_separated sound reads fun _ _ _ fills => fills

theorem places_constructorParameters {values : List Tree.ConstructorParameter}
    (reads : Reads text rule (phrase .constructorParameters) start values stop) :
    Places text .constructorParameters start values stop := by
  obtain ⟨innerStart, innerStop, opens, closes, reads⟩ :=
    reads_inside sound (by decide) (by decide) reads
  have row : Row text innerStart (values.map .constructorParameter) innerStop :=
    row_of_orEmpty reads fun _ inner => sound.places inner
  exact row.widen (Nat.le_of_lt opens) (Nat.le_of_lt closes)

theorem places_valueParameter {value : Tree.ValueParameter}
    (reads : Reads text rule (phrase .valueParameter) start value stop) :
    Places text .valueParameter start value stop := by
  have tight := tight_of_reads sound rfl reads
  obtain ⟨⟨span, ⟨nameSpan, name⟩, type⟩, ⟨spans, typeStart, nameReads, typeReads⟩, rfl⟩ := reads
  cases spans
  obtain ⟨nameStop, nameReads, colon, colonReads⟩ := reads_followedBy.mp nameReads
  obtain ⟨nameSpans, spelled⟩ := sound.places nameReads
  cases nameSpans
  have fills : Fills text typeStart (.type type) stop := sound.places typeReads
  refine ⟨rfl, .of_named [] [.type type] tight rfl rfl spelled
    (lt_of_rule sound rfl nameReads) (fun isReference => by cases isReference) rfl ?_ ?_⟩
  · exact .nil (Nat.le_refl _)
  · exact fills.row.widen (le_of_reads sound.extent colonReads) (Nat.le_refl _)

theorem places_valueParameters {values : List Tree.ValueParameter}
    (reads : Reads text rule (phrase .valueParameters) start values stop) :
    Places text .valueParameters start values stop :=
  row_of_separated sound reads fun _ _ _ fills => fills

/-- What stands between braces. -/
theorem row_inside_braces {α : Type} {item : Rule α} {toNode : α → Node} {values : List α}
    (reads : Reads text rule
      (symbol "\x7b" *> blank *> .many (.rule item <* blank) <* symbol "\x7d") start values stop)
    (placed : ∀ start value stop, Places text item start value stop →
      Row text start [toNode value] stop) :
    ∃ innerStart, start < innerStart ∧ Row text innerStart (values.map toNode) stop := by
  obtain ⟨innerStop, reads, closing, closingReads⟩ := reads_followedBy.mp reads
  obtain ⟨innerStart, ⟨skipped, skippedReads⟩, reads⟩ := reads_before.mp reads
  obtain ⟨afterOpening, ⟨opening, openingReads⟩, blankReads⟩ := reads_before.mp skippedReads
  have opens := lt_of_reads_symbol (by decide) openingReads
  have blankLe := le_of_reads_blank sound blankReads
  have closes := le_of_reads sound.extent closingReads
  refine ⟨innerStart, by omega, (row_of_repeats reads ?_).widen (Nat.le_refl _) closes⟩
  intro itemStart value itemStop itemReads
  obtain ⟨afterItem, itemReads, blank, blankReads⟩ := reads_followedBy.mp itemReads
  exact (placed _ _ _ (sound.places itemReads)).widen (Nat.le_refl _)
    (le_of_reads_blank sound blankReads)

theorem places_classBody {values : List Tree.Member}
    (reads : Reads text rule (phrase .classBody) start values stop) :
    Places text .classBody start values stop := by
  obtain ⟨innerStart, opens, row⟩ :=
    row_inside_braces sound reads fun _ _ _ fills => Fills.row fills
  exact row.widen (Nat.le_of_lt opens) (Nat.le_refl _)

theorem places_block {value : Tree.Block}
    (reads : Reads text rule (phrase .block) start value stop) :
    Places text .block start value stop := by
  have tight := tight_of_reads sound rfl reads
  obtain ⟨⟨span, statements⟩, ⟨spans, reads⟩, rfl⟩ := reads
  cases spans
  obtain ⟨innerStart, opens, row⟩ := row_inside_braces sound reads fun _ _ _ row => row
  have children : (Node.block ⟨⟨start, stop⟩, statements⟩).children =
      statements.map Tree.Statement.node := by
    simp [Node.children, Node.parts, Part.children]
  rw [← children] at row
  exact ⟨rfl, .of_inner tight rfl rfl row (Nat.le_of_lt opens) (Nat.le_refl _) (.inl opens)⟩

theorem places_statement {value : Tree.Statement}
    (reads : Reads text rule (phrase .statement) start value stop) :
    Places text .statement start value stop := by
  obtain ⟨middle, reads, semicolon, semicolonReads⟩ := reads_followedBy.mp reads
  have fills : Fills text start value.node middle := sound.places reads
  exact fills.row.widen (Nat.le_refl _) (le_of_reads sound.extent semicolonReads)

theorem places_statementBody {value : Tree.Statement}
    (reads : Reads text rule (phrase .statementBody) start value stop) :
    Places text .statementBody start value stop := by
  rcases reads with ⟨property, reads, rfl⟩ | ⟨expression, reads, rfl⟩
  · have fills : Places text .propertyDeclaration start property stop := sound.places reads
    exact fills
  · have fills : Places text .expression start expression stop := sound.places reads
    exact fills

theorem places_expressionBody {value : Tree.Expr}
    (reads : Reads text rule (phrase .expressionBody) start value stop) :
    Places text .expressionBody start value stop :=
  row_of_before sound reads fun _ inner => Fills.row (sound.places inner)

theorem places_functionBody {value : Tree.Body}
    (reads : Reads text rule (phrase .functionBody) start value stop) :
    Places text .functionBody start value stop := by
  rcases reads with ⟨expression, reads, rfl⟩ | ⟨block, reads, rfl⟩
  · have row : Places text .expressionBody start expression stop := sound.places reads
    exact row
  · have fills : Places text .block start block stop := sound.places reads
    exact Fills.row fills

theorem places_functionDeclaration {value : Tree.Function}
    (reads : Reads text rule (phrase .functionDeclaration) start value stop) :
    Places text .functionDeclaration start value stop := by
  have tight := tight_of_reads sound rfl reads
  obtain ⟨⟨span, typeParameters, ⟨nameSpan, name⟩, parameters, returnType, body⟩,
    ⟨spans, reads⟩, rfl⟩ := reads
  cases spans
  obtain ⟨afterKeyword, ⟨keyword, keywordReads⟩, beforeName, typeParameterReads, nameStop,
    nameReads, afterParameters, parameterReads, afterType, typeReads, bodyReads⟩ :=
    reads_before.mp reads
  obtain ⟨nameStart, ⟨blank, blankReads⟩, nameReads⟩ := reads_before.mp nameReads
  obtain ⟨nameSpans, spelled⟩ := sound.places nameReads
  cases nameSpans
  have typeParameterRow :
      Row text afterKeyword (typeParameters.map .typeParameter) beforeName :=
    row_of_orEmpty typeParameterReads fun _ inner =>
      row_of_before sound inner fun _ list => sound.places list
  have parameterRow : Row text nameStop (parameters.map .valueParameter) afterParameters := by
    apply row_of_before sound parameterReads
    intro listStart inside
    obtain ⟨innerStart, innerStop, opens, closes, inner⟩ :=
      reads_inside sound (by decide) (by decide) inside
    have row : Row text innerStart (parameters.map .valueParameter) innerStop :=
      row_of_orEmpty inner fun _ list => sound.places list
    exact row.widen (Nat.le_of_lt opens) (Nat.le_of_lt closes)
  have typeRow : Row text afterParameters (returnType.map Node.type).toList afterType :=
    row_of_optional typeReads fun _ inner =>
      row_of_before sound inner fun _ type => Fills.row (sound.places type)
  have bodyRow : Row text afterType [body.node] stop :=
    row_of_before sound bodyReads fun _ inner => sound.places inner
  refine ⟨rfl, .of_named (typeParameters.map .typeParameter)
    (parameters.map .valueParameter ++ (returnType.map Node.type).toList ++ [body.node])
    tight rfl rfl spelled (lt_of_rule sound rfl nameReads)
    (fun isReference => by cases isReference) ?_ ?_ ?_⟩
  · cases returnType <;>
      simp [Node.children, Node.parts, Part.children, Part.optional]
  · exact typeParameterRow.widen (le_of_reads sound.extent keywordReads)
      (le_of_reads_blank sound blankReads)
  · exact (parameterRow.append typeRow).append bodyRow

theorem places_propertyDeclaration {value : Tree.Property}
    (reads : Reads text rule (phrase .propertyDeclaration) start value stop) :
    Places text .propertyDeclaration start value stop := by
  have tight := tight_of_reads sound rfl reads
  obtain ⟨⟨span, binding, ⟨nameSpan, name⟩, type, initializer⟩,
    ⟨spans, afterBinding, bindingReads, nameStop, nameReads, afterType, typeReads,
      initializerReads⟩, rfl⟩ := reads
  cases spans
  have bindingLe := le_of_reads sound.extent bindingReads
  obtain ⟨nameStart, ⟨blank, blankReads⟩, nameReads⟩ := reads_before.mp nameReads
  obtain ⟨nameSpans, spelled⟩ := sound.places nameReads
  cases nameSpans
  have typeRow : Row text nameStop (type.map Node.type).toList afterType :=
    row_of_optional typeReads fun _ inner =>
      row_of_before sound inner fun _ written => Fills.row (sound.places written)
  have initializerRow : Row text afterType (initializer.map Node.expression).toList stop :=
    row_of_optional initializerReads fun _ inner =>
      row_of_before sound inner fun _ expression => Fills.row (sound.places expression)
  refine ⟨rfl, .of_named []
    ((type.map Node.type).toList ++ (initializer.map Node.expression).toList)
    tight rfl rfl spelled (lt_of_rule sound rfl nameReads)
    (fun isReference => by cases isReference) ?_ ?_ ?_⟩
  · cases type <;> cases initializer <;>
      simp [Node.children, Node.parts, Part.children, Part.optional]
  · exact .nil (Nat.le_trans bindingLe (le_of_reads_blank sound blankReads))
  · exact typeRow.append initializerRow

theorem places_classDeclaration {value : Tree.Class}
    (reads : Reads text rule (phrase .classDeclaration) start value stop) :
    Places text .classDeclaration start value stop := by
  have tight := tight_of_reads sound rfl reads
  obtain ⟨⟨span, ⟨nameSpan, name⟩, typeParameters, parameters, members⟩,
    ⟨spans, reads⟩, rfl⟩ := reads
  cases spans
  obtain ⟨nameStart, ⟨skipped, skippedReads⟩, nameStop, nameReads, afterTypes,
    typeParameterReads, afterParameters, parameterReads, memberReads⟩ := reads_before.mp reads
  obtain ⟨nameSpans, spelled⟩ := sound.places nameReads
  cases nameSpans
  have typeParameterRow : Row text nameStop (typeParameters.map .typeParameter) afterTypes :=
    row_of_orEmpty typeParameterReads fun _ inner =>
      row_of_before sound inner fun _ list => sound.places list
  have parameterRow :
      Row text afterTypes (parameters.map .constructorParameter) afterParameters :=
    row_of_orEmpty parameterReads fun _ inner =>
      row_of_before sound inner fun _ list => sound.places list
  have memberRow : Row text afterParameters (members.map Tree.Member.node) stop :=
    row_of_orEmpty memberReads fun _ inner =>
      row_of_before sound inner fun _ list => sound.places list
  refine ⟨rfl, .of_named []
    (typeParameters.map .typeParameter ++ parameters.map .constructorParameter ++
      members.map Tree.Member.node)
    tight rfl rfl spelled (lt_of_rule sound rfl nameReads)
    (fun isReference => by cases isReference) ?_ ?_ ?_⟩
  · simp [Node.children, Node.parts, Part.children]
  · exact .nil (le_of_reads sound.extent skippedReads)
  · exact (typeParameterRow.append parameterRow).append memberRow

theorem places_member {value : Tree.Member}
    (reads : Reads text rule (phrase .member) start value stop) :
    Places text .member start value stop := by
  rcases reads with ⟨function, reads, rfl⟩ | ⟨property, reads, rfl⟩
  · have fills : Places text .functionDeclaration start function stop := sound.places reads
    exact fills
  · have fills : Places text .propertyDeclaration start property stop := sound.places reads
    exact fills

theorem places_declaration {value : Tree.TopLevel}
    (reads : Reads text rule (phrase .declaration) start value stop) :
    Places text .declaration start value stop := by
  rcases reads with ⟨declared, reads, rfl⟩ | ⟨function, reads, rfl⟩ | ⟨property, reads, rfl⟩
  · have fills : Places text .classDeclaration start declared stop := sound.places reads
    exact fills
  · have fills : Places text .functionDeclaration start function stop := sound.places reads
    exact fills
  · have fills : Places text .propertyDeclaration start property stop := sound.places reads
    exact fills

theorem places_topLevel {value : Tree.TopLevel}
    (reads : Reads text rule (phrase .topLevel) start value stop) :
    Places text .topLevel start value stop := by
  obtain ⟨afterSemicolon, reads, blank, blankReads⟩ := reads_followedBy.mp reads
  obtain ⟨middle, reads, semicolon, semicolonReads⟩ := reads_followedBy.mp reads
  have fills : Fills text start value.node middle := sound.places reads
  exact fills.row.widen (Nat.le_refl _)
    (Nat.le_trans (le_of_reads sound.extent semicolonReads) (le_of_reads_blank sound blankReads))

end Gloss.Grammar

/-! ### Files -/

namespace Gloss.Grammar

open Node (Fills Row WellPlaced)

variable {text : List Char} {rule : Peg.RuleReading Rule} {start stop : Nat}

section Rules

variable (sound : Sound text rule)

include sound

theorem stop_of_getLast?_names {names : List Tree.SimpleName}
    (repeats : Peg.Repeats
      (Reads text rule ((separator ".").before (.rule .nameReference))) start names stop)
    {first last : Tree.SimpleName} (firstStop : first.span.stop = start)
    (isLast : (first :: names).getLast? = some last) : last.span.stop = stop := by
  induction repeats generalizing first with
  | nil =>
      simp only [List.getLast?_singleton, Option.some.injEq] at isLast
      rw [← isLast, firstStop]
  | @cons start middle stop name names reads moves rest ih =>
      obtain ⟨nameStart, -, nameReads⟩ := reads_before.mp reads
      have fills : Fills text nameStart name.node middle := sound.places nameReads
      have nameStop : name.span.stop = middle := congrArg Span.stop fills.span
      apply ih nameStop
      rwa [List.getLast?_cons_cons] at isLast

theorem places_qualifiedName {values : List Tree.SimpleName}
    (reads : Reads text rule (phrase .qualifiedName) start values stop) :
    Places text .qualifiedName start values stop := by
  refine ⟨row_of_separated sound reads fun _ _ _ fills => fills, ?_⟩
  obtain ⟨⟨first, rest⟩, ⟨middle, firstReads, restReads⟩, rfl⟩ := reads
  have fills : Fills text start first.node middle := sound.places firstReads
  have firstStop : first.span.stop = middle := congrArg Span.stop fills.span
  have some : ((first :: rest).getLast?).isSome := by simp
  obtain ⟨last, isLast⟩ := Option.isSome_iff_exists.mp some
  exact ⟨last, isLast, stop_of_getLast?_names sound restReads firstStop isLast⟩

theorem places_packageHeader {value : Tree.Package}
    (reads : Reads text rule (phrase .packageHeader) start value stop) :
    Places text .packageHeader start value stop := by
  have headerTight := tight_of_reads sound rfl reads
  obtain ⟨⟨span, names⟩, ⟨spans, reads⟩, rfl⟩ := reads
  cases spans
  obtain ⟨nameStop, reads, semicolon, semicolonReads⟩ := reads_followedBy.mp reads
  obtain ⟨nameStart, ⟨skipped, skippedReads⟩, nameReads⟩ := reads_before.mp reads
  obtain ⟨afterKeyword, ⟨keyword, keywordReads⟩, blankReads⟩ := reads_before.mp skippedReads
  have keywordLt := lt_of_rule sound rfl keywordReads
  have blankLe := le_of_reads_blank sound blankReads
  obtain ⟨row, last, isLast, lastStop⟩ := sound.places nameReads
  have nameTight := (sound.extent _ _ _ _ nameReads).tight rfl
  have opens : start < nameStart := by omega
  have tight : Text.Tight text ⟨start, nameStop⟩ :=
    ⟨⟨Nat.lt_of_lt_of_le opens row.le, headerTight.first.2⟩,
      nameTight.last.extend (Nat.le_of_lt opens)⟩
  have children : ∀ span, (Node.package ⟨span, names⟩).children =
      names.map Tree.SimpleName.node := by
    simp [Node.children, Node.parts, Part.children]
  have fills : Fills text start (.package ⟨⟨start, nameStop⟩, names⟩) nameStop := by
    rw [← children ⟨start, nameStop⟩] at row
    exact ⟨rfl, .of_inner tight rfl rfl row (Nat.le_of_lt opens) (Nat.le_refl _) (.inl opens)⟩
  simp only [isLast, Option.map_some, Option.getD_some, lastStop]
  exact fills.row.widen (Nat.le_refl _) (le_of_reads sound.extent semicolonReads)

theorem places_packagePart {value : Tree.Package}
    (reads : Reads text rule (phrase .packagePart) start value stop) :
    Places text .packagePart start value stop := by
  obtain ⟨middle, reads, blank, blankReads⟩ := reads_followedBy.mp reads
  have row : Row text start [.package value] middle := sound.places reads
  exact row.widen (Nat.le_refl _) (le_of_reads_blank sound blankReads)

theorem places_file {value : Tree.File}
    (reads : Reads text rule (phrase .file) start value stop) :
    Places text .file start value stop := by
  obtain ⟨⟨span, package, declarations⟩, ⟨spans, reads⟩, rfl⟩ := reads
  cases spans
  obtain ⟨afterBlank, ⟨blank, blankReads⟩, middle, packageReads, declarationReads⟩ :=
    reads_before.mp reads
  have packageRow : Row text afterBlank (package.map Node.package).toList middle :=
    row_of_optional packageReads fun _ inner => sound.places inner
  have declarationRow : Row text middle (declarations.map Tree.TopLevel.node) stop :=
    row_of_repeats declarationReads fun _ _ _ inner => sound.places inner
  have children : (Node.file ⟨⟨start, stop⟩, package, declarations⟩).children =
      (package.map Node.package).toList ++ declarations.map Tree.TopLevel.node := by
    cases package <;> simp [Node.children, Node.parts, Part.children, Part.optional]
  refine ⟨rfl, ?_⟩
  rw [children]
  exact (packageRow.append declarationRow).widen (le_of_reads_blank sound blankReads)
    (Nat.le_refl _)

/-- A rule keeps to its place when the rules inside of it do. -/
theorem places_of_reads {α : Type} {name : Rule α} {value : α}
    (reads : Reads text rule (phrase name) start value stop) :
    Places text name start value stop := by
  cases name with
  | file => exact places_file sound reads
  | packagePart => exact places_packagePart sound reads
  | topLevel => exact places_topLevel sound reads
  | packageHeader => exact places_packageHeader sound reads
  | qualifiedName => exact places_qualifiedName sound reads
  | declaration => exact places_declaration sound reads
  | member => exact places_member sound reads
  | classDeclaration => exact places_classDeclaration sound reads
  | typeParameters => exact places_typeParameters sound reads
  | constructorParameters => exact places_constructorParameters sound reads
  | constructorParameterList => exact places_constructorParameterList sound reads
  | constructorParameter => exact places_constructorParameter sound reads
  | classBody => exact places_classBody sound reads
  | functionDeclaration => exact places_functionDeclaration sound reads
  | valueParameters => exact places_valueParameters sound reads
  | valueParameter => exact places_valueParameter sound reads
  | functionBody => exact places_functionBody sound reads
  | expressionBody => exact places_expressionBody sound reads
  | block => exact places_block sound reads
  | statement => exact places_statement sound reads
  | statementBody => exact places_statementBody sound reads
  | propertyDeclaration => exact places_propertyDeclaration sound reads
  | type => exact places_type sound reads
  | typeBody => exact places_typeBody sound reads
  | functionType => exact places_functionType sound reads
  | typeList => exact places_typeList sound reads
  | namedType => exact places_namedType sound reads
  | typeArguments => exact places_typeArguments sound reads
  | expression => exact places_expression sound reads
  | comparisonOperator => exact places_comparisonOperator sound reads
  | additive => exact places_additive sound reads
  | additiveOperator => exact places_additiveOperator sound reads
  | multiplicative => exact places_multiplicative sound reads
  | multiplicativeOperator => exact places_multiplicativeOperator sound reads
  | suffixed => exact places_suffixed sound reads
  | suffix => exact places_suffix sound reads
  | callSuffix => exact places_callSuffix sound reads
  | memberSuffix => exact places_memberSuffix sound reads
  | arguments => exact places_arguments sound reads
  | primary => exact places_primary sound reads
  | conditional => exact places_conditional sound reads
  | parenthesized => exact places_parenthesized sound reads
  | callableReference => exact places_callableReference sound reads
  | literal => exact places_literal sound reads
  | integerLiteral => exact places_integerLiteral sound reads
  | textLiteral => exact places_textLiteral sound reads
  | truthLiteral => exact places_truthLiteral sound reads
  | nullLiteral => exact places_nullLiteral sound reads
  | declaredName | typeName => exact spelled_of_reads_name reads
  | typeParameter => exact places_typeParameter sound reads
  | nameReference => exact places_nameReference sound reads
  | nullable | packageKeyword | classKeyword | functionKeyword | ifKeyword | elseKeyword
  | bindingKeyword | blank => trivial

end Rules

/-- What a rule reads at its extent and in its place. -/
def placedReading (text : List Char) : Peg.RuleReading Rule := fun _ name start value stop =>
  Extent text name start stop ∧ Places text name start value stop

theorem sound_placedReading (text : List Char) : Sound text (placedReading text) :=
  ⟨fun _ _ _ _ reads => reads.1, fun reads => reads.2⟩

/-- What a match of a rule has read lies in its place. -/
theorem places_of_matchRule {α : Type} {name : Rule α} {cursor next : Cursor} {value : α}
    (stands : cursor.In text) (run : matchRule name cursor = .matched value next) :
    Places text name cursor.offset value next.offset ∧ next.In text := by
  have sound := sound_placedReading text
  have closed : ∀ {β : Type} (name : Rule β) start value stop,
      Reads text (placedReading text) (phrase name) start value stop →
        placedReading text name start value stop :=
    fun _ _ _ _ reads => ⟨extent_of_reads sound.extent reads, places_of_reads sound reads⟩
  obtain ⟨reads, nextStands⟩ :=
    Peg.reads_of_runRule Token.scan_le_length closed stands run
  exact ⟨sound.places reads, nextStands⟩

/-- The tree of a text that can be read is well placed. -/
theorem wellPlaced_of_read {file : String} {tree : Tree.File} (read : read file text = .ok tree) :
    tree.WellPlaced text := by
  unfold Grammar.read at read
  cases run : matchRule .file (Cursor.ofText text) with
  | exhausted => simp [run] at read
  | mismatch => simp [run] at read
  | matched found next =>
      simp only [run] at read
      split at read
      · next atEnd =>
          split at read
          · cases read
            obtain ⟨⟨span, row⟩, nextStands⟩ :=
              places_of_matchRule (Cursor.in_ofText text) run
            have whole : next.offset = text.length := by
              have rest := nextStands.rest
              rw [List.isEmpty_iff.mp atEnd, eq_comm, List.drop_eq_nil_iff] at rest
              exact Nat.le_antisymm nextStands.inText rest
            rw [whole] at span row
            exact ⟨span, row.spread, row.placed⟩
          · simp at read
      · simp at read

end Gloss.Grammar
