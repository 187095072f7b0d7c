import Gloss.Grammar.Reading
import Gloss.Proofs.Grammar.Matching
import Gloss.Proofs.Grammar.Nodes

/-!
# Texts between quotes

A text can be written between double quotes by escapes for backslashes, quotes
and line feeds, and reading gives the text back.  The literal ends where it is
found to end: the scanner steps over the escapes one by one, exactly as they
are taken back later, so neither takes the second half of an escape for the
first half of another.
-/

namespace Gloss

/-- How a character can be written between double quotes. -/
inductive Spells : Char → List Char → Prop where
  | plain {character : Char} (noBackslash : character ≠ '\\') (noQuote : character ≠ '\x22')
      (noLineFeed : character ≠ '\n') : Spells character [character]
  | backslash : Spells '\\' ['\\', '\\']
  | quote : Spells '\x22' ['\\', '\x22']
  | lineFeed : Spells '\n' ['\\', 'n']
  | tab : Spells '\t' ['\\', 't']
  | carriageReturn : Spells '\r' ['\\', 'r']

/-- How a text can be written between double quotes. -/
inductive Escapes : List Char → List Char → Prop where
  | nil : Escapes [] []
  | cons {character : Char} {value spelling escaped : List Char} :
      Spells character spelling → Escapes value escaped →
      Escapes (character :: value) (spelling ++ escaped)

/-- Every character can be written. -/
theorem Spells.exists_spelling (character : Char) : ∃ spelling, Spells character spelling := by
  by_cases backslash : character = '\\'
  · subst backslash
    exact ⟨_, .backslash⟩
  by_cases quote : character = '\x22'
  · subst quote
    exact ⟨_, .quote⟩
  by_cases lineFeed : character = '\n'
  · subst lineFeed
    exact ⟨_, .lineFeed⟩
  exact ⟨_, .plain backslash quote lineFeed⟩

theorem Escapes.exists_escaped (value : List Char) : ∃ escaped, Escapes value escaped := by
  induction value with
  | nil => exact ⟨_, .nil⟩
  | cons character value ih =>
      obtain ⟨spelling, spells⟩ := Spells.exists_spelling character
      obtain ⟨escaped, escapes⟩ := ih
      exact ⟨_, .cons spells escapes⟩

namespace Spells

variable {character : Char} {spelling : List Char}

/-- The scanner takes the spelling of a character at one step. -/
theorem scanQuotedRest (spells : Spells character spelling) (rest : List Char) :
    Token.scanQuotedRest (spelling ++ rest) =
      (Token.scanQuotedRest rest).map (· + spelling.length) := by
  cases spells with
  | plain noBackslash noQuote noLineFeed =>
      change Token.scanQuotedRest (character :: rest) = _
      rw [Token.scanQuotedRest.eq_3 _ _ fun _ _ isBackslash _ => noBackslash isBackslash,
        if_neg noQuote, if_neg (by simp [noLineFeed, noBackslash])]
      rfl
  | backslash | quote | lineFeed | tab | carriageReturn => rfl

/-- The spelling of a character is taken back at one step. -/
theorem unescape (spells : Spells character spelling) (rest : List Char) :
    Grammar.unescape (spelling ++ rest) = character :: Grammar.unescape rest := by
  cases spells with
  | plain noBackslash noQuote noLineFeed =>
      change Grammar.unescape (character :: rest) = _
      rw [Grammar.unescape.eq_2 _ _ fun _ _ isBackslash _ => noBackslash isBackslash]
  | backslash | quote | lineFeed | tab | carriageReturn => rfl

end Spells

namespace Escapes

variable {value escaped : List Char}

/-- The scanner goes on to the quote behind what is written. -/
theorem scanQuotedRest (escapes : Escapes value escaped) (rest : List Char) :
    Token.scanQuotedRest (escaped ++ '\x22' :: rest) = some (escaped.length + 1) := by
  induction escapes with
  | nil => rfl
  | cons spells escapes ih =>
      rw [List.append_assoc, spells.scanQuotedRest, ih, List.length_append, Option.map_some]
      congr 1
      omega

/-- What is written stands for the text. -/
theorem unescape (escapes : Escapes value escaped) : Grammar.unescape escaped = value := by
  induction escapes with
  | nil => rfl
  | cons spells escapes ih => rw [spells.unescape, ih]

end Escapes

namespace Grammar

open Node (throughout_nil throughout_singleton)

section Literal

variable {value escaped : List Char}

/-- The text with its quotes around it. -/
def quoted (escaped : List Char) : List Char := '\x22' :: (escaped ++ ['\x22'])

theorem inside_quoted : inside (quoted escaped) = escaped := by
  simp [inside, quoted]

theorem scanQuoted_quoted (escapes : Escapes value escaped) (rest : List Char) :
    Token.scanQuoted (quoted escaped ++ rest) = some (quoted escaped).length := by
  have shape : quoted escaped ++ rest = '\x22' :: (escaped ++ '\x22' :: rest) := by simp [quoted]
  rw [shape, Token.scanQuoted, escapes.scanQuotedRest]
  simp [quoted]

/-- A quoted text is read from quote to quote, whatever follows. -/
theorem run_textLiteral (depth start : Nat) (rest : List Char) (escapes : Escapes value escaped) :
    Peg.runRule Token.scan phrase (depth + 1) .textLiteral ⟨start, quoted escaped ++ rest⟩ =
      .matched (.text ⟨start, start + (quoted escaped).length⟩ (String.ofList value))
        ⟨start + (quoted escaped).length, rest⟩ := by
  have token : Peg.run Token.scan (Peg.runRule Token.scan phrase depth) (.token .quoted)
      ⟨start, quoted escaped ++ rest⟩ =
        .matched (quoted escaped) ⟨start + (quoted escaped).length, rest⟩ := by
    simp [Peg.run, Token.scan, scanQuoted_quoted escapes, Cursor.advance]
  have literal : Peg.runRule Token.scan phrase (depth + 1) .textLiteral
      ⟨start, quoted escaped ++ rest⟩ =
        .matched (.text ⟨start, start + (quoted escaped).length⟩
          (String.ofList (unescape (inside (quoted escaped)))))
          ⟨start + (quoted escaped).length, rest⟩ :=
    Peg.runRule_of_run (Peg.run_map (Peg.run_spanned token))
  rwa [inside_quoted, escapes.unescape] at literal

/-- Neither suffixes nor operators follow at the end of a text. -/
theorem run_expression (start : Nat) (escapes : Escapes value escaped) :
    Peg.runRule Token.scan phrase 7 .expression ⟨start, quoted escaped⟩ =
      .matched (.text ⟨start, start + (quoted escaped).length⟩ (String.ofList value))
        ⟨start + (quoted escaped).length, []⟩ := by
  have textRun := run_textLiteral 0 start [] escapes
  rw [List.append_nil] at textRun
  generalize start + (quoted escaped).length = stop at textRun ⊢
  have literal : Peg.runRule Token.scan phrase 2 .literal ⟨start, quoted escaped⟩ =
      .matched (.text ⟨start, stop⟩ (String.ofList value)) ⟨stop, []⟩ :=
    Peg.runRule_of_run ((Peg.run_either_second rfl).trans
      (Peg.run_either_first (Peg.run_rule textRun)))
  have primary : Peg.runRule Token.scan phrase 3 .primary ⟨start, quoted escaped⟩ =
      .matched (.text ⟨start, stop⟩ (String.ofList value)) ⟨stop, []⟩ :=
    Peg.runRule_of_run ((Peg.run_either_second rfl).trans
      (Peg.run_either_first (Peg.run_rule literal)))
  -- At the end of the text each repetition is refused by its first token.
  have suffixed : Peg.runRule Token.scan phrase 4 .suffixed ⟨start, quoted escaped⟩ =
      .matched (.text ⟨start, stop⟩ (String.ofList value)) ⟨stop, []⟩ :=
    Peg.runRule_of_run
      (Peg.run_map (Peg.run_both (Peg.run_rule primary) (Peg.run_many_none rfl)))
  have multiplicative : Peg.runRule Token.scan phrase 5 .multiplicative ⟨start, quoted escaped⟩ =
      .matched (.text ⟨start, stop⟩ (String.ofList value)) ⟨stop, []⟩ :=
    Peg.runRule_of_run
      (Peg.run_map (Peg.run_both (Peg.run_rule suffixed) (Peg.run_many_none rfl)))
  have additive : Peg.runRule Token.scan phrase 6 .additive ⟨start, quoted escaped⟩ =
      .matched (.text ⟨start, stop⟩ (String.ofList value)) ⟨stop, []⟩ :=
    Peg.runRule_of_run
      (Peg.run_map (Peg.run_both (Peg.run_rule multiplicative) (Peg.run_many_none rfl)))
  have compared : Peg.run Token.scan (Peg.runRule Token.scan phrase 6)
      (.optional (operation .comparisonOperator .additive)) ⟨stop, []⟩ =
        .matched none ⟨stop, []⟩ := rfl
  exact Peg.runRule_of_run (Peg.run_map (Peg.run_both (Peg.run_rule additive) compared))

end Literal

section File

variable {value escaped : List Char}

/-- A file with one property, whose value is a quoted text. -/
def textProperty (escaped : List Char) : List Char := "val a = ".toList ++ quoted escaped

/-- The property of that file. -/
def textPropertyTree (value : String) (stop : Nat) : Tree.Property :=
  { span := ⟨0, stop⟩, name := "a", nameSpan := ⟨4, 5⟩, binding := .val, type := none
    initializer := some (.text ⟨8, stop⟩ value) }

theorem run_propertyDeclaration (escapes : Escapes value escaped) :
    Peg.runRule Token.scan phrase 8 .propertyDeclaration (Cursor.ofText (textProperty escaped)) =
      .matched (textPropertyTree (String.ofList value) (8 + (quoted escaped).length))
        ⟨8 + (quoted escaped).length, []⟩ := by
  have expression := run_expression 8 escapes
  generalize 8 + (quoted escaped).length = stop at expression ⊢
  have binding : Peg.runRule Token.scan phrase 7 .bindingKeyword
      (Cursor.ofText (textProperty escaped)) =
        .matched .val ⟨3, " a = ".toList ++ quoted escaped⟩ := rfl
  have named : Peg.run Token.scan (Peg.runRule Token.scan phrase 7) (blank *> .rule .declaredName)
      ⟨3, " a = ".toList ++ quoted escaped⟩ =
        .matched (⟨4, 5⟩, "a") ⟨5, " = ".toList ++ quoted escaped⟩ := rfl
  have untyped : Peg.run Token.scan (Peg.runRule Token.scan phrase 7)
      (.optional (separator ":" *> .rule .type)) ⟨5, " = ".toList ++ quoted escaped⟩ =
        .matched none ⟨5, " = ".toList ++ quoted escaped⟩ := rfl
  have equals : Peg.run Token.scan (Peg.runRule Token.scan phrase 7) (separator "=")
      ⟨5, " = ".toList ++ quoted escaped⟩ = .matched () ⟨8, quoted escaped⟩ := rfl
  exact Peg.runRule_of_run (Peg.run_map (Peg.run_spanned (Peg.run_both (Peg.run_rule binding)
    (Peg.run_both named (Peg.run_both untyped
      (Peg.run_optional (Peg.run_before equals (Peg.run_rule expression))))))))

theorem run_file (escapes : Escapes value escaped) :
    Peg.runRule Token.scan phrase 11 .file (Cursor.ofText (textProperty escaped)) =
      .matched ⟨⟨0, 8 + (quoted escaped).length⟩, none,
        [.member (.property
          (textPropertyTree (String.ofList value) (8 + (quoted escaped).length)))]⟩
        ⟨8 + (quoted escaped).length, []⟩ := by
  have property := run_propertyDeclaration escapes
  generalize isStop : 8 + (quoted escaped).length = stop at property ⊢
  have declaration : Peg.runRule Token.scan phrase 9 .declaration
      (Cursor.ofText (textProperty escaped)) =
        .matched (.member (.property (textPropertyTree (String.ofList value) stop))) ⟨stop, []⟩ :=
    Peg.runRule_of_run ((Peg.run_either_second rfl).trans ((Peg.run_either_second rfl).trans
      (Peg.run_map (Peg.run_rule property))))
  have topLevel : Peg.runRule Token.scan phrase 10 .topLevel
      (Cursor.ofText (textProperty escaped)) =
        .matched (.member (.property (textPropertyTree (String.ofList value) stop))) ⟨stop, []⟩ :=
    Peg.runRule_of_run
      (Peg.run_followedBy (Peg.run_followedBy (Peg.run_rule declaration) rfl) rfl)
  have refused : Peg.run Token.scan (Peg.runRule Token.scan phrase 10) (.rule .topLevel)
      ⟨stop, []⟩ = .mismatch := rfl
  have declarations := Peg.run_many_once (Peg.run_rule topLevel) (by simp [Cursor.ofText]; omega)
    nofun refused
  have package : Peg.run Token.scan (Peg.runRule Token.scan phrase 10)
      (.optional (.rule .packagePart)) (Cursor.ofText (textProperty escaped)) =
        .matched none (Cursor.ofText (textProperty escaped)) := rfl
  have blanks : Peg.run Token.scan (Peg.runRule Token.scan phrase 10) blank
      (Cursor.ofText (textProperty escaped)) =
        .matched () (Cursor.ofText (textProperty escaped)) := rfl
  exact Peg.runRule_of_run (Peg.run_map (Peg.run_spanned (Peg.run_before blanks
    (Peg.run_both package declarations))))

/-- A tree without numbers has none that is too long. -/
theorem findSome?_oversized (value : String) (stop : Nat) :
    (Tree.File.occurrences ⟨⟨0, stop⟩, none,
      [.member (.property (textPropertyTree value stop))]⟩).findSome? oversized? = none := by
  have numberless : (Node.file ⟨⟨0, stop⟩, none,
      [.member (.property (textPropertyTree value stop))]⟩).Everywhere
        (fun node => ∀ span digits, node ≠ .expression (.integer span digits)) :=
    .of_children nofun (throughout_singleton.mpr (.of_children nofun
      (throughout_singleton.mpr (.of_children nofun throughout_nil))))
  refine List.findSome?_eq_none_iff.mpr fun occurrence occurs => ?_
  have noNumber := numberless _ (Node.mem_subtree_of_mem_occurrences occurs)
  unfold oversized?
  split
  · next isNumber => exact absurd isNumber (noNumber _ _)
  · rfl

/-- What is written between the quotes of a literal is the text that it stands
for, and the literal extends from quote to quote. -/
theorem read_quoted (file : String) {value : String} {escaped : List Char}
    (escapes : Escapes value.toList escaped) :
    let text := "val a = ".toList ++ quoted escaped
    let literal : Span := ⟨8, text.length⟩
    read file text = .ok
      { span := ⟨0, text.length⟩
        package := none
        declarations := [.member (.property
          { span := ⟨0, text.length⟩
            name := "a"
            nameSpan := ⟨4, 5⟩
            binding := .val
            type := none
            initializer := some (.text literal value) })] } ∧
      Text.slice literal.start literal.stop text = quoted escaped := by
  intro text literal
  have length : text.length = 8 + (quoted escaped).length := List.length_append
  have run := run_file escapes
  rw [String.ofList_toList, ← length] at run
  change Peg.runRule Token.scan phrase 11 .file (Cursor.ofText text) = _ at run
  have enough : 11 ≤ depth text.length := by
    have rules : 11 ≤ Rule.all.length := by decide
    exact Nat.le_trans rules (Nat.le_mul_of_pos_left _ (Nat.succ_pos _))
  have matched : matchRule .file (Cursor.ofText text) = _ :=
    (Peg.runRule_eq_of_le enough (run ▸ Outcome.matched_ne_exhausted)).trans run
  constructor
  · simp only [read, matched, findSome?_oversized]
    rfl
  · rw [Text.slice, List.take_length]
    rfl

/-- A quote, a raw and an escaped tab, a line feed and a backslash before an
n. -/
theorem read_quoted_sample :
    ∃ declared,
      read "sample" ("val a = ".toList ++ quoted "\\\x22\t\\t\\n\\\\n".toList) =
          .ok ⟨⟨0, 20⟩, none, [.member (.property declared)]⟩ ∧
        declared.initializer = some (.text ⟨8, 20⟩ "\x22\t\t\n\\n") := by
  have escapes : Escapes "\x22\t\t\n\\n".toList "\\\x22\t\\t\\n\\\\n".toList :=
    .cons .quote (.cons (.plain (by decide) (by decide) (by decide)) (.cons .tab (.cons .lineFeed
      (.cons .backslash (.cons (.plain (by decide) (by decide) (by decide)) .nil)))))
  exact ⟨_, (read_quoted "sample" escapes).1, rfl⟩

end File

end Grammar

end Gloss
