import Gloss.Fixture
import Mathlib.Data.List.DropRight
import Mathlib.Data.List.TakeWhile
import Mathlib.Data.Prod.Lex

/-!
# Lines and columns

A text is its lines with line feeds between them.  The line and the column of
an offset lead back to the offset: it is as far behind the start of its line as
the column says.  So later offsets have later places, and no two offsets of a
text are shown at one place.
-/

namespace Gloss

namespace Text

/-- The lines of a text, without the line feeds between them. -/
def lines (text : List Char) : List (List Char) := text.splitOn '\n'

/-- The length of the first lines of a text, each with its line feed. -/
def lengthOfLines (count : Nat) (text : List Char) : Nat :=
  (((lines text).take count).flatMap (· ++ ['\n'])).length

/-- The offset at which a line begins; the first line has the number one. -/
def lineStart? (text : List Char) (number : Int) : Option Nat :=
  if 1 ≤ number ∧ number ≤ (lines text).length then
    some (lengthOfLines (number - 1).toNat text)
  else none

/-- What stands behind the last line feed of a text. -/
def lastLine (text : List Char) : List Char := text.rtakeWhile (· != '\n')

theorem lines_cons (character : Char) (rest : List Char) :
    lines (character :: rest) =
      if character = '\n' then [] :: lines rest else (lines rest).modifyHead (character :: ·) := by
  simp only [lines, List.splitOn_eq_splitOnP, List.splitOnP_cons_eq_if_modifyHead, beq_iff_eq]

theorem length_lines (text : List Char) : (lines text).length = text.count '\n' + 1 := by
  induction text with
  | nil => rfl
  | cons character rest ih =>
      rw [lines_cons]
      split <;> simp_all

@[simp] theorem lengthOfLines_zero (text : List Char) : lengthOfLines 0 text = 0 := rfl

theorem lengthOfLines_lineFeed (count : Nat) (rest : List Char) :
    lengthOfLines (count + 1) ('\n' :: rest) = lengthOfLines count rest + 1 := by
  rw [lengthOfLines, lines_cons, if_pos rfl]
  simp [lengthOfLines, Nat.add_comm]

theorem lengthOfLines_cons {character : Char} (notFeed : character ≠ '\n') (count : Nat)
    (rest : List Char) :
    lengthOfLines (count + 1) (character :: rest) = lengthOfLines (count + 1) rest + 1 := by
  have nonempty : lines rest ≠ [] := List.splitOn_ne_nil _ _
  obtain ⟨first, others, linesEq⟩ := List.exists_cons_of_ne_nil nonempty
  rw [lengthOfLines, lines_cons, if_neg notFeed, lengthOfLines, linesEq]
  simp

theorem lastLine_of_notMem {text : List Char} (oneLine : '\n' ∉ text) : lastLine text = text := by
  rw [lastLine, List.rtakeWhile_eq_self_iff]
  intro character member
  simp only [bne_iff_ne, ne_eq]
  rintro rfl
  exact oneLine member

/-- The last line begins behind the first character if this ends a line or is not in the
last one. -/
theorem lastLine_cons {character : Char} {text : List Char}
    (behind : character = '\n' ∨ '\n' ∈ text) : lastLine (character :: text) = lastLine text := by
  simp only [lastLine, List.rtakeWhile, List.reverse_cons, List.takeWhile_append]
  split
  · rename_i whole
    have same := (List.takeWhile_prefix (· != '\n')).eq_of_length whole
    have oneLine : '\n' ∉ text := by
      intro member
      have kept := List.takeWhile_eq_self_iff.mp same '\n' (List.mem_reverse.mpr member)
      simp at kept
    cases behind.resolve_right oneLine
    rw [same]
    simp
  · rfl

/-- An offset is as far into the text as the lines before it and what stands before it in
its own line. -/
theorem lengthOfLines_add_length_lastLine {text : List Char} {offset : Nat}
    (inText : offset ≤ text.length) :
    lengthOfLines ((text.take offset).count '\n') text + (lastLine (text.take offset)).length =
      offset := by
  induction text generalizing offset with
  | nil =>
      cases Nat.le_zero.mp inText
      rfl
  | cons character rest ih =>
      cases offset with
      | zero => rfl
      | succ offset =>
          have known := ih (Nat.le_of_succ_le_succ inText)
          rw [List.take_succ_cons]
          by_cases feed : character = '\n'
          · subst feed
            rw [List.count_cons_self, lengthOfLines_lineFeed, lastLine_cons (.inl rfl)]
            omega
          · rw [List.count_cons_of_ne feed]
            by_cases several : '\n' ∈ rest.take offset
            · obtain ⟨count, countEq⟩ :=
                Nat.exists_eq_add_one.mpr (List.count_pos_iff.mpr several)
              rw [countEq] at known ⊢
              rw [lengthOfLines_cons feed, lastLine_cons (.inr several)]
              omega
            · have oneLine : '\n' ∉ character :: rest.take offset := by
                simp [Ne.symm feed, several]
              rw [List.count_eq_zero.mpr several, lengthOfLines_zero, lastLine_of_notMem oneLine]
              have shorter : offset ≤ rest.length := Nat.le_of_succ_le_succ inText
              simp [shorter]

end Text

namespace Place

/-- The offset that a line and a column stand for: as many characters behind the start of
the line as the column says, the first column being that of the start. -/
def offset? (text : List Char) (line column : Int) : Option Int :=
  (Text.lineStart? text line).map fun start : Nat => (start : Int) + column - 1

/-- The places of the offsets of a text, as a function gives them, follow the text, lead
back to the offsets, and are all shown differently. -/
structure Faithful (text : List Char) (place : Int → Place) : Prop where
  ascending : ∀ first second : Nat, first < second → second ≤ text.length →
    toLex ((place first).line, (place first).column) <
      toLex ((place second).line, (place second).column)
  recovered : ∀ offset : Nat, offset ≤ text.length →
    offset? text (place offset).line (place offset).column = some (offset : Int)
  apart : ∀ first second : Nat, first ≤ text.length → second ≤ text.length →
    (place first).render = (place second).render → first = second

/-- What a place shows before its line and its column. -/
def filePart (file : String) : List Char := if file = "" then [] else file.toList ++ [':']

section OfOffset

variable {text : List Char} (file : String)

theorem line_ofOffset (offset : Nat) :
    (ofOffset text offset file).line = ((text.take offset).count '\n' + 1 : Nat) := rfl

theorem column_ofOffset (offset : Nat) :
    (ofOffset text offset file).column =
      ((Text.lastLine (text.take offset)).length + 1 : Nat) := by
  rw [Text.lastLine, List.rtakeWhile, List.length_reverse]
  rfl

/-- The line of an offset of the text is one of its lines. -/
theorem lineStart?_ofOffset (offset : Nat) :
    Text.lineStart? text (ofOffset text offset file).line =
      some (Text.lengthOfLines ((text.take offset).count '\n') text) := by
  have known : (text.take offset).count '\n' ≤ text.count '\n' :=
    (List.take_sublist offset text).count_le '\n'
  have inLines : 1 ≤ (ofOffset text offset file).line ∧
      (ofOffset text offset file).line ≤ (Text.lines text).length := by
    rw [line_ofOffset, Text.length_lines]
    omega
  rw [Text.lineStart?, if_pos inLines, line_ofOffset]
  simp

theorem offset?_ofOffset {offset : Nat} (inText : offset ≤ text.length) :
    offset? text (ofOffset text offset file).line (ofOffset text offset file).column =
      some (offset : Int) := by
  have known := Text.lengthOfLines_add_length_lastLine inText
  rw [offset?, lineStart?_ofOffset, column_ofOffset, Option.map_some]
  congr 1
  omega

/-- Line by line, and in a line from column to column. -/
theorem ofOffset_lt_ofOffset {first second : Nat} (earlier : first < second)
    (inText : second ≤ text.length) :
    toLex ((ofOffset text first file).line, (ofOffset text first file).column) <
      toLex ((ofOffset text second file).line, (ofOffset text second file).column) := by
  have firstKnown := offset?_ofOffset file (Nat.le_trans (Nat.le_of_lt earlier) inText)
  have secondKnown := offset?_ofOffset file inText
  rw [Prod.Lex.toLex_lt_toLex]
  have lines : (ofOffset text first file).line ≤ (ofOffset text second file).line := by
    have shorter : (text.take first).Sublist (text.take second) :=
      (List.take_prefix_take_left (Nat.le_of_lt earlier)).sublist
    have counts := shorter.count_le '\n'
    rw [line_ofOffset, line_ofOffset]
    omega
  rcases Int.lt_or_eq_of_le lines with less | same
  · exact .inl less
  · -- Both columns count from the start of one line.
    right
    refine ⟨same, ?_⟩
    rw [offset?, same] at firstKnown
    rw [offset?] at secondKnown
    obtain ⟨start, isStart, firstOffset⟩ := Option.map_eq_some_iff.mp firstKnown
    rw [isStart, Option.map_some, Option.some.injEq] at secondKnown
    simp only
    omega

/-- The place of an offset is shown with its line and its column. -/
theorem toList_render_ofOffset (offset : Nat) :
    (ofOffset text offset file).render.toList =
      filePart file ++ (Nat.toDigits 10 ((text.take offset).count '\n' + 1) ++
        ':' :: Nat.toDigits 10 ((Text.lastLine (text.take offset)).length + 1)) := by
  have line : (ofOffset text offset file).line = _ := line_ofOffset file offset
  have column : (ofOffset text offset file).column = _ := column_ofOffset file offset
  have named : (ofOffset text offset file).file = file := rfl
  generalize ofOffset text offset file = place at line column named
  have shownLine : toString place.line = ((text.take offset).count '\n' + 1).repr := by
    rw [line]
    rfl
  have shownColumn :
      toString place.column = ((Text.lastLine (text.take offset)).length + 1).repr := by
    rw [column]
    rfl
  have lineKnown : 0 < place.line := by omega
  have columnKnown : 0 < place.column := by omega
  have notZero : place.line ≠ 0 := by omega
  by_cases unnamed : file = ""
  · simp [render, filePart, named, unnamed, notZero, lineKnown, columnKnown, shownLine, shownColumn,
      Text.joined, Nat.toList_repr]
  · simp [render, filePart, named, unnamed, lineKnown, columnKnown, shownLine, shownColumn,
      Text.joined, Nat.toList_repr]

/-- No number is written with a colon. -/
theorem colon_notMem_toDigits (number : Nat) : ':' ∉ Nat.toDigits 10 number := by
  intro member
  have digit := Nat.isDigit_of_mem_toDigits (by decide) (by decide) member
  cases digit

theorem toDigits_inj {first second : Nat} (same : Nat.toDigits 10 first = Nat.toDigits 10 second) :
    first = second := by
  have numbers := congrArg (Nat.ofDigitChars 10 · 0) same
  simpa only [Nat.ofDigitChars_toDigits (by decide : 1 < 10) (by decide)] using numbers

/-- Places of one file that are shown alike have the same line and the same column. -/
theorem ofOffset_of_render_eq {first second : Nat}
    (shownAlike : (ofOffset text first file).render = (ofOffset text second file).render) :
    (ofOffset text first file).line = (ofOffset text second file).line ∧
      (ofOffset text first file).column = (ofOffset text second file).column := by
  have characters := congrArg String.toList shownAlike
  rw [toList_render_ofOffset, toList_render_ofOffset, List.append_cancel_left_eq,
    List.append_cons_inj_of_notMem (colon_notMem_toDigits _) (colon_notMem_toDigits _)]
    at characters
  obtain ⟨lines, -, columns⟩ := characters
  rw [line_ofOffset, line_ofOffset, column_ofOffset, column_ofOffset]
  exact ⟨congrArg Nat.cast (toDigits_inj lines), congrArg Nat.cast (toDigits_inj columns)⟩

end OfOffset

theorem faithful_ofOffset (text : List Char) (file : String) :
    Faithful text fun offset => ofOffset text offset file where
  ascending _ _ := ofOffset_lt_ofOffset file
  recovered _ := offset?_ofOffset file
  apart first second firstInText secondInText shownAlike := by
    obtain ⟨lines, columns⟩ := ofOffset_of_render_eq file shownAlike
    have firstKnown := offset?_ofOffset file firstInText
    rw [lines, columns, offset?_ofOffset file secondInText, Option.some.injEq] at firstKnown
    exact (Int.ofNat_inj.mp firstKnown).symm

end Place

/-- The places of a text, and so those that a fixture shows, tell its offsets apart. -/
theorem places_faithful :
    (∀ (text : List Char) (file : String),
      Place.Faithful text fun offset => Place.ofOffset text offset file) ∧
    ∀ fixture : Fixture, Place.Faithful fixture.text fixture.place :=
  ⟨Place.faithful_ofOffset, fun fixture => Place.faithful_ofOffset fixture.text fixture.file⟩

/-- The end of a text that ends with a line feed is the start of an empty line. -/
example : Place.offset? "a\n\n".toList 3 1 = some 3 := by decide

end Gloss
