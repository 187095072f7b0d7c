import Gloss.Text.Basic

/-!
# Markers in a text

A declaration marker stands between tildes, a reference marker between
backticks; neither is empty.  A reference marker whose text begins with a
colon is a type assertion.  Markers are found one at a time: the leftmost one
is cut out of the text, and the search starts again on what remains.
-/

namespace Gloss

inductive MarkerKind where
  | declaration
  | reference
  | type
  deriving DecidableEq, Repr

inductive Delimiter where
  | tilde
  | backtick
  deriving DecidableEq, Repr

structure Cut where
  before : List Char
  delimiter : Delimiter
  payload : List Char
  after : List Char
  deriving DecidableEq, Repr

/-- A marker as it was found.  `start` is where it began in the text it was
cut out of, and `offset` is the position its assertion is about. -/
structure Marker where
  kind : MarkerKind
  payload : String
  offset : Int
  start : Nat
  raw : String
  deriving DecidableEq, Repr

namespace MarkerKind

def label : MarkerKind → String
  | .declaration => "declaration"
  | .reference => "reference"
  | .type => "type"

end MarkerKind

namespace Delimiter

def character : Delimiter → Char
  | .tilde => '~'
  | .backtick => '\x60'

def ofCharacter? (character : Char) : Option Delimiter :=
  if character = '~' then some .tilde
  else if character = '\x60' then some .backtick
  else none

end Delimiter

namespace Cut

/-- The payload and what follows the closing delimiter, if the text goes on
with a payload that is not empty and its closing delimiter. -/
def closing? (delimiter : Char) (text : List Char) : Option (List Char × List Char) :=
  match text.takeWhile (· != delimiter), text.dropWhile (· != delimiter) with
  | character :: payload, _ :: after => some (character :: payload, after)
  | _, _ => none

/-- The cut at a marker that begins with the given character, the text going
on as given. -/
def here? (character : Char) (rest : List Char) : Option Cut :=
  match Delimiter.ofCharacter? character with
  | none => none
  | some delimiter =>
      match closing? character rest with
      | none => none
      | some (payload, after) => some { before := [], delimiter, payload, after }

def first? : List Char → Option Cut
  | [] => none
  | character :: rest =>
      match here? character rest with
      | some cut => some cut
      | none => (first? rest).map fun cut => { cut with before := character :: cut.before }

def raw (cut : Cut) : List Char :=
  cut.delimiter.character :: cut.payload ++ [cut.delimiter.character]

def whole (cut : Cut) : List Char :=
  cut.before ++ cut.raw ++ cut.after

def remainder (cut : Cut) : List Char :=
  cut.before ++ cut.after

def start (cut : Cut) : Nat := cut.before.length

def marker (cut : Cut) : Marker :=
  let raw := String.ofList cut.raw
  match cut.delimiter, cut.payload with
  | .tilde, payload =>
      { kind := .declaration, payload := String.ofList payload
        offset := cut.start, start := cut.start, raw }
  | .backtick, ':' :: name =>
      { kind := .type, payload := String.ofList name
        offset := (cut.start : Int) - 1, start := cut.start, raw }
  | .backtick, payload =>
      { kind := .reference, payload := String.ofList payload
        offset := cut.start, start := cut.start, raw }

theorem closing?_eq_some {delimiter : Char} {text payload after : List Char}
    (found : closing? delimiter text = some (payload, after)) :
    payload ≠ [] ∧ text = payload ++ delimiter :: after := by
  have joined := List.takeWhile_append_dropWhile (p := (· != delimiter)) (l := text)
  have head := List.head?_dropWhile_not (· != delimiter) text
  unfold closing? at found
  split at found
  · rename_i first inside closing rest insideEq restEq
    simp only [Option.some.injEq, Prod.mk.injEq] at found
    obtain ⟨rfl, rfl⟩ := found
    have same : closing = delimiter := by simpa [restEq] using head
    exact ⟨List.cons_ne_nil _ _, by rw [← joined, insideEq, restEq, same]⟩
  · simp at found

theorem character_of_ofCharacter? {character : Char} {delimiter : Delimiter}
    (found : Delimiter.ofCharacter? character = some delimiter) :
    delimiter.character = character := by
  unfold Delimiter.ofCharacter? at found
  split at found
  · rename_i isTilde
    simp only [Option.some.injEq] at found
    simp [← found, Delimiter.character, isTilde]
  · split at found
    · rename_i isBacktick
      simp only [Option.some.injEq] at found
      simp [← found, Delimiter.character, isBacktick]
    · simp at found

theorem here?_eq_some {character : Char} {rest : List Char} {cut : Cut}
    (found : here? character rest = some cut) :
    cut.before = [] ∧ cut.whole = character :: rest := by
  unfold here? at found
  split at found
  · simp at found
  · rename_i delimiter opened
    split at found
    · simp at found
    · rename_i payload after closed
      simp only [Option.some.injEq] at found
      subst found
      simp [whole, raw, character_of_ofCharacter? opened, (closing?_eq_some closed).2]

theorem whole_of_first? {text : List Char} {cut : Cut} (found : first? text = some cut) :
    cut.whole = text := by
  induction text generalizing cut with
  | nil => simp [first?] at found
  | cons character rest ih =>
      unfold first? at found
      split at found
      · rename_i start startFound
        simp only [Option.some.injEq] at found
        subst found
        exact (here?_eq_some startFound).2
      · obtain ⟨later, laterFound, rfl⟩ := Option.map_eq_some_iff.1 found
        have whole := ih laterFound
        simp only [Cut.whole, raw, List.cons_append, List.cons.injEq, true_and] at whole ⊢
        exact whole

theorem length_remainder_lt {text : List Char} {cut : Cut}
    (found : first? text = some cut) : cut.remainder.length < text.length := by
  rw [← whole_of_first? found]
  simp [whole, remainder, raw]
  omega

end Cut

/-- All cuts, one after the other, and the text that is left without markers. -/
def cutMarkers (text : List Char) : List Cut × List Char :=
  match _found : Cut.first? text with
  | none => ([], text)
  | some cut =>
      let (later, clean) := cutMarkers cut.remainder
      (cut :: later, clean)
termination_by text.length
decreasing_by exact Cut.length_remainder_lt (by assumption)

end Gloss
