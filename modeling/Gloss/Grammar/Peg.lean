import Gloss.Text.Span

/-!
# Parsing expressions

A parsing expression describes how the text at a cursor begins and what value
that beginning has.  Alternatives are ordered: the second is tried only where
the first does not match.  Rules refer to one another by name, so a matcher is
given a function that matches rules; a rule counts as exhausted when that
function has run out of depth.
-/

namespace Gloss

/-- An offset in a text and the characters from there on. -/
structure Cursor where
  offset : Nat
  rest : List Char
  deriving DecidableEq, Repr

inductive Outcome (α : Type) where
  /-- The rules nest more deeply than the matcher may go. -/
  | exhausted
  | mismatch
  /-- The text begins as described, with a value and the cursor after it. -/
  | matched (value : α) (next : Cursor)
  deriving Repr

/-- Parsing expressions over tokens `τ` and rules `ρ`, by the type of value. -/
inductive Peg (τ : Type) (ρ : Type → Type) : Type → Type 1 where
  /-- A token; its value is the text of the token. -/
  | token (token : τ) : Peg τ ρ (List Char)
  | rule {α : Type} (rule : ρ α) : Peg τ ρ α
  | both {α β : Type} (first : Peg τ ρ α) (second : Peg τ ρ β) :
      Peg τ ρ (α × β)
  | either {α : Type} (first second : Peg τ ρ α) : Peg τ ρ α
  | optional {α : Type} (inner : Peg τ ρ α) : Peg τ ρ (Option α)
  | many {α : Type} (inner : Peg τ ρ α) : Peg τ ρ (List α)
  | map {α β : Type} (change : α → β) (inner : Peg τ ρ α) : Peg τ ρ β
  | spanned {α : Type} (inner : Peg τ ρ α) : Peg τ ρ (Span × α)

namespace Cursor

def ofText (text : List Char) : Cursor := ⟨0, text⟩

def advance (cursor : Cursor) (count : Nat) : Cursor :=
  ⟨cursor.offset + count, cursor.rest.drop count⟩

end Cursor

namespace Outcome

variable {α β : Type}

def andThen (outcome : Outcome α) (next : α → Cursor → Outcome β) : Outcome β :=
  match outcome with
  | .exhausted => .exhausted
  | .mismatch => .mismatch
  | .matched value cursor => next value cursor

def value? : Outcome α → Option α
  | .matched value _ => some value
  | _ => none

def next? : Outcome α → Option Cursor
  | .matched _ next => some next
  | _ => none

end Outcome

namespace Peg

variable {τ : Type} {ρ : Type → Type} {α β : Type}

def before (first : Peg τ ρ α) (second : Peg τ ρ β) : Peg τ ρ β :=
  .map Prod.snd (.both first second)

def followedBy (first : Peg τ ρ α) (second : Peg τ ρ β) :
    Peg τ ρ α :=
  .map Prod.fst (.both first second)

def separated (separator : Peg τ ρ β) (item : Peg τ ρ α) :
    Peg τ ρ (List α) :=
  .map (fun items => items.1 :: items.2) (.both item (.many (separator.before item)))

def orEmpty (inner : Peg τ ρ (List α)) : Peg τ ρ (List α) :=
  .map (fun items => items.getD []) (.optional inner)

instance : SeqRight (Peg τ ρ) where
  seqRight first second := first.before (second ())

instance : SeqLeft (Peg τ ρ) where
  seqLeft first second := first.followedBy (second ())

instance : Functor (Peg τ ρ) where
  map := .map

instance : OrElse (Peg τ ρ α) where
  orElse first second := .either first (second ())

/-- Matches as often as it moves on, at most `limit` times. -/
def repeated (step : Cursor → Outcome α) : Nat → Cursor → Outcome (List α)
  | 0, cursor => .matched [] cursor
  | limit + 1, cursor =>
      match step cursor with
      | .exhausted => .exhausted
      | .mismatch => .matched [] cursor
      | .matched value next =>
          if next.offset ≤ cursor.offset then .matched [] cursor
          else (repeated step limit next).andThen fun values last =>
            .matched (value :: values) last

/-- Matches a parsing expression at a cursor.  `scan` tells how many characters
a token takes there, and `call` matches a rule. -/
def run (scan : τ → List Char → Option Nat)
    (call : {α : Type} → ρ α → Cursor → Outcome α) :
    {α : Type} → Peg τ ρ α → Cursor → Outcome α
  | _, .token sought, cursor =>
      match scan sought cursor.rest with
      | none => .mismatch
      | some count => .matched (cursor.rest.take count) (cursor.advance count)
  | _, .rule name, cursor => call name cursor
  | _, .both first second, cursor =>
      (run scan call first cursor).andThen fun firstValue middle =>
        (run scan call second middle).andThen fun secondValue last =>
          .matched (firstValue, secondValue) last
  | _, .either first second, cursor =>
      match run scan call first cursor with
      | .mismatch => run scan call second cursor
      | outcome => outcome
  | _, .optional inner, cursor =>
      match run scan call inner cursor with
      | .exhausted => .exhausted
      | .mismatch => .matched none cursor
      | .matched value next => .matched (some value) next
  | _, .many inner, cursor =>
      repeated (run scan call inner) (cursor.rest.length + 1) cursor
  | _, .map change inner, cursor =>
      (run scan call inner cursor).andThen fun value next => .matched (change value) next
  | _, .spanned inner, cursor =>
      (run scan call inner cursor).andThen fun value next =>
        .matched (⟨cursor.offset, next.offset⟩, value) next

def runRule (scan : τ → List Char → Option Nat)
    (grammar : {α : Type} → ρ α → Peg τ ρ α) :
    Nat → {α : Type} → ρ α → Cursor → Outcome α
  | 0, _, _, _ => .exhausted
  | depth + 1, _, name, cursor =>
      (grammar name).run scan (fun inner => runRule scan grammar depth inner) cursor

end Peg

end Gloss
