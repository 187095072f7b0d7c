import Gloss.Grammar.Peg

/-!
# What a match has read

A match reads a stretch of the text, from the offset of one cursor to that of
the next.  `Reads` says which values a parsing expression can have for which
stretches.  It goes by the expression alone and forgets the order in which
alternatives are tried, so every match is a reading, but not the other way
round.
-/

namespace Gloss

/-- The cursor stands in the text, with the rest of the text after it. -/
structure Cursor.In (text : List Char) (cursor : Cursor) : Prop where
  rest : cursor.rest = text.drop cursor.offset
  inText : cursor.offset ≤ text.length

theorem Cursor.in_ofText (text : List Char) : (Cursor.ofText text).In text :=
  ⟨rfl, Nat.zero_le _⟩

theorem Cursor.In.advance {text : List Char} {cursor : Cursor} (stands : cursor.In text)
    {count : Nat} (fits : count ≤ cursor.rest.length) : (cursor.advance count).In text := by
  have restLength : cursor.rest.length = text.length - cursor.offset := by
    rw [stands.rest, List.length_drop]
  have inText := stands.inText
  constructor
  · simp [Cursor.advance, stands.rest, List.drop_drop]
  · simp only [Cursor.advance]
    omega

namespace Peg

variable {τ : Type} {ρ : Type → Type} {α β : Type}

/-- Readings one after the other, each of which moves on. -/
inductive Repeats (item : Nat → α → Nat → Prop) : Nat → List α → Nat → Prop where
  | nil (start : Nat) : Repeats item start [] start
  | cons {start middle stop : Nat} {value : α} {values : List α} :
      item start value middle → start < middle → Repeats item middle values stop →
      Repeats item start (value :: values) stop

/-- What a rule reads from one offset to another. -/
abbrev RuleReading (ρ : Type → Type) := ⦃α : Type⦄ → ρ α → Nat → α → Nat → Prop

/-- What a parsing expression reads from one offset of a text to another. -/
def Reads (scan : τ → List Char → Option Nat) (text : List Char) (rule : RuleReading ρ) :
    {α : Type} → Peg τ ρ α → Nat → α → Nat → Prop
  | _, .token sought, start, value, stop =>
      ∃ count, scan sought (text.drop start) = some count ∧
        value = (text.drop start).take count ∧ stop = start + count
  | _, .rule name, start, value, stop => rule name start value stop
  | _, .both first second, start, value, stop =>
      ∃ middle, Reads scan text rule first start value.1 middle ∧
        Reads scan text rule second middle value.2 stop
  | _, .either first second, start, value, stop =>
      Reads scan text rule first start value stop ∨
        Reads scan text rule second start value stop
  | _, .optional inner, start, value, stop =>
      (value = none ∧ stop = start) ∨
        ∃ found, value = some found ∧ Reads scan text rule inner start found stop
  | _, .many inner, start, values, stop =>
      Repeats (Reads scan text rule inner) start values stop
  | _, .map change inner, start, value, stop =>
      ∃ found, Reads scan text rule inner start found stop ∧ change found = value
  | _, .spanned inner, start, value, stop =>
      value.1 = ⟨start, stop⟩ ∧ Reads scan text rule inner start value.2 stop

section Matching

variable {scan : τ → List Char → Option Nat} {text : List Char} {rule : RuleReading ρ}

theorem repeats_of_repeated {step : Cursor → Outcome α} {item : Nat → α → Nat → Prop}
    (sound : ∀ cursor value next, cursor.In text → step cursor = .matched value next →
      item cursor.offset value next.offset ∧ next.In text)
    {limit : Nat} {cursor next : Cursor} {values : List α} (stands : cursor.In text)
    (run : repeated step limit cursor = .matched values next) :
    Repeats item cursor.offset values next.offset ∧ next.In text := by
  induction limit generalizing cursor values with
  | zero =>
      simp only [repeated, Outcome.matched.injEq] at run
      obtain ⟨rfl, rfl⟩ := run
      exact ⟨.nil _, stands⟩
  | succ limit ih =>
      rw [repeated] at run
      cases stepped : step cursor with
      | exhausted => simp [stepped] at run
      | mismatch =>
          simp only [stepped, Outcome.matched.injEq] at run
          obtain ⟨rfl, rfl⟩ := run
          exact ⟨.nil _, stands⟩
      | matched value middle =>
          by_cases stuck : middle.offset ≤ cursor.offset
          · simp only [stepped, stuck, if_true, Outcome.matched.injEq] at run
            obtain ⟨rfl, rfl⟩ := run
            exact ⟨.nil _, stands⟩
          · simp only [stepped, stuck, if_false] at run
            obtain ⟨read, middleStands⟩ := sound _ _ _ stands stepped
            cases later : repeated step limit middle with
            | exhausted => simp [later, Outcome.andThen] at run
            | mismatch => simp [later, Outcome.andThen] at run
            | matched others last =>
                simp only [later, Outcome.andThen, Outcome.matched.injEq] at run
                obtain ⟨rfl, rfl⟩ := run
                obtain ⟨rest, lastStands⟩ := ih middleStands later
                exact ⟨.cons read (by omega) rest, lastStands⟩

theorem andThen_eq_matched {outcome : Outcome α} {goOn : α → Cursor → Outcome β}
    {value : β} {last : Cursor} (run : outcome.andThen goOn = .matched value last) :
    ∃ found next, outcome = .matched found next ∧ goOn found next = .matched value last := by
  cases outcome with
  | exhausted => simp [Outcome.andThen] at run
  | mismatch => simp [Outcome.andThen] at run
  | matched found next => exact ⟨found, next, rfl, run⟩

/-- Every match is a reading when the matches of the rules are. -/
theorem reads_of_run {call : {α : Type} → ρ α → Cursor → Outcome α}
    (fits : ∀ sought rest count, scan sought rest = some count → count ≤ rest.length)
    (sound : ∀ {α : Type} (name : ρ α) cursor value next, cursor.In text →
      call name cursor = .matched value next →
      rule name cursor.offset value next.offset ∧ next.In text)
    {α : Type} (phrase : Peg τ ρ α) {cursor next : Cursor} {value : α}
    (stands : cursor.In text) (run : phrase.run scan call cursor = .matched value next) :
    phrase.Reads scan text rule cursor.offset value next.offset ∧ next.In text := by
  induction phrase generalizing cursor next with
  | token sought =>
      rw [Peg.run] at run
      cases scanned : scan sought cursor.rest with
      | none => simp [scanned] at run
      | some count =>
          simp only [scanned, Outcome.matched.injEq] at run
          obtain ⟨rfl, rfl⟩ := run
          refine ⟨⟨count, ?_, ?_, rfl⟩, stands.advance (fits _ _ _ scanned)⟩
          · rw [← stands.rest, scanned]
          · rw [← stands.rest]
  | rule name => exact sound name _ _ _ stands run
  | both first second firstIh secondIh =>
      obtain ⟨firstValue, middle, firstRun, run⟩ := andThen_eq_matched run
      obtain ⟨secondValue, last, secondRun, run⟩ := andThen_eq_matched run
      simp only [Outcome.matched.injEq] at run
      obtain ⟨rfl, rfl⟩ := run
      obtain ⟨firstRead, middleStands⟩ := firstIh stands firstRun
      obtain ⟨secondRead, lastStands⟩ := secondIh middleStands secondRun
      exact ⟨⟨middle.offset, firstRead, secondRead⟩, lastStands⟩
  | either first second firstIh secondIh =>
      rw [Peg.run] at run
      cases firstRun : first.run scan call cursor with
      | exhausted => simp [firstRun] at run
      | mismatch =>
          simp only [firstRun] at run
          obtain ⟨read, lastStands⟩ := secondIh stands run
          exact ⟨.inr read, lastStands⟩
      | matched found middle =>
          simp only [firstRun, Outcome.matched.injEq] at run
          obtain ⟨rfl, rfl⟩ := run
          obtain ⟨read, lastStands⟩ := firstIh stands firstRun
          exact ⟨.inl read, lastStands⟩
  | optional inner ih =>
      rw [Peg.run] at run
      cases innerRun : inner.run scan call cursor with
      | exhausted => simp [innerRun] at run
      | mismatch =>
          simp only [innerRun, Outcome.matched.injEq] at run
          obtain ⟨rfl, rfl⟩ := run
          exact ⟨.inl ⟨rfl, rfl⟩, stands⟩
      | matched found last =>
          simp only [innerRun, Outcome.matched.injEq] at run
          obtain ⟨rfl, rfl⟩ := run
          obtain ⟨read, lastStands⟩ := ih stands innerRun
          exact ⟨.inr ⟨found, rfl, read⟩, lastStands⟩
  | many inner ih =>
      exact repeats_of_repeated (fun _ _ _ itemStands itemRun => ih itemStands itemRun)
        stands run
  | map change inner ih =>
      obtain ⟨found, last, innerRun, run⟩ := andThen_eq_matched run
      simp only [Outcome.matched.injEq] at run
      obtain ⟨rfl, rfl⟩ := run
      obtain ⟨read, lastStands⟩ := ih stands innerRun
      exact ⟨⟨found, read, rfl⟩, lastStands⟩
  | spanned inner ih =>
      obtain ⟨found, last, innerRun, run⟩ := andThen_eq_matched run
      simp only [Outcome.matched.injEq] at run
      obtain ⟨rfl, rfl⟩ := run
      obtain ⟨read, lastStands⟩ := ih stands innerRun
      exact ⟨⟨rfl, read⟩, lastStands⟩

/-- Every match of a rule is a reading of that rule, for any notion of reading
that holds of a rule whenever it holds of the rules inside.  The induction is
on the depth of the match. -/
theorem reads_of_runRule {grammar : {α : Type} → ρ α → Peg τ ρ α}
    (fits : ∀ sought rest count, scan sought rest = some count → count ≤ rest.length)
    (closed : ∀ {α : Type} (name : ρ α) start value stop,
      (grammar name).Reads scan text rule start value stop → rule name start value stop)
    {depth : Nat} {α : Type} {name : ρ α} {cursor next : Cursor} {value : α}
    (stands : cursor.In text)
    (run : runRule scan grammar depth name cursor = .matched value next) :
    rule name cursor.offset value next.offset ∧ next.In text := by
  induction depth generalizing α cursor next with
  | zero => simp [runRule] at run
  | succ depth ih =>
      rw [runRule] at run
      have reads : (grammar name).Reads scan text rule cursor.offset value next.offset ∧
          next.In text :=
        reads_of_run fits (fun _ _ _ _ innerStands innerRun => ih innerStands innerRun)
          (grammar name) stands run
      exact ⟨closed _ _ _ _ reads.1, reads.2⟩

end Matching

end Peg

end Gloss
