import Gloss.Proofs.Grammar.Readings

/-!
# What matches and what is refused

Unless it is exhausted, a matcher has the same outcome at every greater depth.
So it makes sense to say that a rule matches, or that a phrase is refused,
without a depth: the two exclude each other, and a repetition goes on until
its item is refused.
-/

namespace Gloss

theorem Cursor.In.eq {text : List Char} {cursor : Cursor} (stands : cursor.In text) :
    ⟨cursor.offset, text.drop cursor.offset⟩ = cursor :=
  congrArg (Cursor.mk cursor.offset) stands.rest.symm

/-! ### The match of a phrase from the matches of its parts -/

namespace Outcome

variable {α : Type}

/-- The outcome of a second attempt counts where the first one is a mismatch. -/
def orElse (outcome second : Outcome α) : Outcome α :=
  match outcome with
  | .mismatch => second
  | outcome => outcome

theorem matched_ne_exhausted {value : α} {next : Cursor} :
    Outcome.matched value next ≠ .exhausted := nofun

theorem mismatch_ne_exhausted : (Outcome.mismatch : Outcome α) ≠ .exhausted := nofun

end Outcome

namespace Peg

open Outcome (matched_ne_exhausted mismatch_ne_exhausted)

variable {τ : Type} {ρ : Type → Type} {α β : Type} {scan : τ → List Char → Option Nat}

section Runs

variable {call : {α : Type} → ρ α → Cursor → Outcome α} {cursor middle next : Cursor}
  {first : Peg τ ρ α} {second : Peg τ ρ β} {value : α} {other : β}

theorem run_rule {name : ρ α} (run : call name cursor = .matched value next) :
    (Peg.rule name).run scan call cursor = .matched value next := run

/-- A rule is matched by its phrase, one deeper. -/
theorem runRule_of_run {grammar : {α : Type} → ρ α → Peg τ ρ α} {depth : Nat} {name : ρ α}
    (run : (grammar name).run scan (runRule scan grammar depth) cursor = .matched value next) :
    runRule scan grammar (depth + 1) name cursor = .matched value next := run

theorem run_map {change : α → β} (run : first.run scan call cursor = .matched value next) :
    (Peg.map change first).run scan call cursor = .matched (change value) next := by
  change (first.run scan call cursor).andThen _ = _
  rw [run]
  rfl

theorem run_spanned (run : first.run scan call cursor = .matched value next) :
    first.spanned.run scan call cursor =
      .matched (⟨cursor.offset, next.offset⟩, value) next := by
  change (first.run scan call cursor).andThen _ = _
  rw [run]
  rfl

theorem run_both (firstRun : first.run scan call cursor = .matched value middle)
    (secondRun : second.run scan call middle = .matched other next) :
    (first.both second).run scan call cursor = .matched (value, other) next := by
  change (first.run scan call cursor).andThen _ = _
  rw [firstRun]
  change (second.run scan call middle).andThen _ = _
  rw [secondRun]
  rfl

theorem run_before (firstRun : first.run scan call cursor = .matched value middle)
    (secondRun : second.run scan call middle = .matched other next) :
    (first *> second).run scan call cursor = .matched other next :=
  run_map (run_both firstRun secondRun)

theorem run_followedBy (firstRun : first.run scan call cursor = .matched value middle)
    (secondRun : second.run scan call middle = .matched other next) :
    (first <* second).run scan call cursor = .matched value next :=
  run_map (run_both firstRun secondRun)

theorem run_either {second : Peg τ ρ α} :
    (first <|> second).run scan call cursor =
      (first.run scan call cursor).orElse (second.run scan call cursor) := rfl

theorem run_either_first {second : Peg τ ρ α}
    (run : first.run scan call cursor = .matched value next) :
    (first <|> second).run scan call cursor = .matched value next := by
  rw [run_either, run]
  rfl

theorem run_either_second {second : Peg τ ρ α} (refused : first.run scan call cursor = .mismatch) :
    (first <|> second).run scan call cursor = second.run scan call cursor := by
  rw [run_either, refused]
  rfl

theorem run_optional (run : first.run scan call cursor = .matched value next) :
    first.optional.run scan call cursor = .matched (some value) next := by
  rw [Peg.run, run]

theorem run_optional_none (refused : first.run scan call cursor = .mismatch) :
    first.optional.run scan call cursor = .matched none cursor := by
  rw [Peg.run, refused]

theorem run_many {values : List α}
    (run : repeated (first.run scan call) (cursor.rest.length + 1) cursor = .matched values next) :
    first.many.run scan call cursor = .matched values next := run

theorem run_many_none (refused : first.run scan call cursor = .mismatch) :
    first.many.run scan call cursor = .matched [] cursor :=
  run_many (by rw [repeated, refused])

theorem run_many_cons {values : List α} (run : first.run scan call cursor = .matched value middle)
    (moves : cursor.offset < middle.offset)
    (rest : repeated (first.run scan call) cursor.rest.length middle = .matched values next) :
    first.many.run scan call cursor = .matched (value :: values) next :=
  run_many (by simp only [repeated, run, Nat.not_le.mpr moves, if_false, rest, Outcome.andThen])

theorem run_many_once (run : first.run scan call cursor = .matched value next)
    (moves : cursor.offset < next.offset) (more : cursor.rest ≠ [])
    (refused : first.run scan call next = .mismatch) :
    first.many.run scan call cursor = .matched [value] next := by
  obtain ⟨count, isCount⟩ := Nat.exists_eq_succ_of_ne_zero (mt List.length_eq_zero_iff.mp more)
  refine run_many ?_
  simp only [isCount, repeated, run, Nat.not_le.mpr moves, if_false, refused, Outcome.andThen]

end Runs

/-! ### Greater depths -/

section Depth

theorem andThen_ne_exhausted {outcome : Outcome α} {goOn : α → Cursor → Outcome β}
    (finished : outcome.andThen goOn ≠ .exhausted) : outcome ≠ .exhausted := by
  rintro rfl
  exact finished rfl

/-- Steps that differ only where the first ones are exhausted make up the same
repetition, unless that is exhausted. -/
theorem repeated_eq_of_settled {step deeper : Cursor → Outcome α}
    (settled : ∀ cursor, step cursor ≠ .exhausted → deeper cursor = step cursor)
    {limit : Nat} {cursor : Cursor} (finished : repeated step limit cursor ≠ .exhausted) :
    repeated deeper limit cursor = repeated step limit cursor := by
  induction limit generalizing cursor with
  | zero => rfl
  | succ limit ih =>
      rw [repeated] at finished
      rw [repeated, repeated, settled cursor fun exhausted => finished (by rw [exhausted])]
      cases stepped : step cursor with
      | exhausted | mismatch => rfl
      | matched value next =>
          simp only [stepped] at finished ⊢
          split
          · rfl
          · next moves =>
              rw [if_neg moves] at finished
              rw [ih (andThen_ne_exhausted finished)]

/-- Where the matches of the rules are settled, so are those of phrases. -/
theorem run_eq_of_settled {call deeper : {α : Type} → ρ α → Cursor → Outcome α}
    (settled : ∀ {α : Type} (name : ρ α) cursor, call name cursor ≠ .exhausted →
      deeper name cursor = call name cursor)
    {α : Type} (phrase : Peg τ ρ α) {cursor : Cursor}
    (finished : phrase.run scan call cursor ≠ .exhausted) :
    phrase.run scan deeper cursor = phrase.run scan call cursor := by
  induction phrase generalizing cursor with
  | token sought => rfl
  | rule name => exact settled name cursor finished
  | both first second firstIh secondIh =>
      rw [run] at finished
      rw [run, run, firstIh (andThen_ne_exhausted finished)]
      cases firstRun : first.run scan call cursor with
      | exhausted | mismatch => rfl
      | matched value middle =>
          simp only [firstRun, Outcome.andThen] at finished ⊢
          rw [secondIh (andThen_ne_exhausted finished)]
  | either first second firstIh secondIh =>
      rw [run] at finished
      rw [run, run, firstIh fun exhausted => finished (by rw [exhausted])]
      cases firstRun : first.run scan call cursor with
      | exhausted | matched => rfl
      | mismatch =>
          simp only [firstRun] at finished ⊢
          exact secondIh finished
  | optional inner ih =>
      rw [run] at finished
      rw [run, run, ih fun exhausted => finished (by rw [exhausted])]
  | many inner ih => exact repeated_eq_of_settled (fun _ inner => ih inner) finished
  | map change inner ih =>
      rw [run] at finished
      rw [run, run, ih (andThen_ne_exhausted finished)]
  | spanned inner ih =>
      rw [run] at finished
      rw [run, run, ih (andThen_ne_exhausted finished)]

variable {grammar : {α : Type} → ρ α → Peg τ ρ α} {depth deeper : Nat}

/-- A match that is not exhausted has the same outcome at every greater depth. -/
theorem runRule_eq_of_le (le : depth ≤ deeper) {name : ρ α} {cursor : Cursor}
    (finished : runRule scan grammar depth name cursor ≠ .exhausted) :
    runRule scan grammar deeper name cursor = runRule scan grammar depth name cursor := by
  induction depth generalizing deeper α cursor with
  | zero => exact absurd rfl finished
  | succ depth ih =>
      obtain ⟨deeper, rfl⟩ := Nat.exists_eq_add_of_le le
      rw [Nat.add_right_comm] at *
      rw [runRule, runRule]
      exact run_eq_of_settled (fun _ _ inner => ih (by omega) inner) _ finished

theorem run_eq_of_le (le : depth ≤ deeper) {phrase : Peg τ ρ α} {cursor : Cursor}
    (finished : phrase.run scan (runRule scan grammar depth) cursor ≠ .exhausted) :
    phrase.run scan (runRule scan grammar deeper) cursor =
      phrase.run scan (runRule scan grammar depth) cursor :=
  run_eq_of_settled (fun _ _ inner => runRule_eq_of_le le inner) phrase finished

end Depth

/-! ### Matches without a depth -/

theorem Repeats.mono {item larger : Nat → α → Nat → Prop} {start stop : Nat} {values : List α}
    (repeats : Repeats item start values stop)
    (le : ∀ start value stop, item start value stop → larger start value stop) :
    Repeats larger start values stop := by
  induction repeats with
  | nil => exact .nil _
  | cons read moves rest ih => exact .cons (le _ _ _ read) moves ih

/-- Where the rules read more, so do the phrases. -/
theorem reads_mono {text : List Char} {rule larger : RuleReading ρ}
    (le : ∀ {α : Type} (name : ρ α) start value stop,
      rule name start value stop → larger name start value stop)
    {phrase : Peg τ ρ α} {start stop : Nat} {value : α}
    (reads : phrase.Reads scan text rule start value stop) :
    phrase.Reads scan text larger start value stop := by
  induction phrase generalizing start stop with
  | token sought => exact reads
  | rule name => exact le _ _ _ _ reads
  | both first second firstIh secondIh =>
      obtain ⟨middle, firstReads, secondReads⟩ := reads
      exact ⟨middle, firstIh firstReads, secondIh secondReads⟩
  | either first second firstIh secondIh => exact reads.imp firstIh secondIh
  | optional inner ih =>
      rcases reads with missing | ⟨found, present, innerReads⟩
      · exact .inl missing
      · exact .inr ⟨found, present, ih innerReads⟩
  | many inner ih => exact Repeats.mono reads fun _ _ _ => ih
  | map change inner ih =>
      obtain ⟨found, innerReads, same⟩ := reads
      exact ⟨found, ih innerReads, same⟩
  | spanned inner ih => exact ⟨reads.1, ih reads.2⟩

section Text

variable (scan) (grammar : {α : Type} → ρ α → Peg τ ρ α) (text : List Char)

/-- A phrase matches between two offsets of a text. -/
def MatchesPhrase (phrase : Peg τ ρ α) (start : Nat) (value : α) (stop : Nat) : Prop :=
  ∃ depth, phrase.run scan (runRule scan grammar depth) ⟨start, text.drop start⟩ =
    .matched value ⟨stop, text.drop stop⟩

/-- A phrase does not match at an offset of a text. -/
def Refuses (phrase : Peg τ ρ α) (start : Nat) : Prop :=
  ∃ depth, phrase.run scan (runRule scan grammar depth) ⟨start, text.drop start⟩ = .mismatch

/-- The matches of rules, as a way to read them. -/
def Matches : RuleReading ρ := fun _ name => MatchesPhrase scan grammar text (.rule name)

variable {scan grammar text} {phrase : Peg τ ρ α} {start stop : Nat} {value : α}

theorem not_refuses_of_matchesPhrase
    (matching : MatchesPhrase scan grammar text phrase start value stop) :
    ¬Refuses scan grammar text phrase start := by
  rintro ⟨refusing, refused⟩
  obtain ⟨depth, run⟩ := matching
  have deep := run_eq_of_le (Nat.le_max_left depth refusing) (run ▸ matched_ne_exhausted)
  have refusedDeep := run_eq_of_le (Nat.le_max_right depth refusing)
    (refused ▸ mismatch_ne_exhausted)
  rw [deep, run, refused] at refusedDeep
  cases refusedDeep

/-- Whether a phrase leaves no choice: it matches in one way or not at all. -/
def isPlain : {α : Type} → Peg τ ρ α → Bool
  | _, .token _ | _, .rule _ => true
  | _, .both first second => first.isPlain && second.isPlain
  | _, .map _ inner | _, .spanned inner => inner.isPlain
  | _, _ => false

/-- A phrase without choices matches whatever it reads by matches of rules. -/
theorem matchesPhrase_of_reads (plain : phrase.isPlain = true)
    (reads : phrase.Reads scan text (Matches scan grammar text) start value stop) :
    MatchesPhrase scan grammar text phrase start value stop := by
  induction phrase generalizing start stop with
  | token sought =>
      obtain ⟨count, scanned, rfl, rfl⟩ := reads
      exact ⟨0, by simp [run, scanned, Cursor.advance]⟩
  | rule name => exact reads
  | both first second firstIh secondIh =>
      obtain ⟨firstPlain, secondPlain⟩ := Bool.and_eq_true_iff.mp plain
      obtain ⟨middle, firstReads, secondReads⟩ := reads
      obtain ⟨firstDepth, firstRun⟩ := firstIh firstPlain firstReads
      obtain ⟨secondDepth, secondRun⟩ := secondIh secondPlain secondReads
      refine ⟨max firstDepth secondDepth, ?_⟩
      have firstDeep := run_eq_of_le (Nat.le_max_left firstDepth secondDepth)
        (firstRun ▸ matched_ne_exhausted)
      have secondDeep := run_eq_of_le (Nat.le_max_right firstDepth secondDepth)
        (secondRun ▸ matched_ne_exhausted)
      exact run_both (firstDeep.trans firstRun) (secondDeep.trans secondRun)
  | either | optional | many => cases plain
  | map change inner ih =>
      obtain ⟨found, innerReads, rfl⟩ := reads
      obtain ⟨depth, innerRun⟩ := ih plain innerReads
      exact ⟨depth, run_map innerRun⟩
  | spanned inner ih =>
      obtain ⟨⟨span, found⟩, rfl⟩ : ∃ pair, value = pair := ⟨_, rfl⟩
      obtain ⟨rfl, innerReads⟩ := reads
      obtain ⟨depth, innerRun⟩ := ih plain innerReads
      exact ⟨depth, run_spanned innerRun⟩

end Text

section Sound

variable {grammar : {α : Type} → ρ α → Peg τ ρ α} {text : List Char}
  (fits : ∀ sought rest count, scan sought rest = some count → count ≤ rest.length)

include fits

/-- A match of a rule is a reading of it, for any notion of reading that holds
of a rule that matches whenever it holds of the rules inside. -/
theorem matches_of_runRule {reading : RuleReading ρ}
    (closed : ∀ {α : Type} (name : ρ α) start value stop,
      Matches scan grammar text name start value stop →
      (grammar name).Reads scan text
        (fun _ inner start value stop =>
          Matches scan grammar text inner start value stop ∧ reading inner start value stop)
        start value stop →
      reading name start value stop)
    {depth : Nat} {α : Type} {name : ρ α} {cursor next : Cursor} {value : α}
    (stands : cursor.In text)
    (run : runRule scan grammar depth name cursor = .matched value next) :
    (Matches scan grammar text name cursor.offset value next.offset ∧
      reading name cursor.offset value next.offset) ∧ next.In text := by
  induction depth generalizing α cursor next with
  | zero => simp [runRule] at run
  | succ depth ih =>
      have phraseRun := run
      rw [runRule] at phraseRun
      let inside : RuleReading ρ := fun _ inner start value stop =>
        Matches scan grammar text inner start value stop ∧ reading inner start value stop
      have both : (grammar name).Reads scan text inside cursor.offset value next.offset ∧
          next.In text :=
        reads_of_run fits (fun _ _ _ _ innerStands innerRun => ih innerStands innerRun)
          (grammar name) stands phraseRun
      obtain ⟨reads, nextStands⟩ := both
      have matching : Matches scan grammar text name cursor.offset value next.offset :=
        ⟨depth + 1, by rw [stands.eq, nextStands.eq]; exact run⟩
      exact ⟨⟨matching, closed _ _ _ _ matching reads⟩, nextStands⟩

theorem in_of_run {depth : Nat} {phrase : Peg τ ρ α} {cursor next : Cursor} {value : α}
    (stands : cursor.In text)
    (run : phrase.run scan (runRule scan grammar depth) cursor = .matched value next) :
    next.In text := by
  let anything : RuleReading ρ := fun _ _ _ _ _ => True
  have both : phrase.Reads scan text anything cursor.offset value next.offset ∧ next.In text :=
    reads_of_run fits (fun _ _ _ _ innerStands innerRun =>
      reads_of_runRule fits (fun _ _ _ _ _ => trivial) innerStands innerRun) phrase stands run
  exact both.2

omit fits in
/-- A repetition of what moves on ends where its item does not match. -/
theorem mismatch_of_repeated {step : Cursor → Outcome α}
    (moves : ∀ cursor value next, cursor.In text → step cursor = .matched value next →
      cursor.offset < next.offset ∧ next.In text)
    {limit : Nat} {cursor next : Cursor} {values : List α} (stands : cursor.In text)
    (enough : text.length < cursor.offset + limit)
    (run : repeated step limit cursor = .matched values next) : step next = .mismatch := by
  induction limit generalizing cursor values with
  | zero =>
      have inText := stands.inText
      omega
  | succ limit ih =>
      rw [repeated] at run
      cases stepped : step cursor with
      | exhausted => simp [stepped] at run
      | mismatch =>
          simp only [stepped, Outcome.matched.injEq] at run
          rw [← run.2, stepped]
      | matched value middle =>
          obtain ⟨goesOn, middleStands⟩ := moves _ _ _ stands stepped
          simp only [stepped, Nat.not_le.mpr goesOn, if_false] at run
          obtain ⟨others, last, later, run⟩ := andThen_eq_matched run
          simp only [Outcome.matched.injEq] at run
          obtain ⟨-, rfl⟩ := run
          exact ih middleStands (by omega) later

/-- What ends with a repetition ends where the repeated phrase is refused. -/
theorem refuses_of_matches {name : ρ α} {first : Peg τ ρ β} {γ : Type} {item : Peg τ ρ γ}
    {change : β × List γ → α} (isRepetition : grammar name = .map change (.both first (.many item)))
    (moves : ∀ depth cursor value next, cursor.In text →
      item.run scan (runRule scan grammar depth) cursor = .matched value next →
      cursor.offset < next.offset)
    {start stop : Nat} {value : α} (inText : start ≤ text.length)
    (matching : Matches scan grammar text name start value stop) :
    Refuses scan grammar text item stop := by
  obtain ⟨depth, run⟩ := matching
  rw [Peg.run] at run
  cases depth with
  | zero => simp [runRule] at run
  | succ depth =>
      change (grammar name).run scan (runRule scan grammar depth) _ = _ at run
      rw [isRepetition] at run
      obtain ⟨pair, last, bothRun, run⟩ := andThen_eq_matched run
      obtain ⟨firstValue, middle, firstRun, bothRun⟩ := andThen_eq_matched bothRun
      obtain ⟨values, beyond, manyRun, bothRun⟩ := andThen_eq_matched bothRun
      simp only [Outcome.matched.injEq] at run bothRun
      obtain ⟨-, rfl⟩ := run
      obtain ⟨-, rfl⟩ := bothRun
      have middleStands : middle.In text := in_of_run fits ⟨rfl, inText⟩ firstRun
      refine ⟨depth, mismatch_of_repeated ?_ middleStands ?_ manyRun⟩
      · intro cursor value next stands itemRun
        exact ⟨moves depth cursor value next stands itemRun, in_of_run fits stands itemRun⟩
      · rw [middleStands.rest, List.length_drop]
        have := middleStands.inText
        omega

end Sound

end Peg

end Gloss
