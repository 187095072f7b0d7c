import Gloss.Proofs.Grammar.Progress

/-!
# Derivations of matches

A match is built up from the matches of the parts of a phrase, and from the
refusals on which the choices in it rest.  The derivations below say how, without
a depth and without a limit for repetitions, and there is one for every match.
-/

namespace Gloss.Grammar

variable {text : List Char} {α β : Type} {cursor next middle : Cursor}

theorem matchPhrase_ne_exhausted (described : Phrase α) (cursor : Cursor) :
    matchPhrase described cursor ≠ .exhausted :=
  Peg.run_ne_exhausted fun callee called _ => matchRule_ne_exhausted callee called

theorem matchPhrase_rule (name : Rule α) (cursor : Cursor) :
    matchPhrase (.rule name) cursor = matchPhrase (phrase name) cursor :=
  matchRule_eq_matchPhrase name cursor

/-- The text at a cursor begins as a phrase describes. -/
def Fits (described : Phrase α) (cursor : Cursor) : Prop :=
  ∃ value next, matchPhrase described cursor = .matched value next

theorem matchPhrase_eq_mismatch_iff {described : Phrase α} :
    matchPhrase described cursor = .mismatch ↔ ¬Fits described cursor := by
  have finished := matchPhrase_ne_exhausted described cursor
  cases outcome : matchPhrase described cursor with
  | exhausted => exact absurd outcome finished
  | mismatch => simp [Fits, outcome]
  | matched value next => simp [Fits, outcome]

theorem fits_token {token : Token} :
    Fits (.token token) cursor ↔ ∃ count, token.scan cursor.rest = some count := by
  rw [Fits, matchPhrase, Peg.run]
  cases token.scan cursor.rest <;> simp

theorem matchPhrase_either_second {first : Phrase α} (refused : ¬Fits first cursor)
    (second : Phrase α) : matchPhrase (.either first second) cursor = matchPhrase second cursor :=
  Peg.run_either_second (matchPhrase_eq_mismatch_iff.mpr refused)

theorem matchPhrase_optional_none {inner : Phrase α} (refused : ¬Fits inner cursor) :
    matchPhrase (.optional inner) cursor = .matched none cursor :=
  Peg.run_optional_none (matchPhrase_eq_mismatch_iff.mpr refused)

theorem matchPhrase_many_none {inner : Phrase α} (refused : ¬Fits inner cursor) :
    matchPhrase (.many inner) cursor = .matched [] cursor :=
  Peg.run_many_none (matchPhrase_eq_mismatch_iff.mpr refused)

theorem matchPhrase_token {token : Token} {count : Nat}
    (scanned : token.scan cursor.rest = some count) :
    matchPhrase (.token token) cursor =
      .matched (cursor.rest.take count) (cursor.advance count) := by
  rw [matchPhrase, Peg.run, scanned]

theorem fits_rule {name : Rule α} : Fits (.rule name) cursor ↔ Fits (phrase name) cursor := by
  rw [Fits, Fits, matchPhrase_rule]

theorem matchPhrase_map_eq_matched_iff {change : α → β} {inner : Phrase α} {value : β} :
    matchPhrase (.map change inner) cursor = .matched value next ↔
      ∃ found, matchPhrase inner cursor = .matched found next ∧ change found = value := by
  constructor
  · intro run
    obtain ⟨found, last, innerRun, run⟩ := Peg.andThen_eq_matched run
    obtain ⟨rfl, rfl⟩ := Outcome.matched.inj run
    exact ⟨found, innerRun, rfl⟩
  · rintro ⟨found, innerRun, rfl⟩
    exact Peg.run_map innerRun

theorem matchPhrase_both_eq_matched_iff {first : Phrase α} {second : Phrase β} {value : α × β} :
    matchPhrase (.both first second) cursor = .matched value next ↔
      ∃ middle, matchPhrase first cursor = .matched value.1 middle ∧
        matchPhrase second middle = .matched value.2 next := by
  constructor
  · intro run
    obtain ⟨firstValue, middle, firstRun, run⟩ := Peg.andThen_eq_matched run
    obtain ⟨secondValue, last, secondRun, run⟩ := Peg.andThen_eq_matched run
    obtain ⟨rfl, rfl⟩ := Outcome.matched.inj run
    exact ⟨middle, firstRun, secondRun⟩
  · rintro ⟨middle, firstRun, secondRun⟩
    exact Peg.run_both firstRun secondRun

theorem matchPhrase_before_eq_matched_iff {first : Phrase α} {second : Phrase β} {value : β} :
    matchPhrase (first *> second) cursor = .matched value next ↔
      ∃ other middle, matchPhrase first cursor = .matched other middle ∧
        matchPhrase second middle = .matched value next := by
  constructor
  · intro run
    obtain ⟨⟨other, found⟩, pairRun, rfl⟩ := matchPhrase_map_eq_matched_iff.mp run
    obtain ⟨middle, firstRun, secondRun⟩ := matchPhrase_both_eq_matched_iff.mp pairRun
    exact ⟨other, middle, firstRun, secondRun⟩
  · rintro ⟨other, middle, firstRun, secondRun⟩
    exact Peg.run_before firstRun secondRun

theorem matchPhrase_followedBy_eq_matched_iff {first : Phrase α} {second : Phrase β} {value : α} :
    matchPhrase (first <* second) cursor = .matched value next ↔
      ∃ other middle, matchPhrase first cursor = .matched value middle ∧
        matchPhrase second middle = .matched other next := by
  constructor
  · intro run
    obtain ⟨⟨found, other⟩, pairRun, rfl⟩ := matchPhrase_map_eq_matched_iff.mp run
    obtain ⟨middle, firstRun, secondRun⟩ := matchPhrase_both_eq_matched_iff.mp pairRun
    exact ⟨other, middle, firstRun, secondRun⟩
  · rintro ⟨other, middle, firstRun, secondRun⟩
    exact Peg.run_followedBy firstRun secondRun

theorem fits_map {change : α → β} {inner : Phrase α} :
    Fits (.map change inner) cursor ↔ Fits inner cursor := by
  constructor
  · rintro ⟨value, next, run⟩
    obtain ⟨found, innerRun, -⟩ := matchPhrase_map_eq_matched_iff.mp run
    exact ⟨found, next, innerRun⟩
  · rintro ⟨found, next, innerRun⟩
    exact ⟨_, next, Peg.run_map innerRun⟩

theorem fits_spanned {inner : Phrase α} : Fits (.spanned inner) cursor ↔ Fits inner cursor := by
  constructor
  · rintro ⟨value, next, run⟩
    obtain ⟨found, last, innerRun, -⟩ := Peg.andThen_eq_matched run
    exact ⟨found, last, innerRun⟩
  · rintro ⟨found, next, innerRun⟩
    exact ⟨_, next, Peg.run_spanned innerRun⟩

theorem fits_both {first : Phrase α} {second : Phrase β} :
    Fits (.both first second) cursor ↔
      ∃ value middle, matchPhrase first cursor = .matched value middle ∧ Fits second middle := by
  constructor
  · rintro ⟨value, next, run⟩
    obtain ⟨middle, firstRun, secondRun⟩ := matchPhrase_both_eq_matched_iff.mp run
    exact ⟨value.1, middle, firstRun, value.2, next, secondRun⟩
  · rintro ⟨value, middle, firstRun, other, next, secondRun⟩
    exact ⟨(value, other), next, Peg.run_both firstRun secondRun⟩

theorem fits_first {first : Phrase α} {second : Phrase β}
    (fits : Fits (.both first second) cursor) : Fits first cursor := by
  obtain ⟨value, middle, run, -⟩ := fits_both.mp fits
  exact ⟨value, middle, run⟩

theorem fits_either {first second : Phrase α} :
    Fits (.either first second) cursor ↔ Fits first cursor ∨ Fits second cursor := by
  by_cases fits : Fits first cursor
  · obtain ⟨value, next, run⟩ := fits
    exact ⟨fun _ => .inl ⟨value, next, run⟩, fun _ => ⟨value, next, Peg.run_either_first run⟩⟩
  · rw [or_iff_right fits, Fits, Fits, matchPhrase_either_second fits]

theorem fits_optional (inner : Phrase α) (cursor : Cursor) : Fits (.optional inner) cursor := by
  by_cases fits : Fits inner cursor
  · obtain ⟨value, next, run⟩ := fits
    exact ⟨some value, next, Peg.run_optional run⟩
  · exact ⟨none, cursor, matchPhrase_optional_none fits⟩

theorem repeated_ne_mismatch (step : Cursor → Outcome α) (limit : Nat) (cursor : Cursor) :
    Peg.repeated step limit cursor ≠ .mismatch := by
  induction limit generalizing cursor with
  | zero => simp [Peg.repeated]
  | succ limit ih =>
      rw [Peg.repeated]
      cases step cursor with
      | exhausted | mismatch => simp
      | matched value next =>
          simp only
          split
          · simp
          · cases later : Peg.repeated step limit next with
            | mismatch => exact absurd later (ih next)
            | exhausted | matched => simp [Outcome.andThen]

theorem fits_many (inner : Phrase α) (cursor : Cursor) : Fits (.many inner) cursor := by
  cases Classical.em (Fits (.many inner) cursor) with
  | inl fits => exact fits
  | inr refused =>
      exact absurd (matchPhrase_eq_mismatch_iff.mpr refused) (repeated_ne_mismatch _ _ _)

/-- How a phrase comes to match from one cursor to another. -/
inductive Derives : {α : Type} → Phrase α → Cursor → α → Cursor → Prop where
  | token {token : Token} {cursor : Cursor} {count : Nat} :
      token.scan cursor.rest = some count →
      Derives (.token token) cursor (cursor.rest.take count) (cursor.advance count)
  | rule {α : Type} {name : Rule α} {cursor next : Cursor} {value : α} :
      Derives (phrase name) cursor value next → Derives (.rule name) cursor value next
  | both {α β : Type} {first : Phrase α} {second : Phrase β} {cursor middle next : Cursor}
      {value : α} {other : β} :
      Derives first cursor value middle → Derives second middle other next →
      Derives (.both first second) cursor (value, other) next
  | first {α : Type} {first second : Phrase α} {cursor next : Cursor} {value : α} :
      Derives first cursor value next → Derives (.either first second) cursor value next
  | second {α : Type} {first second : Phrase α} {cursor next : Cursor} {value : α} :
      ¬Fits first cursor → Derives second cursor value next →
      Derives (.either first second) cursor value next
  | none {α : Type} {inner : Phrase α} {cursor : Cursor} :
      ¬Fits inner cursor → Derives (.optional inner) cursor none cursor
  | some {α : Type} {inner : Phrase α} {cursor next : Cursor} {value : α} :
      Derives inner cursor value next → Derives (.optional inner) cursor (some value) next
  | nil {α : Type} {inner : Phrase α} {cursor : Cursor} :
      ¬Fits inner cursor → Derives (.many inner) cursor [] cursor
  | cons {α : Type} {inner : Phrase α} {cursor middle next : Cursor} {value : α}
      {values : List α} :
      Derives inner cursor value middle → cursor.offset < middle.offset →
      Derives (.many inner) middle values next →
      Derives (.many inner) cursor (value :: values) next
  | map {α β : Type} {change : α → β} {inner : Phrase α} {cursor next : Cursor} {value : α} :
      Derives inner cursor value next → Derives (.map change inner) cursor (change value) next
  | spanned {α : Type} {inner : Phrase α} {cursor next : Cursor} {value : α} :
      Derives inner cursor value next →
      Derives (.spanned inner) cursor (⟨cursor.offset, next.offset⟩, value) next

/-! ### Every match is derived -/

theorem derives_of_repeated {inner : Phrase α} {step : Cursor → Outcome α}
    (moves : ∀ cursor value next, cursor.In text → step cursor = .matched value next →
      cursor.offset < next.offset ∧ next.In text)
    (derives : ∀ cursor value next, cursor.In text → step cursor = .matched value next →
      Derives inner cursor value next)
    (refuses : ∀ cursor, step cursor = .mismatch → ¬Fits inner cursor)
    {limit : Nat} {values : List α} (stands : cursor.In text)
    (enough : text.length < cursor.offset + limit)
    (run : Peg.repeated step limit cursor = .matched values next) :
    Derives (.many inner) cursor values next := by
  induction limit generalizing cursor values with
  | zero =>
      have inText := stands.inText
      omega
  | succ limit ih =>
      rw [Peg.repeated] at run
      cases stepped : step cursor with
      | exhausted => simp [stepped] at run
      | mismatch =>
          simp only [stepped, Outcome.matched.injEq] at run
          obtain ⟨rfl, rfl⟩ := run
          exact .nil (refuses _ stepped)
      | matched value middle =>
          obtain ⟨goesOn, middleStands⟩ := moves _ _ _ stands stepped
          simp only [stepped, Nat.not_le.mpr goesOn, if_false] at run
          obtain ⟨others, last, later, run⟩ := Peg.andThen_eq_matched run
          simp only [Outcome.matched.injEq] at run
          obtain ⟨rfl, rfl⟩ := run
          exact .cons (derives _ _ _ stands stepped) goesOn (ih middleStands (by omega) later)

section Calls

variable {call : {α : Type} → Rule α → Cursor → Outcome α} (movesOn : MovesOn text call)
  (settled : ∀ {β : Type} (name : Rule β) cursor, call name cursor ≠ .exhausted →
    matchRule name cursor = call name cursor)
  (inner : ∀ {β : Type} (name : Rule β) cursor value next, cursor.In text →
    call name cursor = .matched value next → Derives (.rule name) cursor value next)

include movesOn settled inner

theorem derives_of_run (described : Phrase α) (solid : repeatsTake described = true) {value : α}
    (stands : cursor.In text)
    (run : described.run Token.scan call cursor = .matched value next) :
    Derives described cursor value next := by
  have refuses : ∀ {γ : Type} {sought : Phrase γ} {place : Cursor},
      sought.run Token.scan call place = .mismatch → ¬Fits sought place := fun refused =>
    matchPhrase_eq_mismatch_iff.mp
      ((Peg.run_eq_of_settled settled _ (refused ▸ Outcome.mismatch_ne_exhausted)).trans refused)
  induction described generalizing cursor next with
  | token sought =>
      rw [Peg.run] at run
      cases scanned : sought.scan cursor.rest with
      | none => simp [scanned] at run
      | some count =>
          simp only [scanned, Outcome.matched.injEq] at run
          obtain ⟨rfl, rfl⟩ := run
          exact .token scanned
  | rule name => exact inner name _ _ _ stands run
  | both first second firstIh secondIh =>
      obtain ⟨firstSolid, secondSolid⟩ := Bool.and_eq_true_iff.mp solid
      obtain ⟨firstValue, middle, firstRun, run⟩ := Peg.andThen_eq_matched run
      obtain ⟨secondValue, last, secondRun, run⟩ := Peg.andThen_eq_matched run
      simp only [Outcome.matched.injEq] at run
      obtain ⟨rfl, rfl⟩ := run
      have middleStands := in_of_run_movesOn movesOn stands firstRun
      exact .both (firstIh firstSolid stands firstRun) (secondIh secondSolid middleStands secondRun)
  | either first second firstIh secondIh =>
      obtain ⟨firstSolid, secondSolid⟩ := Bool.and_eq_true_iff.mp solid
      rw [Peg.run] at run
      cases firstRun : first.run Token.scan call cursor with
      | exhausted => simp [firstRun] at run
      | mismatch =>
          simp only [firstRun] at run
          exact .second (refuses firstRun) (secondIh secondSolid stands run)
      | matched found last =>
          simp only [firstRun, Outcome.matched.injEq] at run
          obtain ⟨rfl, rfl⟩ := run
          exact .first (firstIh firstSolid stands firstRun)
  | optional inner ih =>
      rw [Peg.run] at run
      cases innerRun : inner.run Token.scan call cursor with
      | exhausted => simp [innerRun] at run
      | mismatch =>
          simp only [innerRun, Outcome.matched.injEq] at run
          obtain ⟨rfl, rfl⟩ := run
          exact .none (refuses innerRun)
      | matched found last =>
          simp only [innerRun, Outcome.matched.injEq] at run
          obtain ⟨rfl, rfl⟩ := run
          exact .some (ih solid stands innerRun)
  | many inner ih =>
      obtain ⟨nonempty, innerSolid⟩ := Bool.and_eq_true_iff.mp solid
      refine derives_of_repeated (fun _ _ _ stands run => ?_)
        (fun _ _ _ stands run => ih innerSolid stands run) (fun _ => refuses) stands ?_ run
      · exact ⟨lt_of_run_movesOn movesOn nonempty stands run,
          in_of_run_movesOn movesOn stands run⟩
      · rw [stands.rest, List.length_drop]
        have := stands.inText
        omega
  | map change inner ih =>
      obtain ⟨found, last, innerRun, run⟩ := Peg.andThen_eq_matched run
      simp only [Outcome.matched.injEq] at run
      obtain ⟨rfl, rfl⟩ := run
      exact .map (ih solid stands innerRun)
  | spanned inner ih =>
      obtain ⟨found, last, innerRun, run⟩ := Peg.andThen_eq_matched run
      simp only [Outcome.matched.injEq] at run
      obtain ⟨rfl, rfl⟩ := run
      exact .spanned (ih solid stands innerRun)

end Calls

theorem derives_of_runRule {depth : Nat} {name : Rule α} {value : α} (stands : cursor.In text)
    (run : Peg.runRule Token.scan phrase depth name cursor = .matched value next) :
    Derives (.rule name) cursor value next := by
  induction depth generalizing α cursor next with
  | zero => simp [Peg.runRule] at run
  | succ depth ih =>
      exact .rule (derives_of_run (movesOn_runRule depth) (fun _ _ => matchRule_eq_runRule)
        (fun _ _ _ _ stands run => ih stands run) _ (repeatsTake_phrase name) stands run)

/-! ### Every derivation is a match -/

/-- A repetition that ended by itself is not changed by a greater limit. -/
theorem repeated_eq_of_le {step : Cursor → Outcome α} {limit greater : Nat} {values : List α}
    (le : limit ≤ greater) (run : Peg.repeated step limit cursor = .matched values next)
    (ended : step next = .mismatch) :
    Peg.repeated step greater cursor = .matched values next := by
  induction limit generalizing cursor values greater with
  | zero =>
      simp only [Peg.repeated, Outcome.matched.injEq] at run
      obtain ⟨rfl, rfl⟩ := run
      cases greater with
      | zero => rfl
      | succ greater => rw [Peg.repeated, ended]
  | succ limit ih =>
      obtain ⟨greater, rfl⟩ : ∃ more, greater = more + 1 := ⟨greater - 1, by omega⟩
      rw [Peg.repeated] at run ⊢
      cases stepped : step cursor with
      | exhausted => simp [stepped] at run
      | mismatch => simpa [stepped] using run
      | matched value middle =>
          simp only [stepped] at run ⊢
          split
          · next stays => simpa [stays] using run
          · next moves =>
              rw [if_neg moves] at run
              obtain ⟨others, last, later, run⟩ := Peg.andThen_eq_matched run
              simp only [Outcome.matched.injEq] at run
              obtain ⟨rfl, rfl⟩ := run
              rw [ih (Nat.le_of_succ_le_succ le) later]
              rfl

/-- A repetition ends where its item is refused. -/
def RefusesMore : {α : Type} → Phrase α → Cursor → Prop
  | _, .many inner, next => ¬Fits inner next
  | _, _, _ => True

theorem refusesMore_of_derives {described : Phrase α} {value : α}
    (derives : Derives described cursor value next) : RefusesMore described next := by
  induction derives with
  | nil refused => exact refused
  | cons _ _ _ _ ih => exact ih
  | _ => trivial

theorem matchPhrase_of_derives {described : Phrase α} {value : α} (stands : cursor.In text)
    (derives : Derives described cursor value next) :
    matchPhrase described cursor = .matched value next := by
  induction derives with
  | token scanned => exact matchPhrase_token scanned
  | rule _ ih => rw [matchPhrase_rule, ih stands]
  | both _ _ firstIh secondIh =>
      have firstRun := firstIh stands
      exact Peg.run_both firstRun (secondIh (in_of_run_movesOn movesOn_matchRule stands firstRun))
  | first _ ih => exact Peg.run_either_first (ih stands)
  | second refused _ ih =>
      exact (matchPhrase_either_second refused _).trans (ih stands)
  | none refused => exact matchPhrase_optional_none refused
  | some _ ih => exact Peg.run_optional (ih stands)
  | nil refused => exact matchPhrase_many_none refused
  | @cons _ _ cursor middle _ _ _ _ moves rest ih restIh =>
      have itemRun := ih stands
      have middleStands := in_of_run_movesOn movesOn_matchRule stands itemRun
      have shorter : middle.rest.length + 1 ≤ cursor.rest.length := by
        rw [stands.rest, middleStands.rest, List.length_drop, List.length_drop]
        have := middleStands.inText
        omega
      exact Peg.run_many_cons itemRun moves (repeated_eq_of_le shorter (restIh middleStands)
        (matchPhrase_eq_mismatch_iff.mpr (refusesMore_of_derives rest)))
  | map _ ih => exact Peg.run_map (ih stands)
  | spanned _ ih => exact Peg.run_spanned (ih stands)

/-- The derivations of a phrase are its matches. -/
theorem derives_iff {described : Phrase α} (solid : repeatsTake described = true) {value : α}
    (stands : cursor.In text) :
    Derives described cursor value next ↔ matchPhrase described cursor = .matched value next :=
  ⟨matchPhrase_of_derives stands, derives_of_run movesOn_matchRule (fun _ _ _ => rfl)
    (fun _ _ _ _ stands run => derives_of_runRule stands run) described solid stands⟩

section Extent

variable {described : Phrase α} {value : α} (stands : cursor.In text)
  (derives : Derives described cursor value next)

include stands derives

theorem in_of_derives : next.In text :=
  in_of_run_movesOn movesOn_matchRule stands (matchPhrase_of_derives stands derives)

theorem le_of_derives : cursor.offset ≤ next.offset :=
  le_of_run_movesOn movesOn_matchRule stands (matchPhrase_of_derives stands derives)

theorem fits_of_derives : Fits described cursor := ⟨_, _, matchPhrase_of_derives stands derives⟩

end Extent

end Gloss.Grammar
