import Mathlib.Logic.Relation
import Gloss.Proofs.Grammar.Extents
import Gloss.Proofs.Grammar.Matching

/-!
# Matching makes progress

While a rule is matched it calls other rules.  At the offset where it began it
calls only rules that stand after it in the grammar, and each call behind that
offset has fewer characters before it, so every chain of calls ends.  The depth
that the matcher is given is enough for the longest one.
-/

namespace Gloss

namespace Peg

variable {τ : Type} {ρ : Type → Type} {α β : Type}

/-- While a phrase is matched at a cursor, a rule is called at a place. -/
inductive Calls (scan : τ → List Char → Option Nat)
    (call : {α : Type} → ρ α → Cursor → Outcome α) (callee : ρ β) (place : Cursor) :
    {α : Type} → Peg τ ρ α → Cursor → Prop where
  | rule : Calls scan call callee place (.rule callee) place
  | first {α γ : Type} {first : Peg τ ρ α} {second : Peg τ ρ γ} {cursor : Cursor} :
      Calls scan call callee place first cursor →
      Calls scan call callee place (.both first second) cursor
  | second {α γ : Type} {first : Peg τ ρ α} {second : Peg τ ρ γ} {cursor middle : Cursor}
      {value : α} :
      first.run scan call cursor = .matched value middle →
      Calls scan call callee place second middle →
      Calls scan call callee place (.both first second) cursor
  | either {α : Type} {first second : Peg τ ρ α} {cursor : Cursor} :
      Calls scan call callee place first cursor →
      Calls scan call callee place (.either first second) cursor
  /-- The second alternative is tried where the first does not match. -/
  | otherwise {α : Type} {first second : Peg τ ρ α} {cursor : Cursor} :
      first.run scan call cursor = .mismatch →
      Calls scan call callee place second cursor →
      Calls scan call callee place (.either first second) cursor
  | optional {α : Type} {inner : Peg τ ρ α} {cursor : Cursor} :
      Calls scan call callee place inner cursor →
      Calls scan call callee place (.optional inner) cursor
  | many {α : Type} {inner : Peg τ ρ α} {cursor : Cursor} :
      Calls scan call callee place inner cursor →
      Calls scan call callee place (.many inner) cursor
  /-- A repetition goes on where its item ended. -/
  | again {α : Type} {inner : Peg τ ρ α} {cursor middle : Cursor} {value : α} :
      inner.run scan call cursor = .matched value middle →
      cursor.offset < middle.offset →
      Calls scan call callee place (.many inner) middle →
      Calls scan call callee place (.many inner) cursor
  | map {α γ : Type} {change : α → γ} {inner : Peg τ ρ α} {cursor : Cursor} :
      Calls scan call callee place inner cursor →
      Calls scan call callee place (.map change inner) cursor
  | spanned {α : Type} {inner : Peg τ ρ α} {cursor : Cursor} :
      Calls scan call callee place inner cursor →
      Calls scan call callee place (.spanned inner) cursor

/-- A phrase is repeated somewhere in another one. -/
inductive Repeated (item : Peg τ ρ β) : {α : Type} → Peg τ ρ α → Prop where
  | here : Repeated item (.many item)
  | many {α : Type} {inner : Peg τ ρ α} : Repeated item inner → Repeated item (.many inner)
  | first {α γ : Type} {first : Peg τ ρ α} {second : Peg τ ρ γ} :
      Repeated item first → Repeated item (.both first second)
  | second {α γ : Type} {first : Peg τ ρ α} {second : Peg τ ρ γ} :
      Repeated item second → Repeated item (.both first second)
  | either {α : Type} {first second : Peg τ ρ α} :
      Repeated item first → Repeated item (.either first second)
  | otherwise {α : Type} {first second : Peg τ ρ α} :
      Repeated item second → Repeated item (.either first second)
  | optional {α : Type} {inner : Peg τ ρ α} :
      Repeated item inner → Repeated item (.optional inner)
  | map {α γ : Type} {change : α → γ} {inner : Peg τ ρ α} :
      Repeated item inner → Repeated item (.map change inner)
  | spanned {α : Type} {inner : Peg τ ρ α} :
      Repeated item inner → Repeated item (.spanned inner)

section Exhaustion

variable {scan : τ → List Char → Option Nat} {call : {α : Type} → ρ α → Cursor → Outcome α}

/-- A phrase is exhausted only where a rule is that it calls. -/
theorem run_ne_exhausted {phrase : Peg τ ρ α} {cursor : Cursor}
    (finished : ∀ {β : Type} (callee : ρ β) (place : Cursor),
      Calls scan call callee place phrase cursor → call callee place ≠ .exhausted) :
    phrase.run scan call cursor ≠ .exhausted := by
  induction phrase generalizing cursor with
  | token sought =>
      rw [run]
      split
      · exact Outcome.mismatch_ne_exhausted
      · exact Outcome.matched_ne_exhausted
  | rule name => exact finished name cursor .rule
  | both first second firstIh secondIh =>
      have firstFinished := firstIh fun callee place calls => finished callee place calls.first
      rw [run]
      cases firstRun : first.run scan call cursor with
      | exhausted => exact absurd firstRun firstFinished
      | mismatch => exact Outcome.mismatch_ne_exhausted
      | matched value middle =>
          have secondFinished := secondIh fun callee place calls =>
            finished callee place (.second firstRun calls)
          simp only [Outcome.andThen]
          cases secondRun : second.run scan call middle with
          | exhausted => exact absurd secondRun secondFinished
          | mismatch => exact Outcome.mismatch_ne_exhausted
          | matched => exact Outcome.matched_ne_exhausted
  | either first second firstIh secondIh =>
      have firstFinished := firstIh fun callee place calls => finished callee place calls.either
      rw [run]
      cases firstRun : first.run scan call cursor with
      | exhausted => exact absurd firstRun firstFinished
      | mismatch =>
          exact secondIh fun callee place calls => finished callee place (.otherwise firstRun calls)
      | matched => exact Outcome.matched_ne_exhausted
  | optional inner ih =>
      have innerFinished := ih fun callee place calls => finished callee place calls.optional
      rw [run]
      cases innerRun : inner.run scan call cursor with
      | exhausted => exact absurd innerRun innerFinished
      | mismatch => exact Outcome.matched_ne_exhausted
      | matched => exact Outcome.matched_ne_exhausted
  | many inner ih =>
      rw [run]
      generalize cursor.rest.length + 1 = limit
      induction limit generalizing cursor with
      | zero => exact Outcome.matched_ne_exhausted
      | succ limit limitIh =>
          have innerFinished := ih fun callee place calls => finished callee place calls.many
          rw [repeated]
          cases innerRun : inner.run scan call cursor with
          | exhausted => exact absurd innerRun innerFinished
          | mismatch => exact Outcome.matched_ne_exhausted
          | matched value next =>
              simp only
              split
              · exact Outcome.matched_ne_exhausted
              · next moves =>
                  have restFinished : repeated (inner.run scan call) limit next ≠ .exhausted :=
                    limitIh fun callee place calls =>
                      finished callee place (.again innerRun (Nat.lt_of_not_le moves) calls)
                  cases rest : repeated (inner.run scan call) limit next with
                  | exhausted => exact absurd rest restFinished
                  | mismatch => exact Outcome.mismatch_ne_exhausted
                  | matched => exact Outcome.matched_ne_exhausted
  | map change inner ih =>
      have innerFinished := ih fun callee place calls => finished callee place calls.map
      rw [run]
      cases innerRun : inner.run scan call cursor with
      | exhausted => exact absurd innerRun innerFinished
      | mismatch => exact Outcome.mismatch_ne_exhausted
      | matched => exact Outcome.matched_ne_exhausted
  | spanned inner ih =>
      have innerFinished := ih fun callee place calls => finished callee place calls.spanned
      rw [run]
      cases innerRun : inner.run scan call cursor with
      | exhausted => exact absurd innerRun innerFinished
      | mismatch => exact Outcome.mismatch_ne_exhausted
      | matched => exact Outcome.matched_ne_exhausted

end Exhaustion

end Peg

namespace Rule

/-- Where a rule stands in an order in which it comes before every rule that it
calls at its own offset.  The grammar lists the rules in such an order, but for
two that begin with a rule listed before them; these come first. -/
def rank : {α : Type} → Rule α → Nat
  | _, .typeList | _, .arguments => 0
  | _, name => name.ctorIdx

theorem rank_lt {α : Type} (name : Rule α) : name.rank < all.length := by
  cases name <;> decide

/-- Whether a rule takes at least one character wherever it matches. -/
def takes : {α : Type} → Rule α → Bool
  | _, .file | _, .blank => false
  | _, _ => true

end Rule

namespace Grammar

variable {text : List Char} {α β : Type}

/-! ### What takes a character, and what is called before one is taken -/

/-- Whether a phrase takes at least one character wherever it matches. -/
def takes : {α : Type} → Phrase α → Bool
  | _, .token token => token.isFirm
  | _, .rule rule => rule.takes
  | _, .both first second => takes first || takes second
  | _, .either first second => takes first && takes second
  | _, .optional _ | _, .many _ => false
  | _, .map _ inner => takes inner
  | _, .spanned inner => takes inner

/-- Whether a phrase calls only rules of a greater rank before it takes a
character. -/
def leads : {α : Type} → Phrase α → (rank : Nat) → Bool
  | _, .token _, _ => true
  | _, .rule rule, rank => rank < rule.rank
  | _, .both first second, rank => leads first rank && (takes first || leads second rank)
  | _, .either first second, rank => leads first rank && leads second rank
  | _, .optional inner, rank => leads inner rank
  | _, .many inner, rank => leads inner rank
  | _, .map _ inner, rank => leads inner rank
  | _, .spanned inner, rank => leads inner rank

/-- Whether everything that a phrase repeats takes at least one character. -/
def repeatsTake : {α : Type} → Phrase α → Bool
  | _, .token _ | _, .rule _ => true
  | _, .both first second => repeatsTake first && repeatsTake second
  | _, .either first second => repeatsTake first && repeatsTake second
  | _, .optional inner => repeatsTake inner
  | _, .many inner => takes inner && repeatsTake inner
  | _, .map _ inner => repeatsTake inner
  | _, .spanned inner => repeatsTake inner

theorem takes_phrase {name : Rule α} (nonempty : name.takes = true) :
    takes (phrase name) = true := by
  cases name with
  | file | blank => cases nonempty
  | _ => decide

theorem leads_phrase (name : Rule α) : leads (phrase name) name.rank = true := by
  cases name <;> decide

theorem repeatsTake_phrase (name : Rule α) : repeatsTake (phrase name) = true := by
  cases name <;> decide

theorem takes_of_repeated {item : Phrase β} {described : Phrase α}
    (isRepeated : Peg.Repeated item described) (solid : repeatsTake described = true) :
    takes item = true := by
  induction isRepeated with
  | here => exact (Bool.and_eq_true_iff.mp solid).1
  | many _ ih => exact ih (Bool.and_eq_true_iff.mp solid).2
  | first _ ih | either _ ih => exact ih (Bool.and_eq_true_iff.mp solid).1
  | second _ ih | otherwise _ ih => exact ih (Bool.and_eq_true_iff.mp solid).2
  | optional _ ih | map _ ih | spanned _ ih => exact ih solid

/-! ### Matches move on -/

/-- What a rule reads moves on as far as the rule must. -/
structure Moves (text : List Char) (name : Rule α) (start stop : Nat) : Prop where
  extent : Extent text name start stop
  lt : name.takes = true → start < stop

def movingReading (text : List Char) : Peg.RuleReading Rule := fun _ name start _ stop =>
  Moves text name start stop

theorem lt_of_reads_taking {described : Phrase α} {start stop : Nat} {value : α}
    (nonempty : takes described = true)
    (reads : Reads text (movingReading text) described start value stop) : start < stop := by
  have extent : ∀ {β : Type} (name : Rule β) start value stop,
      movingReading text name start value stop → Extent text name start stop :=
    fun _ _ _ _ moves => moves.extent
  induction described generalizing start stop with
  | token sought =>
      obtain ⟨count, scanned, -, rfl⟩ := reads
      have positive := (Token.firm_of_scan nonempty scanned).positive
      omega
  | rule name => exact reads.lt nonempty
  | both first second firstIh secondIh =>
      obtain ⟨middle, firstReads, secondReads⟩ := reads
      have firstLe := le_of_reads extent firstReads
      have secondLe := le_of_reads extent secondReads
      rcases Bool.or_eq_true_iff.mp nonempty with inFirst | inSecond
      · exact Nat.lt_of_lt_of_le (firstIh inFirst firstReads) secondLe
      · exact Nat.lt_of_le_of_lt firstLe (secondIh inSecond secondReads)
  | either first second firstIh secondIh =>
      obtain ⟨inFirst, inSecond⟩ := Bool.and_eq_true_iff.mp nonempty
      exact reads.elim (firstIh inFirst) (secondIh inSecond)
  | optional | many => cases nonempty
  | map change inner ih =>
      obtain ⟨found, innerReads, -⟩ := reads
      exact ih nonempty innerReads
  | spanned inner ih => exact ih nonempty reads.2

theorem moves_of_reads {name : Rule α} {start stop : Nat} {value : α}
    (reads : Reads text (movingReading text) (phrase name) start value stop) :
    Moves text name start stop :=
  ⟨extent_of_reads (fun _ _ _ _ moves => moves.extent) reads, fun nonempty =>
    lt_of_reads_taking (takes_phrase nonempty) reads⟩

/-- The matches that a matcher finds for rules are matches in the text, and
move on. -/
def MovesOn (text : List Char) (call : {α : Type} → Rule α → Cursor → Outcome α) : Prop :=
  ∀ {α : Type} (name : Rule α) cursor value next, cursor.In text →
    call name cursor = .matched value next →
      Moves text name cursor.offset next.offset ∧ next.In text

theorem movesOn_runRule (depth : Nat) : MovesOn text (Peg.runRule Token.scan phrase depth) :=
  have closed : ∀ {β : Type} (name : Rule β) start value stop,
      Reads text (movingReading text) (phrase name) start value stop →
        movingReading text name start value stop := fun _ _ _ _ => moves_of_reads
  fun _ _ _ _ stands run => Peg.reads_of_runRule Token.scan_le_length closed stands run

theorem movesOn_matchRule : MovesOn text (fun name => matchRule name) :=
  fun name cursor value next stands run => movesOn_runRule _ name cursor value next stands run

section Calls

variable {call : {α : Type} → Rule α → Cursor → Outcome α} {described : Phrase α}
  {cursor next : Cursor} {value : α}

theorem reads_of_run_movesOn (movesOn : MovesOn text call) (stands : cursor.In text)
    (run : described.run Token.scan call cursor = .matched value next) :
    Reads text (movingReading text) described cursor.offset value next.offset ∧ next.In text :=
  Peg.reads_of_run Token.scan_le_length movesOn described stands run

theorem in_of_run_movesOn (movesOn : MovesOn text call) (stands : cursor.In text)
    (run : described.run Token.scan call cursor = .matched value next) : next.In text :=
  (reads_of_run_movesOn movesOn stands run).2

theorem le_of_run_movesOn (movesOn : MovesOn text call) (stands : cursor.In text)
    (run : described.run Token.scan call cursor = .matched value next) :
    cursor.offset ≤ next.offset :=
  le_of_reads (fun _ _ _ _ (moves : Moves _ _ _ _) => moves.extent)
    (reads_of_run_movesOn movesOn stands run).1

theorem lt_of_run_movesOn (movesOn : MovesOn text call) (nonempty : takes described = true)
    (stands : cursor.In text)
    (run : described.run Token.scan call cursor = .matched value next) :
    cursor.offset < next.offset :=
  lt_of_reads_taking nonempty (reads_of_run_movesOn movesOn stands run).1

/-- Behind the cursor any rule can be called, but at the cursor only what the
phrase leads to. -/
theorem descends_of_calls (movesOn : MovesOn text call) {rank : Nat} {callee : Rule β}
    {called : Cursor} (calls : Peg.Calls Token.scan call callee called described cursor)
    (stands : cursor.In text) :
    called.In text ∧ cursor.offset ≤ called.offset ∧
      (leads described rank = true → cursor.offset = called.offset → rank < callee.rank) := by
  induction calls with
  | rule => exact ⟨stands, Nat.le_refl _, fun leading _ => of_decide_eq_true leading⟩
  | first _ ih | either _ ih =>
      obtain ⟨calledStands, le, after⟩ := ih stands
      exact ⟨calledStands, le, fun leading => after (Bool.and_eq_true_iff.mp leading).1⟩
  | otherwise _ _ ih =>
      obtain ⟨calledStands, le, after⟩ := ih stands
      exact ⟨calledStands, le, fun leading => after (Bool.and_eq_true_iff.mp leading).2⟩
  | second firstRun _ ih =>
      have firstLe := le_of_run_movesOn movesOn stands firstRun
      obtain ⟨calledStands, le, after⟩ := ih (in_of_run_movesOn movesOn stands firstRun)
      refine ⟨calledStands, Nat.le_trans firstLe le, fun leading same => ?_⟩
      rcases Bool.or_eq_true_iff.mp (Bool.and_eq_true_iff.mp leading).2 with nonempty | leads
      · have moves := lt_of_run_movesOn movesOn nonempty stands firstRun
        omega
      · exact after leads (by omega)
  | again itemRun moves _ ih =>
      obtain ⟨calledStands, le, -⟩ := ih (in_of_run_movesOn movesOn stands itemRun)
      exact ⟨calledStands, by omega, fun _ same => by omega⟩
  | optional _ ih | many _ ih | map _ ih | spanned _ ih => exact ih stands

end Calls

/-! ### The depth is enough -/

/-- Every chain of calls from a rule at a cursor is shorter than this. -/
def reach (name : Rule α) (cursor : Cursor) : Nat :=
  cursor.rest.length * Rule.all.length + (Rule.all.length - name.rank)

theorem reach_le_depth (name : Rule α) (cursor : Cursor) :
    reach name cursor ≤ depth cursor.rest.length := by
  rw [reach, depth, Nat.succ_mul]
  omega

theorem reach_lt_of_calls {call : {α : Type} → Rule α → Cursor → Outcome α}
    (movesOn : MovesOn text call) {name : Rule α} {callee : Rule β} {cursor called : Cursor}
    (calls : Peg.Calls Token.scan call callee called (phrase name) cursor)
    (stands : cursor.In text) : called.In text ∧ reach callee called < reach name cursor := by
  obtain ⟨calledStands, le, after⟩ := descends_of_calls movesOn calls stands
  refine ⟨calledStands, ?_⟩
  have calleeRank := callee.rank_lt
  have nameRank := name.rank_lt
  rw [reach, reach, stands.rest, calledStands.rest, List.length_drop, List.length_drop]
  have calledInText := calledStands.inText
  rcases Nat.lt_or_eq_of_le le with behind | here
  · obtain ⟨further, isFurther⟩ : ∃ further,
        text.length - cursor.offset = text.length - called.offset + 1 + further :=
      ⟨called.offset - cursor.offset - 1, by omega⟩
    rw [isFurther, Nat.add_mul, Nat.succ_mul]
    omega
  · have greater := after (leads_phrase name) here
    rw [here]
    omega

theorem runRule_ne_exhausted {depth : Nat} {name : Rule α} {cursor : Cursor}
    (stands : cursor.In text) (enough : reach name cursor ≤ depth) :
    Peg.runRule Token.scan phrase depth name cursor ≠ .exhausted := by
  induction depth generalizing α cursor with
  | zero =>
      have below := name.rank_lt
      rw [reach] at enough
      omega
  | succ depth ih =>
      rw [Peg.runRule]
      refine Peg.run_ne_exhausted fun callee called calls => ?_
      obtain ⟨calledStands, lt⟩ := reach_lt_of_calls (movesOn_runRule depth) calls stands
      exact ih calledStands (by omega)

/-- A cursor stands in some text, whatever comes before it. -/
theorem exists_in (cursor : Cursor) : ∃ text, cursor.In text :=
  ⟨List.replicate cursor.offset ' ' ++ cursor.rest, by
    constructor <;> simp⟩

theorem matchRule_ne_exhausted (name : Rule α) (cursor : Cursor) :
    matchRule name cursor ≠ .exhausted := by
  obtain ⟨text, stands⟩ := exists_in cursor
  exact runRule_ne_exhausted stands (reach_le_depth name cursor)

/-- What is matched at some depth is matched at the depth that is enough. -/
theorem matchRule_eq_runRule {depth : Nat} {name : Rule α} {cursor : Cursor}
    (finished : Peg.runRule Token.scan phrase depth name cursor ≠ .exhausted) :
    matchRule name cursor = Peg.runRule Token.scan phrase depth name cursor := by
  let enough := Grammar.depth cursor.rest.length
  calc
    matchRule name cursor = Peg.runRule Token.scan phrase (max depth enough) name cursor :=
      (Peg.runRule_eq_of_le (Nat.le_max_right depth enough)
        (matchRule_ne_exhausted name cursor)).symm
    _ = Peg.runRule Token.scan phrase depth name cursor :=
      Peg.runRule_eq_of_le (Nat.le_max_left depth enough) finished

/-- Matches a phrase whose rules are matched without regard to depth. -/
def matchPhrase (described : Phrase α) (cursor : Cursor) : Outcome α :=
  described.run Token.scan (fun name => matchRule name) cursor

theorem matchPhrase_eq_run {depth : Nat} {described : Phrase α} {cursor : Cursor}
    (finished : described.run Token.scan (Peg.runRule Token.scan phrase depth) cursor ≠
      .exhausted) :
    matchPhrase described cursor =
      described.run Token.scan (Peg.runRule Token.scan phrase depth) cursor :=
  Peg.run_eq_of_settled (fun _ _ inner => matchRule_eq_runRule inner) described finished

/-- A rule is matched by its phrase. -/
theorem matchRule_eq_matchPhrase (name : Rule α) (cursor : Cursor) :
    matchRule name cursor = matchPhrase (phrase name) cursor := by
  have finished := matchRule_ne_exhausted name cursor
  have positive : 0 < depth cursor.rest.length :=
    Nat.mul_pos (Nat.succ_pos _) (by decide)
  obtain ⟨below, isBelow⟩ := Nat.exists_eq_add_one_of_ne_zero (Nat.ne_of_gt positive)
  rw [matchRule, isBelow, Peg.runRule] at finished ⊢
  exact (matchPhrase_eq_run finished).symm

/-! ### Progress -/

/-- While a rule is matched at a cursor, its phrase calls a rule at another. -/
def Enters (caller callee : AnyRule × Cursor) : Prop :=
  Peg.Calls Token.scan (fun name => matchRule name) callee.1.rule callee.2
    (phrase caller.1.rule) caller.2

/-- Matching a rule at an offset of a text makes progress. -/
structure Progresses (text : List Char) (name : Rule α) (start : Nat) : Prop where
  /-- The rule is matched by its phrase, with every rule inside matched alike. -/
  unfolds : matchRule name ⟨start, text.drop start⟩ =
    matchPhrase (phrase name) ⟨start, text.drop start⟩
  finishes : matchRule name ⟨start, text.drop start⟩ ≠ .exhausted
  /-- No chain of calls goes on for ever. -/
  grounded : Acc (fun callee caller => Enters caller callee) (name.any, ⟨start, text.drop start⟩)
  /-- While the rule is being matched it is not called at the same offset. -/
  once : ∀ again, Relation.TransGen Enters (name.any, ⟨start, text.drop start⟩)
    (name.any, again) → start < again.offset
  /-- Whatever the rule repeats takes at least one character. -/
  repeats : ∀ {β : Type} (item : Phrase β), Peg.Repeated item (phrase name) → ∀ value next,
    matchPhrase item ⟨start, text.drop start⟩ = .matched value next → start < next.offset
  within : ∀ value next, matchRule name ⟨start, text.drop start⟩ = .matched value next →
    start ≤ next.offset ∧ next.offset ≤ text.length

theorem acc_enters {caller : AnyRule × Cursor} (stands : caller.2.In text) :
    Acc (fun callee caller => Enters caller callee) caller := by
  induction bound : reach caller.1.rule caller.2 using Nat.strongRecOn
    generalizing caller with
  | ind bound ih =>
      refine ⟨_, fun callee enters => ?_⟩
      obtain ⟨calleeStands, lt⟩ := reach_lt_of_calls movesOn_matchRule enters stands
      exact ih _ (bound ▸ lt) calleeStands rfl

/-- A chain of calls moves on, or it goes to rules of greater rank. -/
theorem descends_of_transGen {caller callee : AnyRule × Cursor}
    (chain : Relation.TransGen Enters caller callee) (stands : caller.2.In text) :
    callee.2.In text ∧ caller.2.offset ≤ callee.2.offset ∧
      (caller.2.offset = callee.2.offset → caller.1.rule.rank < callee.1.rule.rank) := by
  induction chain with
  | single enters =>
      obtain ⟨calledStands, le, after⟩ := descends_of_calls movesOn_matchRule enters stands
      exact ⟨calledStands, le, after (leads_phrase _)⟩
  | tail _ enters ih =>
      obtain ⟨middleStands, firstLe, firstAfter⟩ := ih
      obtain ⟨calledStands, le, after⟩ := descends_of_calls movesOn_matchRule enters middleStands
      refine ⟨calledStands, Nat.le_trans firstLe le, fun same => ?_⟩
      exact Nat.lt_trans (firstAfter (by omega)) (after (leads_phrase _) (by omega))

/-- Matching ends for every rule at every offset of a text, no rule is called
again at the offset where it is being matched, repetitions take characters, and
a match ends in the text. -/
theorem progresses (name : Rule α) {start : Nat} (inText : start ≤ text.length) :
    Progresses text name start := by
  have stands : Cursor.In text ⟨start, text.drop start⟩ := ⟨rfl, inText⟩
  refine
    { unfolds := matchRule_eq_matchPhrase name _
      finishes := matchRule_ne_exhausted name _
      grounded := acc_enters stands
      once := fun again chain => ?_
      repeats := fun item isRepeated value next run =>
        lt_of_run_movesOn movesOn_matchRule (takes_of_repeated isRepeated (repeatsTake_phrase name))
          stands run
      within := fun value next run => ?_ }
  · obtain ⟨-, le, after⟩ := descends_of_transGen chain stands
    exact Nat.lt_of_le_of_ne le fun same => Nat.lt_irrefl _ (after same)
  · obtain ⟨moves, nextStands⟩ := movesOn_matchRule name _ value next stands run
    exact ⟨moves.extent.le, nextStands.inText⟩

/-- An expression that stands in the middle of a text. -/
theorem progresses_expression :
    8 ≤ "val a = f(if (b) c else d)".toList.length ∧
      Progresses "val a = f(if (b) c else d)".toList .expression 8 :=
  ⟨by decide, progresses .expression (by decide)⟩

end Grammar

end Gloss
