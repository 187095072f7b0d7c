import Gloss.Grammar
import Gloss.Proofs.Grammar.Readings
import Gloss.Proofs.Grammar.Tokens

/-!
# The extent of rules

Most rules read a stretch of text that is tight: not empty, and without white
space at its ends.  Whether a rule does so can be told from its phrase alone,
once this is known of the rules inside.
-/

namespace Gloss

namespace Text

/-- A stretch that begins with a character that is no white space. -/
def FirmFrom (text : List Char) (start stop : Nat) : Prop :=
  start < stop ∧ ∃ character, text[start]? = some character ∧ isBlank character = false

/-- A stretch that ends with a character that is no white space. -/
def FirmTo (text : List Char) (start stop : Nat) : Prop :=
  start < stop ∧ ∃ character, text[stop - 1]? = some character ∧ isBlank character = false

/-- A stretch without white space at its ends. -/
structure Tight (text : List Char) (span : Span) : Prop where
  first : FirmFrom text span.start span.stop
  last : FirmTo text span.start span.stop

variable {text : List Char} {start middle stop : Nat}

theorem FirmFrom.extend (firm : FirmFrom text start middle) (le : middle ≤ stop) :
    FirmFrom text start stop :=
  ⟨Nat.lt_of_lt_of_le firm.1 le, firm.2⟩

theorem FirmTo.extend (firm : FirmTo text middle stop) (le : start ≤ middle) :
    FirmTo text start stop :=
  ⟨Nat.lt_of_le_of_lt le firm.1, firm.2⟩

namespace Tight

variable {span : Span}

theorem start_lt_stop (tight : Tight text span) : span.start < span.stop := tight.first.1

theorem stop_le_length (tight : Tight text span) : span.stop ≤ text.length := by
  obtain ⟨less, character, last, -⟩ := tight.last
  have inText := (List.getElem?_eq_some_iff.mp last).1
  omega

/-- Two tight stretches make up a tight one, whatever is between them. -/
theorem join {other : Span} (tight : Tight text span) (next : Tight text other)
    (le : span.stop ≤ other.start) : Tight text ⟨span.start, other.stop⟩ := by
  have first := tight.start_lt_stop
  have second := next.start_lt_stop
  have startsBefore : span.start ≤ other.start := by omega
  have stopsBefore : span.stop ≤ other.stop := by omega
  exact ⟨tight.first.extend stopsBefore, next.last.extend startsBefore⟩

end Tight

theorem Firm.tight {count : Nat} (firm : Firm (text.drop start) count) :
    Tight text ⟨start, start + count⟩ := by
  obtain ⟨positive, ⟨first, isFirst, firstFirm⟩, last, isLast, lastFirm⟩ := firm
  rw [List.getElem?_drop] at isFirst isLast
  refine ⟨⟨by simpa using positive, first, isFirst, firstFirm⟩,
    ⟨by simpa using positive, last, ?_, lastFirm⟩⟩
  rw [Nat.add_sub_assoc positive]
  exact isLast

end Text

/-- Whether a rule reads tight stretches only. -/
def Rule.isFirm : {α : Type} → Rule α → Bool
  | _, .file | _, .packagePart | _, .topLevel | _, .blank => false
  | _, _ => true

namespace Grammar

open Text

/-- Whether a phrase reads only stretches that begin with no white space, or
nothing at all where that is allowed. -/
def opens : {α : Type} → Phrase α → (orNothing : Bool) → Bool
  | _, .token token, _ => token.isFirm
  | _, .rule rule, _ => rule.isFirm
  | _, .both first second, orNothing =>
      opens first false || (opens first true && opens second orNothing)
  | _, .either first second, orNothing => opens first orNothing && opens second orNothing
  | _, .optional inner, orNothing => orNothing && opens inner true
  | _, .many inner, orNothing => orNothing && opens inner true
  | _, .map _ inner, orNothing => opens inner orNothing
  | _, .spanned inner, orNothing => opens inner orNothing

/-- Whether a phrase reads only stretches that end with no white space, or
nothing at all where that is allowed. -/
def closes : {α : Type} → Phrase α → (orNothing : Bool) → Bool
  | _, .token token, _ => token.isFirm
  | _, .rule rule, _ => rule.isFirm
  | _, .both first second, orNothing =>
      closes second false || (closes second true && closes first orNothing)
  | _, .either first second, orNothing => closes first orNothing && closes second orNothing
  | _, .optional inner, orNothing => orNothing && closes inner true
  | _, .many inner, orNothing => orNothing && closes inner true
  | _, .map _ inner, orNothing => closes inner orNothing
  | _, .spanned inner, orNothing => closes inner orNothing

/-- What can be said of a stretch that a rule reads, whatever its value. -/
structure Extent {α : Type} (text : List Char) (rule : Rule α) (start stop : Nat) : Prop where
  le : start ≤ stop
  tight : rule.isFirm = true → Tight text ⟨start, stop⟩

/-- What a phrase reads, with the given readings of the rules. -/
abbrev Reads (text : List Char) (rule : Peg.RuleReading Rule) {α : Type} (phrase : Phrase α) :
    Nat → α → Nat → Prop :=
  Peg.Reads Token.scan text rule phrase

section Reading

variable {text : List Char} {rule : Peg.RuleReading Rule} {α : Type}
  {described : Phrase α} {start stop : Nat} {value : α}

theorem le_of_repeats {item : Nat → α → Nat → Prop} {values : List α}
    (repeats : Peg.Repeats item start values stop) : start ≤ stop := by
  induction repeats with
  | nil => exact Nat.le_refl _
  | cons read moves rest ih => omega

theorem firmTo_of_repeats {item : Nat → α → Nat → Prop} {values : List α}
    (firm : ∀ start value stop, item start value stop → start < stop → FirmTo text start stop)
    (repeats : Peg.Repeats item start values stop) :
    FirmTo text start stop ∨ start = stop := by
  induction repeats with
  | nil => exact .inr rfl
  | cons read moves rest ih =>
      rcases ih with later | rfl
      · exact .inl (later.extend (Nat.le_of_lt moves))
      · exact .inl (firm _ _ _ read moves)

variable (extent : ∀ {β : Type} (name : Rule β) start value stop,
  rule name start value stop → Extent text name start stop)

include extent

theorem le_of_reads (reads : Reads text rule described start value stop) : start ≤ stop := by
  induction described generalizing start stop with
  | token sought =>
      obtain ⟨count, -, -, rfl⟩ := reads
      exact Nat.le_add_right _ _
  | rule name => exact (extent _ _ _ _ reads).le
  | both first second firstIh secondIh =>
      obtain ⟨middle, firstReads, secondReads⟩ := reads
      exact Nat.le_trans (firstIh firstReads) (secondIh secondReads)
  | either first second firstIh secondIh => exact reads.elim firstIh secondIh
  | optional inner ih =>
      rcases reads with ⟨-, rfl⟩ | ⟨found, -, innerReads⟩
      · exact Nat.le_refl _
      · exact ih innerReads
  | many inner ih => exact le_of_repeats reads
  | map change inner ih =>
      obtain ⟨found, innerReads, -⟩ := reads
      exact ih innerReads
  | spanned inner ih => exact ih reads.2

theorem firmFrom_of_reads {orNothing : Bool} (opening : opens described orNothing = true)
    (reads : Reads text rule described start value stop) :
    FirmFrom text start stop ∨ orNothing = true ∧ start = stop := by
  induction described generalizing start stop orNothing with
  | token sought =>
      obtain ⟨count, scanned, -, rfl⟩ := reads
      exact .inl (Token.firm_of_scan opening scanned).tight.first
  | rule name => exact .inl ((extent _ _ _ _ reads).tight opening).first
  | both first second firstIh secondIh =>
      obtain ⟨middle, firstReads, secondReads⟩ := reads
      have le := le_of_reads extent secondReads
      rcases Bool.or_eq_true_iff.mp opening with atOnce | later
      · rcases firstIh atOnce firstReads with firm | ⟨impossible, -⟩
        · exact .inl (firm.extend le)
        · cases impossible
      · obtain ⟨firstOpens, secondOpens⟩ := Bool.and_eq_true_iff.mp later
        rcases firstIh firstOpens firstReads with firm | ⟨-, rfl⟩
        · exact .inl (firm.extend le)
        · exact secondIh secondOpens secondReads
  | either first second firstIh secondIh =>
      obtain ⟨firstOpens, secondOpens⟩ := Bool.and_eq_true_iff.mp opening
      exact reads.elim (firstIh firstOpens) (secondIh secondOpens)
  | optional inner ih =>
      obtain ⟨allowed, innerOpens⟩ := Bool.and_eq_true_iff.mp opening
      rcases reads with ⟨-, rfl⟩ | ⟨found, -, innerReads⟩
      · exact .inr ⟨allowed, rfl⟩
      · exact (ih innerOpens innerReads).imp_right fun nothing => ⟨allowed, nothing.2⟩
  | many inner ih =>
      obtain ⟨allowed, innerOpens⟩ := Bool.and_eq_true_iff.mp opening
      cases reads with
      | nil => exact .inr ⟨allowed, rfl⟩
      | cons innerReads moves rest =>
          rcases ih innerOpens innerReads with firm | ⟨-, same⟩
          · exact .inl (firm.extend (le_of_repeats rest))
          · omega
  | map change inner ih =>
      obtain ⟨found, innerReads, -⟩ := reads
      exact ih opening innerReads
  | spanned inner ih => exact ih opening reads.2

theorem firmTo_of_reads {orNothing : Bool} (closing : closes described orNothing = true)
    (reads : Reads text rule described start value stop) :
    FirmTo text start stop ∨ orNothing = true ∧ start = stop := by
  induction described generalizing start stop orNothing with
  | token sought =>
      obtain ⟨count, scanned, -, rfl⟩ := reads
      exact .inl (Token.firm_of_scan closing scanned).tight.last
  | rule name => exact .inl ((extent _ _ _ _ reads).tight closing).last
  | both first second firstIh secondIh =>
      obtain ⟨middle, firstReads, secondReads⟩ := reads
      have le := le_of_reads extent firstReads
      rcases Bool.or_eq_true_iff.mp closing with atOnce | later
      · rcases secondIh atOnce secondReads with firm | ⟨impossible, -⟩
        · exact .inl (firm.extend le)
        · cases impossible
      · obtain ⟨secondCloses, firstCloses⟩ := Bool.and_eq_true_iff.mp later
        rcases secondIh secondCloses secondReads with firm | ⟨-, rfl⟩
        · exact .inl (firm.extend le)
        · exact firstIh firstCloses firstReads
  | either first second firstIh secondIh =>
      obtain ⟨firstCloses, secondCloses⟩ := Bool.and_eq_true_iff.mp closing
      exact reads.elim (firstIh firstCloses) (secondIh secondCloses)
  | optional inner ih =>
      obtain ⟨allowed, innerCloses⟩ := Bool.and_eq_true_iff.mp closing
      rcases reads with ⟨-, rfl⟩ | ⟨found, -, innerReads⟩
      · exact .inr ⟨allowed, rfl⟩
      · exact (ih innerCloses innerReads).imp_right fun nothing => ⟨allowed, nothing.2⟩
  | many inner ih =>
      obtain ⟨allowed, innerCloses⟩ := Bool.and_eq_true_iff.mp closing
      refine (firmTo_of_repeats ?_ reads).imp_right fun same => ⟨allowed, same⟩
      intro start value stop innerReads moves
      rcases ih innerCloses innerReads with firm | ⟨-, same⟩
      · exact firm
      · omega
  | map change inner ih =>
      obtain ⟨found, innerReads, -⟩ := reads
      exact ih closing innerReads
  | spanned inner ih => exact ih closing reads.2

omit extent in
theorem opens_closes_of_isFirm (name : Rule α) (firm : name.isFirm = true) :
    opens (phrase name) false = true ∧ closes (phrase name) false = true := by
  cases name with
  | file | packagePart | topLevel | blank => simp [Rule.isFirm] at firm
  | _ => exact ⟨by decide, by decide⟩

/-- A rule keeps to its extent when the rules inside of it do. -/
theorem extent_of_reads {name : Rule α}
    (reads : Reads text rule (phrase name) start value stop) :
    Extent text name start stop := by
  refine ⟨le_of_reads extent reads, fun firm => ?_⟩
  obtain ⟨opening, closing⟩ := opens_closes_of_isFirm name firm
  constructor
  · simpa using firmFrom_of_reads extent opening reads
  · simpa using firmTo_of_reads extent closing reads

end Reading

end Grammar

end Gloss
