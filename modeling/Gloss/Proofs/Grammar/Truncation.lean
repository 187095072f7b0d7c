import Gloss.Proofs.Grammar.Beginnings

/-!
# Texts that are cut off

A rule that matches part of a text finds the same match in the text that ends
there.  This is no matter of course: an optional part, a repetition or the first
of two alternatives that is refused in the whole text might be found in less of
it.  The choices of the grammar are such that what could go on at a place
excludes what comes there, so that nothing is found for that the text is cut off.
Names are the exception, which are no keywords because a letter follows that
cannot be in a name.
-/

namespace Gloss

/-! ### Tokens in a text that is cut off -/

namespace Token

open Text (Foreign isNamePart isWord)

variable {text : List Char} {count kept : Nat}

theorem takeWhile_take {test : Char → Bool} (fits : (text.takeWhile test).length ≤ kept) :
    (text.take kept).takeWhile test = text.takeWhile test := by
  induction text generalizing kept with
  | nil => simp
  | cons first rest ih =>
      cases holds : test first with
      | false => cases kept <;> simp [holds]
      | true =>
          rw [List.takeWhile_cons_of_pos holds, List.length_cons] at fits
          obtain ⟨kept, rfl⟩ : ∃ less, kept = less + 1 := ⟨kept - 1, by omega⟩
          rw [List.take_succ_cons, List.takeWhile_cons_of_pos holds,
            List.takeWhile_cons_of_pos holds, ih (by omega)]

theorem scanSymbol_take {symbol : List Char} (scanned : scanSymbol symbol text = some count)
    (fits : count ≤ kept) : scanSymbol symbol (text.take kept) = some count := by
  obtain ⟨rfl, isPrefix⟩ := scanSymbol_eq_some scanned
  have inCut := List.prefix_take_iff.mpr ⟨isPrefix, fits⟩
  rw [scanSymbol, if_pos (List.isPrefixOf_iff_prefix.mpr inCut)]

theorem endsWord_take (positive : 0 < kept) : endsWord (text.take kept) = endsWord text := by
  cases text with
  | nil => rw [List.take_nil]
  | cons first rest =>
      obtain ⟨kept, rfl⟩ : ∃ less, kept = less + 1 := ⟨kept - 1, by omega⟩
      rfl

theorem scanWord_eq_some_iff {word : List Char} :
    scanWord word text = some count ↔
      count = word.length ∧ word <+: text ∧ endsWord (text.drop word.length) = true := by
  rw [scanWord, ← List.isPrefixOf_iff_prefix]
  cases word.isPrefixOf text <;> cases endsWord (text.drop word.length) <;> simp [eq_comm]

theorem scanWord_take {word : List Char} (scanned : scanWord word text = some count)
    (fits : count ≤ kept) : scanWord word (text.take kept) = some count := by
  obtain ⟨rfl, isPrefix, ends⟩ := scanWord_eq_some_iff.mp scanned
  refine scanWord_eq_some_iff.mpr ⟨rfl, List.prefix_take_iff.mpr ⟨isPrefix, fits⟩, ?_⟩
  rw [List.drop_take]
  rcases Nat.eq_zero_or_pos (kept - word.length) with none | positive
  · rw [none, List.take_zero]
    rfl
  · rw [endsWord_take positive, ends]

/-- At most one keyword is found. -/
theorem scanKeywords_eq_some_iff {keywords : List Keyword} :
    scanKeywords keywords text = some count ↔
      ∃ keyword ∈ keywords, scanWord keyword.text.toList text = some count := by
  constructor
  · exact List.exists_of_findSome?_eq_some
  · rintro ⟨keyword, isKeyword, scanned⟩
    cases found : scanKeywords keywords text with
    | none =>
        rw [scanKeywords, List.findSome?_eq_none_iff] at found
        rw [found keyword isKeyword] at scanned
        cases scanned
    | some other =>
        obtain ⟨second, -, rfl, isPrefix⟩ := scanKeywords_eq_some found
        obtain ⟨rfl, isOther⟩ := scanWord_eq_some scanned
        rw [Keyword.eq_of_isPrefix isPrefix isOther]

theorem scanKeywords_take {keywords : List Keyword}
    (scanned : scanKeywords keywords text = some count) (fits : count ≤ kept) :
    scanKeywords keywords (text.take kept) = some count := by
  obtain ⟨keyword, isKeyword, found⟩ := scanKeywords_eq_some_iff.mp scanned
  exact scanKeywords_eq_some_iff.mpr ⟨keyword, isKeyword, scanWord_take found fits⟩

/-- A name goes on as long as a keyword at its start. -/
theorem length_le_of_scanName (scanned : scanName text = some count) {keyword : Keyword}
    (begins : keyword.text.toList <+: text) : keyword.text.toList.length ≤ count := by
  obtain ⟨behind, inText⟩ := begins
  obtain ⟨first, rest, rfl, starts, rfl⟩ := scanName_eq_some scanned
  have whole : ((first :: rest).takeWhile isNamePart).length =
      1 + (rest.takeWhile isNamePart).length := by
    rw [List.takeWhile_cons_of_pos (isNamePart_of_isNameStart starts), List.length_cons,
      Nat.add_comm]
  rw [← whole, ← inText, List.takeWhile_append_of_pos fun _ => isNamePart_of_mem_keyword keyword,
    List.length_append]
  exact Nat.le_add_right ..

/-- A name is still a name in a text that is cut off behind it, unless the cut is before a word
character that cannot be in a name. -/
theorem scanName_take (scanned : scanName text = some count) (fits : count ≤ kept)
    (native : ¬Foreign text kept) : scanName (text.take kept) = some count := by
  have noKeyword : scanKeywords Keyword.all (text.take kept) = none := by
    refine List.findSome?_eq_none_iff.mpr fun keyword _ => Option.eq_none_iff_forall_ne_some.mpr ?_
    intro length found
    obtain ⟨rfl, isPrefix, ends⟩ := scanWord_eq_some_iff.mp found
    have inText := isPrefix.trans (List.take_prefix kept text)
    rw [List.drop_take] at ends
    rcases Nat.lt_or_eq_of_le (List.prefix_take_iff.mp isPrefix).2 with before | rfl
    · rw [endsWord_take (by omega)] at ends
      have refused := scanWord_eq_none_of_scanName scanned keyword
      rw [scanWord_eq_some_iff.mpr ⟨rfl, inText, ends⟩] at refused
      cases refused
    · have whole := Nat.le_antisymm fits (length_le_of_scanName scanned inText)
      have isKeyword : text.take count = keyword.text.toList := by
        rw [whole]
        exact (List.prefix_iff_eq_take.mp inText).symm
      exact native (whole ▸ foreign_of_scanName scanned isKeyword)
  obtain ⟨first, rest, rfl, starts, rfl⟩ := scanName_eq_some scanned
  obtain ⟨kept, rfl⟩ : ∃ less, kept = less + 1 := ⟨kept - 1, by omega⟩
  rw [List.take_succ_cons] at noKeyword ⊢
  rw [scanName.eq_2, noKeyword, starts, takeWhile_take (by omega)]
  rfl

theorem scanDigits_take (scanned : scanDigits text = some count) (fits : count ≤ kept) :
    scanDigits (text.take kept) = some count := by
  obtain ⟨-, isCount⟩ := scanDigits_eq_some scanned
  unfold scanDigits at scanned ⊢
  rwa [takeWhile_take (isCount ▸ fits)]

theorem scanQuotedRest_take (scanned : scanQuotedRest text = some count) (fits : count ≤ kept) :
    scanQuotedRest (text.take kept) = some count := by
  induction text using scanQuotedRest.induct generalizing count kept with
  | case1 => cases scanned
  | case2 rest => simp [scanQuotedRest] at scanned
  | case3 escaped rest notEnd ih =>
      simp only [scanQuotedRest, notEnd, if_false, Option.map_eq_some_iff] at scanned
      obtain ⟨later, found, rfl⟩ := scanned
      obtain ⟨kept, rfl⟩ : ∃ less, kept = less + 2 := ⟨kept - 2, by omega⟩
      rw [List.take_succ_cons, List.take_succ_cons, scanQuotedRest, if_neg notEnd,
        ih found (by omega)]
      rfl
  | case4 rest notEscape =>
      rw [scanQuotedRest.eq_3 _ _ notEscape, if_pos rfl, Option.some.injEq] at scanned
      obtain ⟨kept, rfl⟩ : ∃ less, kept = less + 1 := ⟨kept - 1, by omega⟩
      have noEscape : '\x22' ≠ '\\' := by decide
      rw [List.take_succ_cons, scanQuotedRest.eq_3 '\x22' _ fun _ _ isEscape _ => noEscape isEscape,
        if_pos rfl, scanned]
  | case5 character rest notEscape notQuote refused =>
      rw [scanQuotedRest.eq_3 _ _ notEscape, if_neg notQuote, if_pos refused] at scanned
      cases scanned
  | case6 character rest notEscape notQuote accepted ih =>
      rw [scanQuotedRest.eq_3 _ _ notEscape, if_neg notQuote, if_neg accepted,
        Option.map_eq_some_iff] at scanned
      obtain ⟨later, found, rfl⟩ := scanned
      obtain ⟨kept, rfl⟩ : ∃ less, kept = less + 1 := ⟨kept - 1, by omega⟩
      have noEscape : character ≠ '\\' := by
        rintro rfl
        exact accepted rfl
      rw [List.take_succ_cons, scanQuotedRest.eq_3 _ _ fun _ _ isEscape _ => noEscape isEscape,
        if_neg notQuote, if_neg accepted, ih found (by omega)]
      rfl

theorem scanQuoted_take (scanned : scanQuoted text = some count) (fits : count ≤ kept) :
    scanQuoted (text.take kept) = some count := by
  unfold scanQuoted at scanned
  split at scanned
  · next rest =>
      obtain ⟨later, found, rfl⟩ := Option.map_eq_some_iff.mp scanned
      obtain ⟨kept, rfl⟩ : ∃ less, kept = less + 1 := ⟨kept - 1, by omega⟩
      rw [List.take_succ_cons, scanQuoted, scanQuotedRest_take found (by omega)]
      rfl
  · cases scanned

theorem blankLength_take {inComment : Bool} (fits : blankLength inComment text ≤ kept) :
    blankLength inComment (text.take kept) = blankLength inComment text := by
  fun_induction blankLength inComment text generalizing kept with
  | case1 => rw [List.take_nil, blankLength]
  | case2 character rest ih =>
      obtain ⟨kept, rfl⟩ : ∃ less, kept = less + 1 := ⟨kept - 1, by omega⟩
      rw [List.take_succ_cons, blankLength, ih (by omega)]
  | case3 rest ih =>
      obtain ⟨kept, rfl⟩ : ∃ less, kept = less + 2 := ⟨kept - 2, by omega⟩
      rw [List.take_succ_cons, List.take_succ_cons, blankLength, ih (by omega)]
  | case4 character rest noComment blank ih =>
      obtain ⟨kept, rfl⟩ : ∃ less, kept = less + 1 := ⟨kept - 1, by omega⟩
      have noSlash : character ≠ '/' := by
        rintro rfl
        cases blank
      rw [List.take_succ_cons, blankLength.eq_4 _ _ fun _ isSlash _ => noSlash isSlash,
        if_pos blank, ih (by omega)]
  | case5 character rest noComment solid =>
      cases kept with
      | zero => rfl
      | succ kept =>
          rw [List.take_succ_cons, blankLength.eq_4 _ _ ?_, if_neg solid]
          intro others isSlash startsWithSlash
          cases rest with
          | nil => simp at startsWithSlash
          | cons second others =>
              cases kept with
              | zero => cases startsWithSlash
              | succ kept => exact noComment others isSlash (by simp_all)

theorem scan_take {token : Token} (scanned : token.scan text = some count) (fits : count ≤ kept)
    (native : ¬Foreign text kept) : token.scan (text.take kept) = some count := by
  cases token with
  | symbol symbol => exact scanSymbol_take scanned fits
  | keyword | binding | truth => exact scanKeywords_take scanned fits
  | name => exact scanName_take scanned fits native
  | digits => exact scanDigits_take scanned fits
  | quoted => exact scanQuoted_take scanned fits
  | blanks =>
      cases scanned
      exact congrArg some (blankLength_take fits)

end Token

/-! ### Cursors in a text that is cut off -/

namespace Cursor

variable {text : List Char} {cursor : Cursor} {cut : Nat}

/-- The cursor in the text that is cut off at an offset. -/
def upTo (cut : Nat) (cursor : Cursor) : Cursor :=
  ⟨cursor.offset, cursor.rest.take (cut - cursor.offset)⟩

theorem In.upTo (stands : cursor.In text) (before : cursor.offset ≤ cut) :
    (cursor.upTo cut).In (text.take cut) := by
  refine ⟨?_, ?_⟩
  · rw [Cursor.upTo, stands.rest, List.drop_take]
  · rw [List.length_take]
    exact Nat.le_min.mpr ⟨before, stands.inText⟩

theorem advance_upTo {count : Nat} (cursor : Cursor) (cut : Nat) :
    (cursor.upTo cut).advance count = (cursor.advance count).upTo cut := by
  simp only [upTo, advance, List.drop_take, Nat.sub_sub]

end Cursor

namespace Grammar

open Text (Foreign)

variable {text : List Char} {cut : Nat} {α β : Type} {cursor next : Cursor}

theorem scan_upTo {token : Token} {count : Nat} (stands : cursor.In text)
    (scanned : token.scan cursor.rest = some count) (within : (cursor.advance count).offset ≤ cut)
    (native : ¬Foreign text cut) : token.scan (cursor.upTo cut).rest = some count := by
  have le : cursor.offset + count ≤ cut := within
  refine Token.scan_take scanned (by omega) ?_
  rintro ⟨character, found, foreign⟩
  refine native ⟨character, ?_, foreign⟩
  rwa [stands.rest, List.getElem?_drop, Nat.add_sub_cancel' (by omega)] at found

theorem skip_upTo (stands : cursor.In text) (within : cursor.skip.offset ≤ cut)
    (native : ¬Foreign text cut) : (cursor.upTo cut).skip = cursor.skip.upTo cut := by
  have scanned : Token.blanks.scan (cursor.upTo cut).rest = _ :=
    scan_upTo stands rfl within native
  rw [Cursor.skip, Option.some.inj scanned, Cursor.advance_upTo]
  rfl

/-- A phrase with any type of value. -/
structure AnyPhrase where
  {value : Type}
  phrase : Phrase value

/-- The phrase is not found at the cursor only because the text is cut off. -/
def Kept (cut : Nat) (described : Phrase α) (cursor : Cursor) : Prop :=
  Fits described (cursor.upTo cut) → Fits described cursor

/-! ### What could have gone on behind a match -/

/-- How an expression can go on behind its end. -/
def expressionTails : List AnyPhrase :=
  [⟨operation .comparisonOperator .additive⟩, ⟨operation .additiveOperator .multiplicative⟩,
    ⟨operation .multiplicativeOperator .suffixed⟩, ⟨.rule .suffix⟩,
    ⟨blank *> .rule .elseKeyword *> blank *> .rule .expression⟩]

def typeTails : List AnyPhrase := [⟨.rule .nullable⟩, ⟨.rule .typeArguments⟩]

def propertyTails : List AnyPhrase :=
  ⟨separator "=" *> .rule .expression⟩ :: ⟨separator ":" *> .rule .type⟩ ::
    (typeTails ++ expressionTails)

def classTails : List AnyPhrase :=
  [⟨blank *> .rule .typeParameters⟩, ⟨blank *> .rule .constructorParameters⟩,
    ⟨blank *> .rule .classBody⟩]

def semicolon : AnyPhrase := ⟨blank *> symbol ";"⟩

def listTail (text : String) (item : Rule α) : AnyPhrase := ⟨(separator text).before (.rule item)⟩

/-- The phrases with which a match of a rule could have gone on behind its end. -/
def ruleTails : {α : Type} → Rule α → List AnyPhrase
  | _, .file =>
      ⟨.rule .topLevel⟩ :: ⟨.rule .packagePart⟩ :: semicolon :: listTail "." .nameReference ::
        (classTails ++ propertyTails)
  | _, .packagePart | _, .packageHeader => [semicolon, listTail "." .nameReference]
  | _, .topLevel => semicolon :: (classTails ++ propertyTails)
  | _, .qualifiedName => [listTail "." .nameReference]
  | _, .declaration => classTails ++ propertyTails
  | _, .member | _, .propertyDeclaration | _, .statementBody => propertyTails
  | _, .classDeclaration => classTails
  | _, .constructorParameterList => listTail "," .constructorParameter :: typeTails
  | _, .valueParameters => listTail "," .valueParameter :: typeTails
  | _, .constructorParameter | _, .valueParameter | _, .type | _, .typeBody | _, .functionType =>
      typeTails
  | _, .namedType => [⟨.rule .typeArguments⟩]
  | _, .typeList => listTail "," .type :: typeTails
  | _, .statement => semicolon :: propertyTails
  | _, .functionDeclaration | _, .functionBody | _, .expressionBody | _, .expression
  | _, .additive | _, .multiplicative | _, .suffixed | _, .primary | _, .conditional =>
      expressionTails
  | _, .arguments => listTail "," .expression :: expressionTails
  | _, _ => []

/-- The phrases with which a match could have gone on behind its end. -/
def tails : {α : Type} → Phrase α → List AnyPhrase
  | _, .token _ => []
  | _, .rule name => ruleTails name
  | _, .both first second => tails second ++ if takes second then [] else tails first
  | _, .either first second => tails first ++ tails second
  | _, .optional inner => ⟨inner⟩ :: tails inner
  | _, .many inner => ⟨inner⟩ :: tails inner
  | _, .map _ inner => tails inner
  | _, .spanned inner => tails inner

theorem tails_phrase (name : Rule α) : ∀ tail ∈ tails (phrase name), tail ∈ ruleTails name := by
  refine List.forall_iff_forall_mem.mp ?_
  cases name <;> repeat' first
    | exact trivial
    | exact List.Mem.head _
    | apply List.Mem.tail
    | refine ⟨?_, ?_⟩

/-! ### What comes behind a match leaves no choice -/

/-- Whether a phrase never begins where blanks could begin. -/
def opensSolid (described : Phrase α) : Bool :=
  match starts? described with
  | some starts => starts.all fun start => !start.spaced && start.token.isSolid
  | none => false

/-- Whether a phrase fits only where another one does not that comes next, or where that one takes
no token. -/
def givesWay (tail : Phrase α) : {β : Type} → Phrase β → Bool
  | _, .rule .blank => leadsBlank tail || opensSolid tail
  | _, .rule name => excludes tail (.rule name)
  | _, .token token => excludes tail (.token token)
  | _, .both first second =>
      excludes tail (.both first second) ||
        givesWay tail first && (takes first || givesWay tail second)
  | _, .either first second => givesWay tail first && givesWay tail second
  | _, .optional inner => givesWay tail inner
  | _, .many inner => givesWay tail inner
  | _, .map _ inner => givesWay tail inner
  | _, .spanned inner => givesWay tail inner

/-- A phrase is kept where another one comes next, also in the text that is cut off. -/
def Yields (tail : Phrase α) (described : Phrase β) : Prop :=
  ∀ {text : List Char} {cut : Nat} {cursor next : Cursor} {value : β},
    cursor.In text → matchPhrase described cursor = .matched value next →
      Fits described (cursor.upTo cut) →
        (takes described = false → Kept cut tail next) → Kept cut tail cursor

/-- Whether the parts of a phrase leave one another no choice. -/
def Ordered : {α : Type} → Phrase α → Prop
  | _, .token _ | _, .rule _ => True
  | _, .both first second =>
      Ordered first ∧ Ordered second ∧
        ∀ tail ∈ tails first, givesWay tail.phrase second = true ∨ Yields tail.phrase second
  | _, .either first second =>
      Ordered first ∧ Ordered second ∧ takes second = true ∧
        (givesWay first second = true ∨ Yields first second)
  | _, .optional inner => Ordered inner
  | _, .many inner =>
      Ordered inner ∧ takes inner = true ∧
        ∀ tail ∈ tails inner, givesWay tail.phrase inner = true ∨ Yields tail.phrase inner
  | _, .map _ inner => Ordered inner
  | _, .spanned inner => Ordered inner

def isOrdered : {α : Type} → Phrase α → Bool
  | _, .token _ | _, .rule _ => true
  | _, .both first second =>
      isOrdered first && isOrdered second &&
        (tails first).all fun tail => givesWay tail.phrase second
  | _, .either first second =>
      isOrdered first && isOrdered second && takes second && givesWay first second
  | _, .optional inner => isOrdered inner
  | _, .many inner =>
      isOrdered inner && takes inner && (tails inner).all fun tail => givesWay tail.phrase inner
  | _, .map _ inner => isOrdered inner
  | _, .spanned inner => isOrdered inner

theorem ordered_of_isOrdered {described : Phrase α} (ordered : isOrdered described = true) :
    Ordered described := by
  induction described with
  | token | rule => trivial
  | both first second firstIh secondIh =>
      simp only [isOrdered, Bool.and_eq_true, List.all_eq_true] at ordered
      exact ⟨firstIh ordered.1.1, secondIh ordered.1.2, fun tail isTail =>
        .inl (ordered.2 tail isTail)⟩
  | either first second firstIh secondIh =>
      simp only [isOrdered, Bool.and_eq_true] at ordered
      exact ⟨firstIh ordered.1.1.1, secondIh ordered.1.1.2, ordered.1.2, .inl ordered.2⟩
  | many inner ih =>
      simp only [isOrdered, Bool.and_eq_true, List.all_eq_true] at ordered
      exact ⟨ih ordered.1.1, ordered.1.2, fun tail isTail => .inl (ordered.2 tail isTail)⟩
  | optional _ ih | map _ _ ih | spanned _ ih => exact ih ordered

section Kept

variable {described : Phrase α} {tail : Phrase β} {value : α}

theorem kept_of_excludes (exclude : excludes tail described = true)
    (stands : (cursor.upTo cut).In (text.take cut)) (fits : Fits described (cursor.upTo cut)) :
    Kept cut tail cursor := fun tailFits =>
  absurd tailFits (not_fits_of_excludes exclude stands fits)

/-- Blanks before a phrase make no difference, or none can come before it. -/
theorem kept_before_blank (gives : givesWay tail blank = true) (stands : cursor.In text)
    (within : cursor.skip.offset ≤ cut) (native : ¬Foreign text cut)
    (kept : Kept cut tail cursor.skip) : Kept cut tail cursor := by
  rintro ⟨value, next, run⟩
  have skipped := skip_upTo stands within native
  rcases Bool.or_eq_true_iff.mp gives with leads | solid
  · rw [← matchPhrase_skip leads, skipped] at run
    obtain ⟨value, next, run⟩ := kept ⟨value, next, run⟩
    exact ⟨value, next, matchPhrase_skip leads cursor ▸ run⟩
  · unfold opensSolid at solid
    split at solid
    · next starts begins =>
        have before := Nat.le_trans (Nat.le_add_right ..) within
        obtain ⟨start, isStart, starts⟩ :=
          exists_start_of_fits begins (stands.upTo before) ⟨value, next, run⟩
        have direct := List.all_eq_true.mp solid start isStart
        simp only [Bool.and_eq_true, Bool.not_eq_true'] at direct
        have here := Start.skip_eq_self_of_at direct.1 direct.2 starts
        have sameOffset : (cursor.skip.upTo cut).offset = (cursor.upTo cut).offset :=
          congrArg Cursor.offset (skipped.symm.trans here)
        have none : Token.blankLength false cursor.rest = 0 := Nat.add_eq_left.mp sameOffset
        rw [Cursor.skip_eq_self none] at kept
        exact kept ⟨value, next, run⟩
    · cases solid

/-- What is kept before an item is kept before a repetition of it, if it is kept behind it. -/
theorem kept_before_many {values : List α} (yields : Yields tail described)
    (nonempty : takes described = true) (stands : cursor.In text)
    (run : matchPhrase (.many described) cursor = .matched values next)
    (runCut : matchPhrase (.many described) (cursor.upTo cut) = .matched values (next.upTo cut))
    (kept : Kept cut tail next) : Kept cut tail cursor := by
  by_cases fits : Fits described cursor
  · by_cases fitsCut : Fits described (cursor.upTo cut)
    · obtain ⟨value, middle, itemRun⟩ := fits
      exact yields stands itemRun fitsCut fun idle => absurd (nonempty.symm.trans idle) nofun
    · obtain ⟨-, atEnd⟩ := Outcome.matched.inj ((matchPhrase_many_none fitsCut).symm.trans runCut)
      have nextStands := in_of_run_movesOn movesOn_matchRule stands run
      have sameOffset : (cursor.upTo cut).offset = (next.upTo cut).offset := by rw [atEnd]
      change cursor.offset = next.offset at sameOffset
      rwa [← stands.eq, sameOffset, nextStands.eq]
  · obtain ⟨-, rfl⟩ := Outcome.matched.inj ((matchPhrase_many_none fits).symm.trans run)
    exact kept

end Kept

/-! ### The grammar leaves no choice -/

theorem yields_self (described : Phrase α) : Yields described described :=
  fun _ run _ _ _ => ⟨_, _, run⟩

theorem yields_optional (described : Phrase α) : Yields described (.optional described) := by
  intro text cut cursor next value _ run _ kept
  by_cases fits : Fits described cursor
  · exact fun _ => fits
  · obtain ⟨-, rfl⟩ := Outcome.matched.inj ((matchPhrase_optional_none fits).symm.trans run)
    exact kept rfl

theorem yields_many (described : Phrase α) : Yields described (.many described) := by
  intro text cut cursor next value _ run _ kept
  by_cases fits : Fits described cursor
  · exact fun _ => fits
  · obtain ⟨-, rfl⟩ := Outcome.matched.inj ((matchPhrase_many_none fits).symm.trans run)
    exact kept rfl

/-- A symbol in a text that is cut off is in the text. -/
theorem kept_symbol (text : String) (cursor : Cursor) : Kept cut (symbol text) cursor := by
  intro fits
  obtain ⟨count, scanned⟩ := fits_token.mp fits
  obtain ⟨rfl, isPrefix⟩ := Token.scanSymbol_eq_some scanned
  refine fits_token.mpr ⟨_, if_pos (List.isPrefixOf_iff_prefix.mpr ?_)⟩
  exact isPrefix.trans (List.take_prefix _ _)

theorem yields_operator (sign : Tree.Operator) (described : Phrase α) :
    Yields (operator sign) described := by
  intro text cut cursor next value _ _ _ _ fits
  exact fits_map.mpr (fits_spanned.mpr (kept_symbol _ _ (fits_spanned.mp (fits_map.mp fits))))

/-- A statement that begins with a parenthesis is a parenthesized expression at its start. -/
theorem fits_parenthesized {cursor : Cursor} (stands : cursor.In text)
    (fits : Fits (.rule .statement) cursor) (opens : Fits (symbol "(") cursor) :
    Fits (.rule .parenthesized) cursor := by
  have refuses : ∀ {α : Type} {other : Phrase α}, excludes other (symbol "(") = true →
      ¬Fits other cursor := fun exclude => not_fits_of_excludes exclude stands opens
  have body : Fits (.rule .statementBody) cursor := fits_first (fits_map.mp (fits_rule.mp fits))
  have expression : Fits (.rule .expression) cursor := by
    rcases fits_either.mp (fits_rule.mp body) with property | expression
    · exact absurd (fits_map.mp property) (refuses (by decide +kernel))
    · exact fits_map.mp expression
  have additive : Fits (.rule .additive) cursor :=
    fits_first (fits_map.mp (fits_rule.mp expression))
  have multiplicative : Fits (.rule .multiplicative) cursor :=
    fits_first (fits_map.mp (fits_rule.mp additive))
  have suffixed : Fits (.rule .suffixed) cursor :=
    fits_first (fits_map.mp (fits_rule.mp multiplicative))
  have primary : Fits (.rule .primary) cursor := fits_first (fits_map.mp (fits_rule.mp suffixed))
  rcases fits_either.mp (fits_rule.mp primary) with conditional | others
  · exact absurd conditional (refuses (by decide +kernel))
  rcases fits_either.mp others with literal | others
  · exact absurd literal (refuses (by decide +kernel))
  rcases fits_either.mp others with reference | others
  · exact absurd reference (refuses (by decide +kernel))
  rcases fits_either.mp others with parenthesized | name
  · exact parenthesized
  · exact absurd name (refuses (by decide +kernel))

/-- A bracketed phrase stands behind an opening symbol and blanks, and blanks and a closing symbol
come behind it. -/
theorem fits_bracketed {opening closing : String} {inner : Phrase α} :
    Fits (bracketed opening closing inner) cursor ↔
      ∃ sign opened value behind, matchPhrase (symbol opening) cursor = .matched sign opened ∧
        matchPhrase inner opened.skip = .matched value behind ∧
          Fits (symbol closing) behind.skip := by
  constructor
  · intro fits
    obtain ⟨value, closingAt, run, closes⟩ := fits_both.mp (fits_map.mp fits)
    obtain ⟨_, behind, run, skips⟩ := matchPhrase_followedBy_eq_matched_iff.mp run
    obtain ⟨_, start, run, innerRun⟩ := matchPhrase_before_eq_matched_iff.mp run
    obtain ⟨sign, opened, opens, skipsFirst⟩ := matchPhrase_before_eq_matched_iff.mp run
    obtain rfl := eq_skip_of_matchPhrase_blank skips
    obtain rfl := eq_skip_of_matchPhrase_blank skipsFirst
    exact ⟨sign, opened, _, behind, opens, innerRun, closes⟩
  · rintro ⟨sign, opened, value, behind, opens, innerRun, closes⟩
    have before := Peg.run_before (Peg.run_before opens (matchPhrase_blank opened)) innerRun
    exact fits_map.mpr (fits_both.mpr
      ⟨value, _, Peg.run_followedBy before (matchPhrase_blank behind), closes⟩)

/-- Where a parenthesized expression is, there is an argument. -/
theorem fits_callSuffix {cursor : Cursor} (stands : cursor.In text)
    (fits : Fits (.rule .parenthesized) cursor) : Fits (.rule .callSuffix) cursor := by
  obtain ⟨sign, opened, value, behind, opens, inside, closes⟩ :=
    fits_bracketed.mp (fits_spanned.mp (fits_map.mp (fits_rule.mp fits)))
  have openedStands := in_of_run_movesOn movesOn_matchRule stands opens
  have startStands : opened.skip.In text :=
    in_of_run_movesOn movesOn_matchRule openedStands (matchPhrase_blank opened)
  have behindStands := in_of_run_movesOn movesOn_matchRule startStands inside
  have closing : Fits (blank *> symbol ")") behind :=
    fits_map.mpr (fits_both.mpr ⟨_, _, matchPhrase_blank behind, closes⟩)
  have noMore : ¬Fits ((separator ",").before (.rule .expression)) behind :=
    not_fits_of_excludes (by decide +kernel) behindStands closing
  have one : matchPhrase (.rule .arguments) opened.skip = .matched [value] behind :=
    (matchPhrase_rule _ _).trans
      (Peg.run_map (Peg.run_both inside (matchPhrase_many_none noMore)))
  exact fits_rule.mpr (fits_map.mpr (fits_spanned.mpr (fits_bracketed.mpr
    ⟨sign, opened, _, behind, opens, Peg.run_map (Peg.run_optional one), closes⟩)))

/-- A statement in parentheses right behind another one would be its arguments. -/
theorem yields_suffix : Yields (.rule .suffix) (.rule .statement <* blank) := by
  intro text cut cursor next value stands run fitsCut _ tailFits
  obtain ⟨_, standsCut⟩ := exists_in (cursor.upTo cut)
  have statement : Fits (.rule .statement) cursor := fits_first (fits_map.mp ⟨value, next, run⟩)
  rcases fits_either.mp (fits_rule.mp tailFits) with call | member
  · obtain ⟨sign, opened, -, -, opens, -⟩ :=
      fits_bracketed.mp (fits_spanned.mp (fits_map.mp (fits_rule.mp call)))
    have parenthesis := kept_symbol "(" cursor ⟨sign, opened, opens⟩
    exact fits_rule.mpr (fits_either.mpr (.inl
      (fits_callSuffix stands (fits_parenthesized stands statement parenthesis))))
  · exact absurd member (not_fits_of_excludes (by decide +kernel) standsCut fitsCut)

/-- Two colons in a row are no colon before a type. -/
theorem not_fits_typed {rest : List Char} (doubled : cursor.rest = ':' :: ':' :: rest) :
    ¬Fits (separator ":" *> .rule .type) cursor := by
  intro fits
  obtain ⟨_, beforeType, run, type⟩ := fits_both.mp (fits_map.mp fits)
  obtain ⟨_, colon, run, skips⟩ := matchPhrase_before_eq_matched_iff.mp run
  obtain ⟨_, start, skipsFirst, colonRun⟩ := matchPhrase_before_eq_matched_iff.mp run
  obtain rfl := eq_skip_of_matchPhrase_blank skips
  obtain rfl := eq_skip_of_matchPhrase_blank skipsFirst
  have noBlank : ∀ place : Cursor, ∀ others, place.rest = ':' :: others → place.skip = place :=
    fun place others isRest => Cursor.skip_eq_self (isRest ▸
      Token.blankLength_eq_zero (by decide) (by decide) others)
  have isColon : ∀ place : Cursor, ∀ others, place.rest = ':' :: others →
      matchPhrase (symbol ":") place = .matched [':'] (place.advance 1) := by
    intro place others isRest
    have scanned : (Token.symbol ":").scan place.rest = some 1 := by
      rw [isRest]
      rfl
    have taken : place.rest.take 1 = [':'] := by
      rw [isRest]
      rfl
    exact (matchPhrase_token scanned).trans (taken ▸ rfl)
  rw [noBlank _ _ doubled] at colonRun
  obtain ⟨-, rfl⟩ := Outcome.matched.inj ((isColon _ _ doubled).symm.trans colonRun)
  have second : (cursor.advance 1).rest = ':' :: rest := by
    rw [Cursor.advance, doubled]
    rfl
  rw [noBlank _ _ second] at type
  obtain ⟨_, stands⟩ := exists_in (cursor.advance 1)
  exact not_fits_of_excludes (by decide +kernel) stands ⟨_, _, isColon _ _ second⟩ type

/-- A statement can begin with a colon, but then two come. -/
theorem yields_typed :
    Yields (separator ":" *> .rule .type) (.rule .statement <* blank) := by
  intro text cut cursor next value _ _ fitsCut _ tailFits
  obtain ⟨_, standsCut⟩ := exists_in (cursor.upTo cut)
  obtain ⟨starts, begins, only⟩ := (Option.any_eq_true ..).mp
    (by decide +kernel : (starts? (.rule .statement <* blank)).any (fun starts =>
      starts.all fun start => start.apart ⟨true, .symbol ":"⟩ || start = ⟨false, .symbol "::"⟩) =
        true)
  obtain ⟨start, isStart, startsAt⟩ := exists_start_of_fits begins standsCut fitsCut
  have tailBegins : starts? (separator ":" *> .rule .type) = some [⟨true, .symbol ":"⟩] := by
    decide +kernel
  obtain ⟨colon, isColon, colonAt⟩ := exists_start_of_fits tailBegins standsCut tailFits
  obtain rfl := List.mem_singleton.mp isColon
  rcases Bool.or_eq_true_iff.mp (List.all_eq_true.mp only start isStart) with areApart | isDouble
  · exact absurd colonAt (Start.not_at_of_apart areApart startsAt)
  · obtain rfl := of_decide_eq_true isDouble
    obtain ⟨count, scanned⟩ := startsAt
    obtain ⟨-, rest, doubled⟩ := Token.scanSymbol_eq_some scanned
    exact absurd tailFits (not_fits_typed doubled.symm)

theorem gives_of_all {tails : List AnyPhrase} {described : Phrase α}
    (all : (tails.all fun tail => givesWay tail.phrase described) = true) :
    ∀ tail ∈ tails, givesWay tail.phrase described = true ∨ Yields tail.phrase described :=
  fun tail isTail => .inl (List.all_eq_true.mp all tail isTail)

theorem ordered_phrase (name : Rule α) : Ordered (phrase name) := by
  have check : ∀ {β : Type} {described : Phrase β}, isOrdered described = true →
      Ordered described := ordered_of_isOrdered
  cases name with
  | block =>
      refine ⟨⟨check (by decide +kernel), ⟨check (by decide +kernel), rfl, ?_⟩,
        gives_of_all rfl⟩, trivial, ?_⟩
      · refine List.forall_iff_forall_mem.mp ⟨?_, ?_, .inr yields_typed, ?_, ?_, ?_, ?_, ?_,
          .inr yields_suffix, ?_⟩ <;> exact .inl (by decide +kernel)
      · exact gives_of_all (by decide +kernel)
  | type =>
      refine ⟨trivial, trivial, List.forall_iff_forall_mem.mp ⟨.inr (yields_optional _), .inl ?_⟩⟩
      decide +kernel
  | expression =>
      refine ⟨trivial, check (by decide +kernel),
        List.forall_iff_forall_mem.mp ⟨.inr (yields_optional _), ?_, ?_, ?_, ?_⟩⟩ <;>
        exact .inl (by decide +kernel)
  | comparisonOperator =>
      exact ⟨trivial, ⟨trivial, ⟨trivial, ⟨trivial, ⟨trivial, trivial, rfl,
        .inr (yields_operator _ _)⟩, rfl, .inr (yields_operator _ _)⟩, rfl,
        .inr (yields_operator _ _)⟩, rfl, .inr (yields_operator _ _)⟩, rfl,
        .inr (yields_operator _ _)⟩
  | additive =>
      refine ⟨trivial, ⟨check (by decide +kernel), rfl,
        List.forall_iff_forall_mem.mp ⟨?_, .inr (yields_self _), ?_, ?_, ?_⟩⟩,
        List.forall_iff_forall_mem.mp ⟨?_, .inr (yields_many _), ?_, ?_, ?_⟩⟩ <;>
        exact .inl (by decide +kernel)
  | multiplicative =>
      refine ⟨trivial, ⟨check (by decide +kernel), rfl,
        List.forall_iff_forall_mem.mp ⟨?_, ?_, .inr (yields_self _), ?_, ?_⟩⟩,
        List.forall_iff_forall_mem.mp ⟨?_, ?_, .inr (yields_many _), ?_, ?_⟩⟩ <;>
        exact .inl (by decide +kernel)
  | suffixed =>
      refine ⟨trivial, check (by decide +kernel),
        List.forall_iff_forall_mem.mp ⟨?_, ?_, ?_, .inr (yields_many _), ?_⟩⟩ <;>
        exact .inl (by decide +kernel)
  | conditional =>
      refine ⟨check (by decide +kernel), ⟨check (by decide +kernel), ⟨trivial,
        check (by decide +kernel),
        List.forall_iff_forall_mem.mp ⟨?_, ?_, ?_, ?_, .inr (yields_optional _)⟩⟩,
        gives_of_all rfl⟩, gives_of_all rfl⟩ <;>
        exact .inl (by decide +kernel)
  | _ => exact check (by decide +kernel)

/-- A match in the text that is cut off, and what is kept before it. -/
structure Survives (cut : Nat) (described : Phrase α) (cursor : Cursor) (value : α)
    (next : Cursor) : Prop where
  derives : Derives described (cursor.upTo cut) value (next.upTo cut)
  keeps : ∀ {β : Type} (tail : Phrase β), givesWay tail described = true →
    (takes described = false → Kept cut tail next) → Kept cut tail cursor

theorem Survives.kept {described : Phrase α} {value : α}
    (survives : Survives cut described cursor value next) (stands : cursor.In text)
    (within : next.offset ≤ cut) (derives : Derives described cursor value next)
    {tail : Phrase β} (gives : givesWay tail described = true ∨ Yields tail described)
    (keptNext : takes described = false → Kept cut tail next) : Kept cut tail cursor := by
  rcases gives with gives | yields
  · exact survives.keeps tail gives keptNext
  · have before := Nat.le_trans (le_of_derives stands derives) within
    exact yields stands (matchPhrase_of_derives stands derives)
      (fits_of_derives (stands.upTo before) survives.derives) keptNext

/-- A match is found in the text that is cut off behind it, if whatever could have gone on there
is kept. -/
theorem survives_of_derives (native : ¬Foreign text cut) {described : Phrase α} {value : α}
    (derives : Derives described cursor value next) (ordered : Ordered described)
    (stands : cursor.In text) (within : next.offset ≤ cut)
    (kept : ∀ tail ∈ tails described, Kept cut tail.phrase next) :
    Survives cut described cursor value next := by
  -- A refusal stays one in the text that is cut off if what is refused is kept.  What a match
  -- keeps before it is part of the induction, since parts that take nothing pass it on.
  induction derives with
  | @token token cursor count scanned =>
      have before : cursor.offset ≤ cut := Nat.le_trans (Nat.le_add_right ..) within
      have le : cursor.offset + count ≤ cut := within
      have derives := Derives.token (scan_upTo stands scanned within native)
      rw [Cursor.advance_upTo] at derives
      have sameText : (cursor.upTo cut).rest.take count = cursor.rest.take count := by
        rw [Cursor.upTo, List.take_take, Nat.min_eq_left (by omega)]
      rw [sameText] at derives
      exact ⟨derives, fun tail gives _ =>
        kept_of_excludes gives (stands.upTo before) (fits_of_derives (stands.upTo before) derives)⟩
  | @rule _ name cursor next value inner ih =>
      have inside := ih (ordered_phrase name) stands within fun tail isTail =>
        kept tail (tails_phrase name tail isTail)
      have before := Nat.le_trans (le_of_derives stands inner) within
      have derives := Derives.rule inside.derives
      refine ⟨derives, fun tail gives keptNext => ?_⟩
      cases name with
      | blank =>
          obtain rfl := eq_skip_of_matchPhrase_blank (matchPhrase_of_derives stands (.rule inner))
          exact kept_before_blank gives stands within native (keptNext rfl)
      | _ =>
          exact kept_of_excludes gives (stands.upTo before)
            (fits_of_derives (stands.upTo before) derives)
  | @both _ _ first second cursor middle next _ _ firstDerives secondDerives firstIh secondIh =>
      -- The second part comes first: it keeps what the first one could have gone on with.
      obtain ⟨firstOrdered, secondOrdered, gives⟩ := ordered
      have middleStands := in_of_derives stands firstDerives
      have middleWithin := Nat.le_trans (le_of_derives middleStands secondDerives) within
      have secondSurvives := secondIh secondOrdered middleStands within fun tail isTail =>
        kept tail (List.mem_append_left _ isTail)
      have firstSurvives := firstIh firstOrdered stands middleWithin fun tail isTail =>
        secondSurvives.kept middleStands within secondDerives (gives tail isTail) fun idle =>
          kept tail (List.mem_append_right _ (by simpa [idle] using isTail))
      have before := Nat.le_trans (le_of_derives stands firstDerives) middleWithin
      have derives := Derives.both firstSurvives.derives secondSurvives.derives
      refine ⟨derives, fun tail gives keptNext => ?_⟩
      rcases Bool.or_eq_true_iff.mp gives with exclude | gives
      · exact kept_of_excludes exclude (stands.upTo before)
          (fits_of_derives (stands.upTo before) derives)
      obtain ⟨givesFirst, givesSecond⟩ := Bool.and_eq_true_iff.mp gives
      refine firstSurvives.keeps tail givesFirst fun idle => ?_
      rw [idle, Bool.false_or] at givesSecond
      exact secondSurvives.keeps tail givesSecond fun idleSecond =>
        keptNext (by rw [takes, idle, idleSecond, Bool.false_or])
  | @first _ first second cursor next _ firstDerives ih =>
      obtain ⟨firstOrdered, -, -, -⟩ := ordered
      have survives := ih firstOrdered stands within fun tail isTail =>
        kept tail (List.mem_append_left _ isTail)
      refine ⟨.first survives.derives, fun tail gives keptNext => ?_⟩
      exact survives.keeps tail (Bool.and_eq_true_iff.mp gives).1 fun idle =>
        keptNext (by rw [takes, idle, Bool.false_and])
  | @second _ first second cursor next _ refused secondDerives ih =>
      obtain ⟨-, secondOrdered, nonempty, gives⟩ := ordered
      have survives := ih secondOrdered stands within fun tail isTail =>
        kept tail (List.mem_append_right _ isTail)
      have keptFirst := survives.kept stands within secondDerives gives fun idle =>
        absurd (nonempty.symm.trans idle) nofun
      exact ⟨.second (mt keptFirst refused) survives.derives, fun tail gives _ =>
        survives.keeps tail (Bool.and_eq_true_iff.mp gives).2 fun idle =>
          absurd (nonempty.symm.trans idle) nofun⟩
  | @none _ inner cursor refused =>
      have refusedCut := mt (kept ⟨inner⟩ List.mem_cons_self) refused
      exact ⟨.none refusedCut, fun tail _ keptNext => keptNext rfl⟩
  | some _ ih =>
      have survives := ih ordered stands within fun tail isTail =>
        kept tail (List.mem_cons_of_mem _ isTail)
      exact ⟨.some survives.derives, fun tail gives keptNext =>
        survives.keeps tail gives fun _ => keptNext rfl⟩
  | @nil _ inner cursor refused =>
      have refusedCut := mt (kept ⟨inner⟩ List.mem_cons_self) refused
      exact ⟨.nil refusedCut, fun tail _ keptNext => keptNext rfl⟩
  | @cons _ inner cursor middle next _ _ itemDerives moves restDerives itemIh restIh =>
      -- Behind an item comes another one or the end of the repetition; either keeps its tails.
      have rest := restIh ordered (in_of_derives stands itemDerives) within kept
      obtain ⟨itemOrdered, nonempty, gives⟩ := ordered
      have middleStands := in_of_derives stands itemDerives
      have middleWithin := Nat.le_trans (le_of_derives middleStands restDerives) within
      have item := itemIh itemOrdered stands middleWithin fun tail isTail => by
        have keptNext := kept tail (List.mem_cons_of_mem _ isTail)
        rcases gives tail isTail with gives | yields
        · exact rest.keeps tail.phrase gives fun _ => keptNext
        · exact kept_before_many yields nonempty middleStands
            (matchPhrase_of_derives middleStands restDerives)
            (matchPhrase_of_derives (middleStands.upTo middleWithin) rest.derives) keptNext
      exact ⟨.cons item.derives moves rest.derives, fun tail gives _ =>
        item.keeps tail gives fun idle => absurd (nonempty.symm.trans idle) nofun⟩
  | map _ ih =>
      have survives := ih ordered stands within kept
      exact ⟨.map survives.derives, survives.keeps⟩
  | spanned _ ih =>
      have survives := ih ordered stands within kept
      exact ⟨.spanned survives.derives, survives.keeps⟩

/-! ### Texts that are cut off at the end of a match -/

theorem takes_of_mem_ruleTails (name : Rule α) :
    ∀ tail ∈ ruleTails name, takes tail.phrase = true := by
  refine List.all_eq_true.mp ?_
  cases name <;> rfl

/-- At the end of a text no phrase goes on that takes a token. -/
theorem kept_at_end {tail : Phrase β} (nonempty : takes tail = true) (stands : next.In text) :
    Kept next.offset tail next := by
  rintro ⟨value, last, run⟩
  have standsCut := stands.upTo (Nat.le_refl next.offset)
  have moves := lt_of_run_movesOn movesOn_matchRule nonempty standsCut run
  have inText := (in_of_run_movesOn movesOn_matchRule standsCut run).inText
  rw [List.length_take] at inText
  exact absurd moves (Nat.not_lt.mpr (Nat.le_trans inText (Nat.min_le_left ..)))

/-- A rule finds the same match in the text that is cut off at its end, unless the cut is before a
word character that cannot be in a name. -/
theorem matchRule_upTo {name : Rule α} {value : α} (stands : cursor.In text)
    (matched : matchRule name cursor = .matched value next)
    (native : ¬Foreign text next.offset) :
    matchRule name (cursor.upTo next.offset) = .matched value (next.upTo next.offset) := by
  have derives : Derives (.rule name) cursor value next := (derives_iff rfl stands).mpr matched
  have nextStands := in_of_derives stands derives
  have survives := survives_of_derives native derives trivial stands (Nat.le_refl _)
    fun tail isTail => kept_at_end (takes_of_mem_ruleTails name tail isTail) nextStands
  exact matchPhrase_of_derives (stands.upTo (le_of_derives stands derives)) survives.derives

/-- The rule for files refuses no text. -/
theorem exists_matchRule_file (cursor : Cursor) :
    ∃ tree next, matchRule .file cursor = .matched tree next := by
  have blankRun : matchPhrase blank cursor = .matched () cursor.skip := matchPhrase_blank cursor
  obtain ⟨package, middle, packageRun⟩ := fits_optional (.rule .packagePart) cursor.skip
  have parts : Fits (.both (.optional (.rule .packagePart)) (.many (.rule .topLevel)))
      cursor.skip := fits_both.mpr ⟨package, middle, packageRun, fits_many _ middle⟩
  have inside : Fits fileInside cursor := fits_map.mpr (fits_both.mpr ⟨_, _, blankRun, parts⟩)
  have file : Fits (.rule .file) cursor :=
    fits_rule.mpr (fits_map.mpr (fits_spanned.mpr inside))
  exact file

/-- Every word character of ASCII can be in a name. -/
theorem not_foreign_of_ascii (ascii : ∀ character ∈ text, character.toNat < 128) (offset : Nat) :
    ¬Foreign text offset := by
  rintro ⟨character, found, foreign⟩
  have within := ascii character (List.mem_of_getElem? found)
  have inName : Text.isWord character = Text.isNamePart character := by
    simp [Text.isWord, Text.isNamePart, Nat.not_le.mpr within]
  rw [Text.isForeign, inName, Bool.and_not_self] at foreign
  cases foreign

/-- In a text of ASCII everything before the place where reading stops is a complete file, with the
tree that was read up to there. -/
theorem complete_before_fault (text : List Char)
    (ascii : ∀ character ∈ text, character.toNat < 128) :
    ∃ tree stop, stop.In text ∧
      matchRule .file (Cursor.ofText text) = .matched tree stop ∧
      matchRule .file (Cursor.ofText (text.take stop.offset)) = .matched tree ⟨stop.offset, []⟩ ∧
      ∀ file,
        (stop.offset < text.length → read file text = .error (unreadable file text stop)) ∧
        (tree.occurrences.findSome? oversized? = none →
          read file (text.take stop.offset) = .ok tree) := by
  obtain ⟨tree, stop, matched⟩ := exists_matchRule_file (Cursor.ofText text)
  have stands := Cursor.in_ofText text
  have stopStands : stop.In text := in_of_run_movesOn movesOn_matchRule stands
    ((matchRule_eq_matchPhrase _ _).symm.trans matched)
  have cutMatched := matchRule_upTo stands matched (not_foreign_of_ascii ascii _)
  have atEnd : stop.upTo stop.offset = ⟨stop.offset, []⟩ := by
    rw [Cursor.upTo, Nat.sub_self, List.take_zero]
  rw [atEnd] at cutMatched
  refine ⟨tree, stop, stopStands, matched, cutMatched, fun file =>
    ⟨fun before => ?_, fun fits => ?_⟩⟩
  · have more : stop.rest ≠ [] := by
      rw [stopStands.rest]
      exact mt List.drop_eq_nil_iff.mp (Nat.not_le.mpr before)
    simp [read, matched, more]
  · change matchRule .file (Cursor.ofText (text.take stop.offset)) = _ at cutMatched
    simp [read, cutMatched, fits]

/-- Two colons do not begin a type, so the property before them is complete. -/
theorem complete_before_fault_sample :
    (∀ character ∈ "val a = b\nval c :: d".toList, character.toNat < 128) ∧
    ∃ tree stop, stop.offset = 16 ∧
      read "sample" "val a = b\nval c :: d".toList =
        .error (unreadable "sample" "val a = b\nval c :: d".toList stop) ∧
      read "sample" "val a = b\nval c ".toList = .ok tree := by
  have ascii : ∀ character ∈ "val a = b\nval c :: d".toList, character.toNat < 128 :=
    List.forall_iff_forall_mem.mp (by decide)
  have stops : (matchRule .file (Cursor.ofText "val a = b\nval c :: d".toList)).next?.map
      Cursor.offset = some 16 := by decide +kernel
  have fits : (matchRule .file (Cursor.ofText "val a = b\nval c ".toList)).value?.map
      (fun tree => tree.occurrences.findSome? oversized?) = some none := by decide +kernel
  obtain ⟨tree, stop, -, matched, cutMatched, outcomes⟩ := complete_before_fault _ ascii
  rw [matched] at stops
  have isStop : stop.offset = 16 := Option.some.inj stops
  obtain ⟨fault, complete⟩ := outcomes "sample"
  rw [isStop] at fault complete cutMatched
  have cut : "val a = b\nval c :: d".toList.take 16 = "val a = b\nval c ".toList := rfl
  rw [cut] at complete cutMatched
  rw [cutMatched] at fits
  exact ⟨ascii, tree, stop, isStop, fault (by decide), complete (Option.some.inj fits)⟩

end Grammar

end Gloss
