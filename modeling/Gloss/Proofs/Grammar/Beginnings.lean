import Gloss.Proofs.Grammar.Derivations
import Gloss.Proofs.Grammar.Keywords
import Gloss.Proofs.Grammar.Locality

/-!
# What phrases begin with

A phrase begins with one of a few tokens, at once or behind blanks, unless it
takes no token at all.  Two phrases whose first tokens exclude one another never
fit at the same place.
-/

namespace Gloss

/-! ### Tokens that exclude one another -/

namespace Text

/-- The sorts of characters by which tokens begin. -/
inductive Initial where
  | letter
  | digit
  | quote
  | sign
  deriving DecidableEq

def initial (character : Char) : Initial :=
  if isNameStart character then .letter
  else if character.isDigit then .digit
  else if character = '\x22' then .quote
  else .sign

theorem isNameStart_of_isDigit {character : Char} (digit : character.isDigit = true) :
    isNameStart character = false := by
  have noUnderscore : character ≠ '_' := by
    rintro rfl
    cases digit
  delta isNameStart Char.isAlpha Char.isUpper Char.isLower
  simp only [Char.isDigit, Bool.and_eq_true, decide_eq_true_eq, UInt32.le_iff_toNat_le,
    Bool.or_eq_false_iff, Bool.and_eq_false_iff, decide_eq_false_iff_not, beq_eq_false_iff_ne]
    at digit ⊢
  have last : '9'.val.toNat = 57 := rfl
  have upper : 'A'.val.toNat = 65 := rfl
  have lower : 'a'.val.toNat = 97 := rfl
  exact ⟨⟨by omega, by omega⟩, noUnderscore⟩

end Text

/-- No keyword begins another one. -/
theorem Keyword.eq_of_isPrefix {keyword other : Keyword} {text : List Char}
    (isPrefix : keyword.text.toList <+: text) (isOther : other.text.toList <+: text) :
    keyword = other := by
  have apart : ∀ first second : Keyword, first.text.toList <+: second.text.toList →
      first = second := by
    intro first second
    cases first <;> cases second <;> decide
  rcases List.prefix_or_prefix_of_prefix isPrefix isOther with begins | begins
  · exact apart _ _ begins
  · exact (apart _ _ begins).symm

namespace Token

open Text (Initial initial isNameStart isBlank)

/-- The sort of character by which a token begins. -/
def initial? : Token → Option Initial
  | .symbol text => text.toList.head?.map initial
  | .keyword _ | .binding | .truth | .name => some .letter
  | .digits => some .digit
  | .quoted => some .quote
  | .blanks => none

/-- The keywords that a token stands for. -/
def words : Token → List Keyword
  | .keyword word => [word]
  | .binding => [.val, .var]
  | .truth => [.true, .false]
  | _ => []

/-- Whether two tokens with the same initial exclude one another. -/
def differs : Token → Token → Bool
  | .symbol text, .symbol other =>
      !text.toList.isPrefixOf other.toList && !other.toList.isPrefixOf text.toList
  | .name, other => !other.words.isEmpty
  | token, .name => !token.words.isEmpty
  | token, other =>
      !token.words.isEmpty && !other.words.isEmpty && token.words.all (· ∉ other.words)

/-- Whether no text begins with both of two tokens. -/
def apart (token other : Token) : Bool :=
  match token.initial?, other.initial? with
  | some first, some second => first ≠ second || token.differs other
  | _, _ => false

variable {token other : Token} {text : List Char} {count otherCount : Nat}

theorem scan_eq_scanKeywords (isWord : token.words ≠ []) (text : List Char) :
    token.scan text = scanKeywords token.words text := by
  cases token with
  | keyword | binding | truth => rfl
  | symbol | name | digits | quoted | blanks => exact absurd rfl isWord

theorem isNameStart_of_keyword (keyword : Keyword) :
    ∃ first rest, keyword.text.toList = first :: rest ∧ isNameStart first = true := by
  cases keyword <;> exact ⟨_, _, rfl, rfl⟩

/-- A token takes a first character, of its sort. -/
theorem exists_initial_of_scan {sort : Initial} (begins : token.initial? = some sort)
    (scanned : token.scan text = some count) :
    ∃ first rest, text = first :: rest ∧ initial first = sort := by
  have ofKeywords : ∀ keywords : List Keyword, scanKeywords keywords text = some count →
      ∃ first rest, text = first :: rest ∧ initial first = .letter := by
    intro keywords scanned
    obtain ⟨keyword, -, -, behind, rfl⟩ := scanKeywords_eq_some scanned
    obtain ⟨first, rest, spelled, starts⟩ := isNameStart_of_keyword keyword
    exact ⟨first, rest ++ behind, by rw [spelled, List.cons_append], if_pos starts⟩
  cases token with
  | symbol symbol =>
      obtain ⟨-, behind, rfl⟩ := scanSymbol_eq_some scanned
      cases spelled : symbol.toList with
      | nil => simp [initial?, spelled] at begins
      | cons first rest =>
          exact ⟨first, rest ++ behind, by rw [List.cons_append], by
            simpa [initial?, spelled] using begins⟩
  | keyword | binding | truth =>
      cases begins
      exact ofKeywords _ scanned
  | name =>
      cases begins
      obtain ⟨first, rest, isText, starts, -⟩ := scanName_eq_some scanned
      exact ⟨first, rest, isText, if_pos starts⟩
  | digits =>
      cases begins
      obtain ⟨positive, isCount⟩ := scanDigits_eq_some scanned
      cases text with
      | nil => simp at isCount; omega
      | cons first rest =>
          have digit : first.isDigit = true := by
            by_contra noDigit
            simp [noDigit] at isCount
            omega
          refine ⟨first, rest, rfl, ?_⟩
          rw [initial, Text.isNameStart_of_isDigit digit, if_neg Bool.false_ne_true, if_pos digit]
  | quoted =>
      cases begins
      obtain ⟨-, first, -⟩ := scanQuoted_eq_some scanned
      cases text with
      | nil => cases first
      | cons quote rest =>
          cases first
          exact ⟨_, rest, rfl, rfl⟩
  | blanks => cases begins

/-- A text that begins with a name begins with no keyword. -/
theorem scanWord_eq_none_of_scanName (scanned : scanName text = some count) (keyword : Keyword) :
    scanWord keyword.text.toList text = none := by
  obtain ⟨first, rest, rfl, -, -⟩ := scanName_eq_some scanned
  rw [scanName.eq_2] at scanned
  split at scanned
  · next holds =>
      have none := (Bool.and_eq_true_iff.mp holds).1
      rw [Option.isNone_iff_eq_none, scanKeywords, List.findSome?_eq_none_iff] at none
      exact none keyword (by cases keyword <;> decide)
  · cases scanned

theorem not_differs_of_scan (scanned : token.scan text = some count)
    (otherScanned : other.scan text = some otherCount) : token.differs other = false := by
  have noName : ∀ {word : Token} {first second : Nat}, word.words ≠ [] →
      word.scan text = some first → scanName text = some second → False := by
    intro word first second isWord found named
    rw [scan_eq_scanKeywords isWord] at found
    obtain ⟨keyword, -, isKeyword⟩ := List.exists_of_findSome?_eq_some found
    rw [scanWord_eq_none_of_scanName named] at isKeyword
    cases isKeyword
  by_contra differ
  rw [Bool.not_eq_false] at differ
  unfold differs at differ
  split at differ
  · obtain ⟨notBefore, notBehind⟩ := Bool.and_eq_true_iff.mp differ
    have isPrefix := (scanSymbol_eq_some scanned).2
    have isOther := (scanSymbol_eq_some otherScanned).2
    rcases List.prefix_or_prefix_of_prefix isPrefix isOther with begins | begins
    · simp [List.isPrefixOf_iff_prefix.mpr begins] at notBefore
    · simp [List.isPrefixOf_iff_prefix.mpr begins] at notBehind
  · exact noName (by simpa using differ) otherScanned scanned
  · exact noName (by simpa using differ) scanned otherScanned
  · simp only [Bool.and_eq_true, Bool.not_eq_true', List.isEmpty_eq_false_iff] at differ
    obtain ⟨⟨isWord, isOther⟩, disjoint⟩ := differ
    rw [scan_eq_scanKeywords isWord] at scanned
    rw [scan_eq_scanKeywords isOther] at otherScanned
    obtain ⟨keyword, inFirst, -, isPrefix⟩ := scanKeywords_eq_some scanned
    obtain ⟨second, inSecond, -, isSecond⟩ := scanKeywords_eq_some otherScanned
    have apart := List.all_eq_true.mp disjoint keyword inFirst
    rw [Keyword.eq_of_isPrefix isPrefix isSecond] at apart
    simp [inSecond] at apart

/-- No text begins with both of two tokens that are apart. -/
theorem scan_eq_none_of_apart (areApart : token.apart other = true)
    (scanned : token.scan text = some count) : other.scan text = none := by
  cases otherScanned : other.scan text with
  | none => rfl
  | some otherCount =>
      unfold apart at areApart
      split at areApart
      · next sort otherSort begins otherBegins =>
          obtain ⟨first, rest, isText, isSort⟩ := exists_initial_of_scan begins scanned
          obtain ⟨second, others, same, isOther⟩ := exists_initial_of_scan otherBegins otherScanned
          obtain ⟨rfl, -⟩ := List.cons.inj (isText.symm.trans same)
          simp [← isSort, ← isOther, not_differs_of_scan scanned otherScanned] at areApart
      · cases areApart

/-! ### Blanks before tokens -/

theorem blankLength_eq_zero {first : Char} (solid : isBlank first = false) (noSlash : first ≠ '/')
    (rest : List Char) : blankLength false (first :: rest) = 0 := by
  rw [blankLength.eq_4 _ _ fun _ isSlash _ => noSlash isSlash, if_neg (by simp [solid])]

/-- Whether a token begins with nothing that blanks can begin with. -/
def isSolid : Token → Bool
  | .symbol text => text.toList.head?.any fun first => first ≠ '/' && !isBlank first
  | .blanks => false
  | _ => true

theorem blankLength_eq_zero_of_scan (solid : token.isSolid = true)
    (scanned : token.scan text = some count) : blankLength false text = 0 := by
  suffices begins : ∃ first rest, text = first :: rest ∧ isBlank first = false ∧ first ≠ '/' by
    obtain ⟨first, rest, rfl, noBlank, noSlash⟩ := begins
    exact blankLength_eq_zero noBlank noSlash rest
  have ofSort : ∀ sort, token.initial? = some sort → sort ≠ .sign → token.isFirm = true →
      ∃ first rest, text = first :: rest ∧ isBlank first = false ∧ first ≠ '/' := by
    intro sort begins noSign firm
    obtain ⟨first, rest, rfl, rfl⟩ := exists_initial_of_scan begins scanned
    obtain ⟨character, found, noBlank⟩ := (firm_of_scan firm scanned).first
    cases found
    refine ⟨_, rest, rfl, noBlank, ?_⟩
    rintro rfl
    exact noSign rfl
  cases token with
  | symbol symbol =>
      obtain ⟨-, behind, rfl⟩ := scanSymbol_eq_some scanned
      cases spelled : symbol.toList with
      | nil => simp [isSolid, spelled] at solid
      | cons first rest =>
          have isSolid : first ≠ '/' ∧ isBlank first = false := by
            simpa [isSolid, spelled] using solid
          exact ⟨first, rest ++ behind, rfl, isSolid.2, isSolid.1⟩
  | blanks => cases solid
  | keyword | binding | truth | name | digits | quoted =>
      exact ofSort _ rfl (by decide) rfl

end Token

namespace Cursor

/-- The cursor itself, or the one behind the blanks that it stands at. -/
def past (spaced : Bool) (cursor : Cursor) : Cursor := if spaced then cursor.skip else cursor

theorem past_past (first second : Bool) (cursor : Cursor) :
    (cursor.past first).past second = cursor.past (first || second) := by
  cases first <;> cases second <;> simp [past, skip_skip]

end Cursor

/-! ### The tokens that a phrase begins with -/

/-- A token at the cursor, or behind the blanks there. -/
structure Start where
  spaced : Bool
  token : Token
  deriving DecidableEq

namespace Start

variable {start other : Start} {cursor : Cursor}

def At (start : Start) (cursor : Cursor) : Prop :=
  ∃ count, start.token.scan (cursor.past start.spaced).rest = some count

def behind (spaced : Bool) (start : Start) : Start := ⟨spaced || start.spaced, start.token⟩

theorem at_behind_iff {spaced : Bool} :
    (start.behind spaced).At cursor ↔ start.At (cursor.past spaced) := by
  rw [At, At, Cursor.past_past]
  rfl

/-- Whether two tokens never stand at the same cursor. -/
def apart (start other : Start) : Bool :=
  start.token.apart other.token &&
    (start.spaced == other.spaced ||
      if start.spaced then other.token.isSolid else start.token.isSolid)

theorem skip_eq_self_of_at (direct : start.spaced = false) (solid : start.token.isSolid = true)
    (stands : start.At cursor) : cursor.skip = cursor := by
  obtain ⟨count, scanned⟩ := stands
  rw [direct] at scanned
  exact Cursor.skip_eq_self (Token.blankLength_eq_zero_of_scan solid scanned)

theorem not_at_of_apart (areApart : start.apart other = true) (stands : start.At cursor) :
    ¬other.At cursor := by
  intro otherStands
  obtain ⟨tokensApart, samePlace⟩ := Bool.and_eq_true_iff.mp areApart
  have same : cursor.past start.spaced = cursor.past other.spaced := by
    rcases Bool.or_eq_true_iff.mp samePlace with same | solid
    · rw [beq_iff_eq.mp same]
    · cases spaced : start.spaced <;> cases otherSpaced : other.spaced <;>
        simp only [spaced, Bool.false_eq_true, if_false, if_true] at solid
      · rfl
      · exact (skip_eq_self_of_at spaced solid stands).symm
      · exact skip_eq_self_of_at otherSpaced solid otherStands
      · rfl
  obtain ⟨count, scanned⟩ := stands
  obtain ⟨otherCount, otherScanned⟩ := otherStands
  rw [same] at scanned
  rw [Token.scan_eq_none_of_apart tokensApart scanned] at otherScanned
  cases otherScanned

end Start

/-- How a phrase begins. -/
structure Opening where
  starts : List Start
  /-- The ways to match without a token: over blanks, or over nothing. -/
  idle : List Bool

namespace Opening

/-- A match from one cursor to another begins as described. -/
def Covers (opening : Opening) (cursor next : Cursor) : Prop :=
  (∃ start ∈ opening.starts, start.At cursor) ∨
    ∃ spaced ∈ opening.idle, next = cursor.past spaced

/-- How two phrases one after the other begin. -/
def both (first second : Opening) : Opening where
  starts := first.starts ++
    first.idle.flatMap fun spaced => second.starts.map (Start.behind spaced)
  idle := first.idle.flatMap fun spaced => second.idle.map (spaced || ·)

variable {first second : Opening} {cursor middle next : Cursor}

theorem covers_both (firstCovers : first.Covers cursor middle)
    (secondCovers : second.Covers middle next) : (first.both second).Covers cursor next := by
  rcases firstCovers with ⟨start, isStart, stands⟩ | ⟨spaced, isIdle, rfl⟩
  · exact .inl ⟨start, List.mem_append_left _ isStart, stands⟩
  rcases secondCovers with ⟨start, isStart, stands⟩ | ⟨further, isFurther, rfl⟩
  · refine .inl ⟨start.behind spaced, List.mem_append_right _ ?_, Start.at_behind_iff.mpr stands⟩
    exact List.mem_flatMap.mpr ⟨spaced, isIdle, List.mem_map_of_mem isStart⟩
  · refine .inr ⟨spaced || further, ?_, Cursor.past_past ..⟩
    exact List.mem_flatMap.mpr ⟨spaced, isIdle, List.mem_map_of_mem isFurther⟩

end Opening

namespace Grammar

variable {text : List Char} {α β : Type} {cursor next : Cursor}

/-- How a phrase begins, if that is known of the rules in it. -/
def openingOf (rules : {α : Type} → Rule α → Option Opening) :
    {α : Type} → Phrase α → Option Opening
  | _, .token .blanks => some ⟨[], [true]⟩
  | _, .token token => some ⟨[⟨false, token⟩], []⟩
  | _, .rule name => rules name
  | _, .both first second =>
      (openingOf rules first).bind fun opening =>
        if opening.idle = [] then some opening else (openingOf rules second).map opening.both
  | _, .either first second =>
      (openingOf rules first).bind fun opening =>
        (openingOf rules second).map fun other =>
          ⟨opening.starts ++ other.starts, opening.idle ++ other.idle⟩
  | _, .optional inner =>
      (openingOf rules inner).map fun opening => ⟨opening.starts, false :: opening.idle⟩
  | _, .many inner =>
      (openingOf rules inner).bind fun opening =>
        if opening.idle = [] then some ⟨opening.starts, [false]⟩ else none
  | _, .map _ inner => openingOf rules inner
  | _, .spanned inner => openingOf rules inner

/-- How a rule begins, where no more rules than given begin with one another. -/
def ruleOpening? : (nesting : Nat) → {α : Type} → Rule α → Option Opening
  | 0, _, _ => none
  | nesting + 1, _, name => openingOf (ruleOpening? nesting) (phrase name)

theorem covers_of_derives {nesting : Nat} {described : Phrase α} {opening : Opening} {value : α}
    (begins : openingOf (ruleOpening? nesting) described = some opening)
    (derives : Derives described cursor value next) : opening.Covers cursor next := by
  induction derives generalizing nesting opening with
  | @token token cursor count scanned =>
      cases token with
      | blanks =>
          cases begins
          cases scanned
          exact .inr ⟨true, List.mem_cons_self, rfl⟩
      | _ =>
          cases begins
          exact .inl ⟨_, List.mem_cons_self, count, scanned⟩
  | rule _ ih =>
      cases nesting with
      | zero => cases begins
      | succ nesting => exact ih begins
  | both _ _ firstIh secondIh =>
      obtain ⟨first, firstBegins, begins⟩ := Option.bind_eq_some_iff.mp begins
      have firstCovers := firstIh firstBegins
      split at begins
      · next never =>
          cases begins
          rcases firstCovers with starts | ⟨_, isIdle, -⟩
          · exact .inl starts
          · simp [never] at isIdle
      · obtain ⟨second, secondBegins, rfl⟩ := Option.map_eq_some_iff.mp begins
        exact Opening.covers_both firstCovers (secondIh secondBegins)
  | first _ ih =>
      obtain ⟨first, firstBegins, begins⟩ := Option.bind_eq_some_iff.mp begins
      obtain ⟨second, -, rfl⟩ := Option.map_eq_some_iff.mp begins
      rcases ih firstBegins with ⟨start, isStart, stands⟩ | ⟨spaced, isIdle, isNext⟩
      · exact .inl ⟨start, List.mem_append_left _ isStart, stands⟩
      · exact .inr ⟨spaced, List.mem_append_left _ isIdle, isNext⟩
  | second _ _ ih =>
      obtain ⟨first, -, begins⟩ := Option.bind_eq_some_iff.mp begins
      obtain ⟨second, secondBegins, rfl⟩ := Option.map_eq_some_iff.mp begins
      rcases ih secondBegins with ⟨start, isStart, stands⟩ | ⟨spaced, isIdle, isNext⟩
      · exact .inl ⟨start, List.mem_append_right _ isStart, stands⟩
      · exact .inr ⟨spaced, List.mem_append_right _ isIdle, isNext⟩
  | none refused =>
      obtain ⟨inner, -, rfl⟩ := Option.map_eq_some_iff.mp begins
      exact .inr ⟨false, List.mem_cons_self, rfl⟩
  | some _ ih =>
      obtain ⟨inner, innerBegins, rfl⟩ := Option.map_eq_some_iff.mp begins
      rcases ih innerBegins with starts | ⟨spaced, isIdle, isNext⟩
      · exact .inl starts
      · exact .inr ⟨spaced, List.mem_cons_of_mem _ isIdle, isNext⟩
  | nil refused =>
      obtain ⟨inner, -, begins⟩ := Option.bind_eq_some_iff.mp begins
      split at begins
      · cases begins
        exact .inr ⟨false, List.mem_cons_self, rfl⟩
      · cases begins
  | cons _ _ _ ih =>
      obtain ⟨inner, innerBegins, begins⟩ := Option.bind_eq_some_iff.mp begins
      split at begins
      · next never =>
          cases begins
          rcases ih innerBegins with starts | ⟨_, isIdle, -⟩
          · exact .inl starts
          · simp [never] at isIdle
      · cases begins
  | map _ ih => exact ih begins
  | spanned _ ih => exact ih begins

/-- The tokens that a phrase begins with, if it cannot match without one.  Not more than twelve
rules begin with one another. -/
def starts? (described : Phrase α) : Option (List Start) :=
  (openingOf (ruleOpening? 12) described).bind fun opening =>
    if opening.idle = [] ∧ repeatsTake described = true then some opening.starts else none

theorem exists_start_of_fits {described : Phrase α} {starts : List Start}
    (begins : starts? described = some starts) (stands : cursor.In text)
    (fits : Fits described cursor) : ∃ start ∈ starts, start.At cursor := by
  obtain ⟨opening, isOpening, begins⟩ := Option.bind_eq_some_iff.mp begins
  split at begins
  · next takesToken =>
      cases begins
      obtain ⟨value, next, run⟩ := fits
      have derives := (derives_iff takesToken.2 stands).mpr run
      rcases covers_of_derives isOpening derives with starts | ⟨_, isIdle, -⟩
      · exact starts
      · simp [takesToken.1] at isIdle
  · cases begins

/-- Whether two phrases begin with tokens that exclude one another. -/
def excludes (described : Phrase α) (other : Phrase β) : Bool :=
  match starts? described, starts? other with
  | some starts, some others => starts.all fun start => others.all start.apart
  | _, _ => false

theorem not_fits_of_excludes {described : Phrase α} {other : Phrase β}
    (exclude : excludes described other = true) (stands : cursor.In text)
    (fits : Fits other cursor) : ¬Fits described cursor := by
  intro describedFits
  unfold excludes at exclude
  split at exclude
  · next starts others begins otherBegins =>
      obtain ⟨start, isStart, startsAt⟩ := exists_start_of_fits begins stands describedFits
      obtain ⟨second, isSecond, secondAt⟩ := exists_start_of_fits otherBegins stands fits
      have apartFromAll := List.all_eq_true.mp exclude start isStart
      have areApart := List.all_eq_true.mp apartFromAll second isSecond
      exact Start.not_at_of_apart areApart startsAt secondAt
  · cases exclude

end Grammar

end Gloss
