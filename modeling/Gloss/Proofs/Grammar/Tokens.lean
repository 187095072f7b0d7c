import Gloss.Grammar.Token

/-!
# The extent of tokens

A token takes characters of the text that it is sought in and no others.  All
tokens but blanks take at least one, and the first and the last character that
they take are no white space.
-/

namespace Gloss

/-- The text begins with a character that is no white space, `count` characters
come, and the last of them is no white space either. -/
structure Text.Firm (text : List Char) (count : Nat) : Prop where
  positive : 0 < count
  first : ∃ character, text[0]? = some character ∧ Text.isBlank character = false
  last : ∃ character, text[count - 1]? = some character ∧ Text.isBlank character = false

namespace Text

theorem ranges_of_isNamePart {character : Char} (inName : isNamePart character = true) :
    48 ≤ character.toNat ∧ character.toNat ≤ 57 ∨
      65 ≤ character.toNat ∧ character.toNat ≤ 90 ∨ character.toNat = 95 ∨
      97 ≤ character.toNat ∧ character.toNat ≤ 122 := by
  simp only [isNamePart, Char.isAlphanum] at inName
  delta Char.isAlpha Char.isUpper Char.isLower at inName
  simp only [Char.isDigit, Bool.or_eq_true, Bool.and_eq_true, decide_eq_true_eq, beq_iff_eq,
    UInt32.le_iff_toNat_le] at inName
  rcases inName with ((upper | lower) | digit) | underscore
  · exact .inr (.inl upper)
  · exact .inr (.inr (.inr lower))
  · exact .inl digit
  · subst underscore
    exact .inr (.inr (.inl rfl))

theorem isBlank_of_isNamePart {character : Char} (inName : isNamePart character = true) :
    isBlank character = false := by
  have ranges := ranges_of_isNamePart inName
  simp only [isBlank, inRanges, List.any_cons, List.any_nil, Bool.or_eq_false_iff,
    Bool.and_eq_false_iff, decide_eq_false_iff_not, Bool.or_false]
  omega

theorem firm_of_forall {text : List Char} {count : Nat} (positive : 0 < count)
    (fits : count ≤ text.length)
    (solid : ∀ character ∈ text.take count, isBlank character = false) :
    Firm text count := by
  have solidAt : ∀ index, index < count →
      ∃ character, text[index]? = some character ∧ isBlank character = false := by
    intro index below
    have inText : index < text.length := by omega
    refine ⟨text[index], List.getElem?_eq_getElem inText, solid _ ?_⟩
    rw [List.mem_take_iff_getElem]
    exact ⟨index, by omega, rfl⟩
  exact ⟨positive, solidAt 0 positive, solidAt (count - 1) (by omega)⟩

theorem firm_append {word rest : List Char} (nonempty : word ≠ [])
    (solid : ∀ character ∈ word, isBlank character = false) :
    Firm (word ++ rest) word.length := by
  apply firm_of_forall (List.length_pos_iff.mpr nonempty) (by simp)
  simpa using solid

end Text

namespace Token

open Text

/-- Whether a token takes at least one character and has no white space at its
ends. -/
def isFirm : Token → Bool
  | .symbol text => !text.isEmpty && text.toList.all fun character => !isBlank character
  | .blanks => false
  | _ => true

theorem scanWord_eq_some {word text : List Char} {count : Nat}
    (scanned : scanWord word text = some count) : count = word.length ∧ word <+: text := by
  unfold scanWord at scanned
  split at scanned
  · next holds =>
      simp only [Bool.and_eq_true, List.isPrefixOf_iff_prefix] at holds
      simp only [Option.some.injEq] at scanned
      exact ⟨scanned.symm, holds.1⟩
  · simp at scanned

theorem scanSymbol_eq_some {symbol text : List Char} {count : Nat}
    (scanned : scanSymbol symbol text = some count) :
    count = symbol.length ∧ symbol <+: text := by
  unfold scanSymbol at scanned
  split at scanned
  · next holds =>
      simp only [Option.some.injEq] at scanned
      exact ⟨scanned.symm, List.isPrefixOf_iff_prefix.mp holds⟩
  · simp at scanned

theorem scanKeywords_eq_some {keywords : List Keyword} {text : List Char} {count : Nat}
    (scanned : scanKeywords keywords text = some count) :
    ∃ keyword ∈ keywords, count = keyword.text.toList.length ∧
      keyword.text.toList <+: text := by
  obtain ⟨keyword, member, found⟩ := List.exists_of_findSome?_eq_some scanned
  exact ⟨keyword, member, scanWord_eq_some found⟩

theorem scanName_eq_some {text : List Char} {count : Nat}
    (scanned : scanName text = some count) :
    ∃ first rest, text = first :: rest ∧ isNameStart first = true ∧
      count = 1 + (rest.takeWhile isNamePart).length := by
  cases text with
  | nil => simp [scanName] at scanned
  | cons first rest =>
      rw [scanName.eq_2] at scanned
      split at scanned
      · next holds =>
          simp only [Bool.and_eq_true] at holds
          simp only [Option.some.injEq] at scanned
          exact ⟨first, rest, rfl, holds.2, scanned.symm⟩
      · simp at scanned

theorem scanDigits_eq_some {text : List Char} {count : Nat}
    (scanned : scanDigits text = some count) :
    0 < count ∧ count = (text.takeWhile Char.isDigit).length := by
  unfold scanDigits at scanned
  split at scanned
  · simp at scanned
  · next sameCount =>
      simp only [Option.some.injEq] at scanned
      omega

/-- A quoted text ends with the quote that closes it. -/
theorem scanQuotedRest_eq_some {text : List Char} {count : Nat}
    (scanned : scanQuotedRest text = some count) :
    0 < count ∧ text[count - 1]? = some '\x22' := by
  induction text using scanQuotedRest.induct generalizing count with
  | case1 => simp [scanQuotedRest] at scanned
  | case2 rest => simp [scanQuotedRest] at scanned
  | case3 escaped rest notEnd ih =>
      simp only [scanQuotedRest, notEnd, if_false, Option.map_eq_some_iff] at scanned
      obtain ⟨later, found, rfl⟩ := scanned
      obtain ⟨positive, last⟩ := ih found
      obtain ⟨before, rfl⟩ : ∃ before, later = before + 1 := ⟨later - 1, by omega⟩
      exact ⟨by omega, by simpa using last⟩
  | case4 rest notEscape =>
      rw [scanQuotedRest.eq_3 _ _ notEscape, if_pos rfl, Option.some.injEq] at scanned
      subst scanned
      exact ⟨Nat.one_pos, rfl⟩
  | case5 character rest notEscape notQuote refused =>
      rw [scanQuotedRest.eq_3 _ _ notEscape, if_neg notQuote, if_pos refused] at scanned
      simp at scanned
  | case6 character rest notEscape notQuote accepted ih =>
      rw [scanQuotedRest.eq_3 _ _ notEscape, if_neg notQuote, if_neg accepted,
        Option.map_eq_some_iff] at scanned
      obtain ⟨later, found, rfl⟩ := scanned
      obtain ⟨positive, last⟩ := ih found
      obtain ⟨before, rfl⟩ : ∃ before, later = before + 1 := ⟨later - 1, by omega⟩
      exact ⟨by omega, by simpa using last⟩

theorem scanQuoted_eq_some {text : List Char} {count : Nat}
    (scanned : scanQuoted text = some count) :
    1 < count ∧ text[0]? = some '\x22' ∧ text[count - 1]? = some '\x22' := by
  unfold scanQuoted at scanned
  split at scanned
  · next rest =>
      obtain ⟨later, found, rfl⟩ := Option.map_eq_some_iff.mp scanned
      obtain ⟨positive, last⟩ := scanQuotedRest_eq_some found
      obtain ⟨before, rfl⟩ : ∃ before, later = before + 1 := ⟨later - 1, by omega⟩
      exact ⟨by omega, rfl, by simpa using last⟩
  · simp at scanned

theorem blankLength_le_length (inComment : Bool) (text : List Char) :
    blankLength inComment text ≤ text.length := by
  fun_induction blankLength inComment text <;> simp_all <;> omega

theorem isBlank_of_mem_keyword (keyword : Keyword) {character : Char}
    (member : character ∈ keyword.text.toList) : isBlank character = false := by
  have none : keyword.text.toList.any isBlank = false := by cases keyword <;> rfl
  exact Bool.eq_false_iff.mpr (List.any_eq_false.mp none character member)

theorem firm_of_scanKeywords {keywords : List Keyword} {text : List Char} {count : Nat}
    (scanned : scanKeywords keywords text = some count) : Firm text count := by
  obtain ⟨keyword, -, rfl, rest, rfl⟩ := scanKeywords_eq_some scanned
  apply firm_append
  · cases keyword <;> decide
  · exact fun character member => isBlank_of_mem_keyword keyword member

theorem firm_of_scanSymbol {symbol : String} {text : List Char} {count : Nat}
    (firm : (Token.symbol symbol).isFirm = true)
    (scanned : scanSymbol symbol.toList text = some count) : Firm text count := by
  obtain ⟨rfl, rest, rfl⟩ := scanSymbol_eq_some scanned
  simp only [isFirm, Bool.and_eq_true, Bool.not_eq_true', List.all_eq_true] at firm
  apply firm_append
  · intro empty
    simp [String.toList_eq_nil_iff.mp empty] at firm
  · exact firm.2

theorem isNamePart_of_isNameStart {character : Char} (starts : isNameStart character = true) :
    isNamePart character = true := by
  simp only [isNameStart, isNamePart, Char.isAlphanum, Bool.or_eq_true] at starts ⊢
  exact starts.imp .inl id

theorem take_length_takeWhile (test : Char → Bool) (text : List Char) :
    text.take (text.takeWhile test).length = text.takeWhile test :=
  (List.prefix_iff_eq_take.mp (List.takeWhile_prefix test)).symm

theorem firm_of_scanName {text : List Char} {count : Nat}
    (scanned : scanName text = some count) : Firm text count := by
  obtain ⟨first, rest, rfl, starts, rfl⟩ := scanName_eq_some scanned
  have fits := (List.takeWhile_prefix (l := rest) isNamePart).length_le
  apply firm_of_forall (by omega) (by simp only [List.length_cons]; omega)
  intro character member
  rw [Nat.add_comm, List.take_succ_cons, take_length_takeWhile] at member
  apply isBlank_of_isNamePart
  rcases List.mem_cons.mp member with rfl | inRest
  · exact isNamePart_of_isNameStart starts
  · exact List.all_eq_true.mp List.all_takeWhile _ inRest

theorem firm_of_scanDigits {text : List Char} {count : Nat}
    (scanned : scanDigits text = some count) : Firm text count := by
  obtain ⟨positive, rfl⟩ := scanDigits_eq_some scanned
  apply firm_of_forall positive (List.takeWhile_prefix _).length_le
  intro character member
  rw [take_length_takeWhile] at member
  have isDigit := List.all_eq_true.mp List.all_takeWhile _ member
  apply isBlank_of_isNamePart
  simp [isNamePart, Char.isAlphanum, isDigit]

theorem firm_of_scanQuoted {text : List Char} {count : Nat}
    (scanned : scanQuoted text = some count) : Firm text count := by
  obtain ⟨two, first, last⟩ := scanQuoted_eq_some scanned
  exact ⟨by omega, ⟨_, first, by decide⟩, ⟨_, last, by decide⟩⟩

/-- What a firm token takes has firm ends. -/
theorem firm_of_scan {token : Token} {text : List Char} {count : Nat}
    (firm : token.isFirm = true) (scanned : token.scan text = some count) :
    Firm text count := by
  cases token with
  | symbol symbol => exact firm_of_scanSymbol firm scanned
  | keyword | binding | truth => exact firm_of_scanKeywords scanned
  | name => exact firm_of_scanName scanned
  | digits => exact firm_of_scanDigits scanned
  | quoted => exact firm_of_scanQuoted scanned
  | blanks => simp [isFirm] at firm

end Token

theorem Text.Firm.le_length {text : List Char} {count : Nat} (firm : Firm text count) :
    count ≤ text.length := by
  obtain ⟨character, last, -⟩ := firm.last
  have positive := firm.positive
  have inText := (List.getElem?_eq_some_iff.mp last).1
  omega

/-- A token takes no more than there is. -/
theorem Token.scan_le_length (token : Token) (text : List Char) (count : Nat)
    (scanned : token.scan text = some count) : count ≤ text.length := by
  cases token with
  | symbol symbol =>
      obtain ⟨rfl, isPrefix⟩ := scanSymbol_eq_some scanned
      exact isPrefix.length_le
  | blanks =>
      cases scanned
      exact blankLength_le_length false text
  | keyword | binding | truth | name | digits | quoted =>
      exact (firm_of_scan rfl scanned).le_length

end Gloss
