import Gloss.Proofs.Grammar.Matching
import Gloss.Proofs.Grammar.Nodes

/-!
# No name is a keyword

The rules for names refuse a keyword only where a word of any script ends
behind it, while a name itself ends with the ASCII characters.  So they do take
a keyword that a letter of another script follows.  But nothing in the language
begins with such a letter, so no text goes on behind that match.
-/

namespace Gloss

namespace Text

/-- A word character that cannot be in a name. -/
def isForeign (character : Char) : Bool := isWord character && !isNamePart character

theorem isForeign_of_isNamePart {character : Char} (inName : isNamePart character = true) :
    isForeign character = false := by
  simp [isForeign, inName]

theorem inRanges_eq_false {first second : List (Nat × Nat)} {codePoint : Nat}
    (inFirst : inRanges first codePoint = true)
    (apart : ∀ range ∈ first, ∀ other ∈ second, range.2 < other.1 ∨ other.2 < range.1) :
    inRanges second codePoint = false := by
  obtain ⟨range, isRange, within⟩ := List.any_eq_true.mp inFirst
  refine List.any_eq_false.mpr fun other isOther inOther => ?_
  simp only [Bool.and_eq_true, decide_eq_true_eq] at within inOther
  have := apart range isRange other isOther
  omega

theorem isForeign_of_isBlank {character : Char} (blank : isBlank character = true) :
    isForeign character = false := by
  have noWord : inRanges wordRanges character.toNat = false :=
    inRanges_eq_false blank (by decide +kernel)
  have noPart : isNamePart character = false := by
    by_contra inName
    rw [isBlank_of_isNamePart (by simpa using inName)] at blank
    cases blank
  rw [isNamePart] at noPart
  simp [isForeign, isWord, noPart, noWord]

/-- Outside of ASCII no character can be in a name. -/
theorem isForeign_of_isWord {character : Char} (beyond : 128 ≤ character.toNat)
    (word : isWord character = true) : isForeign character = true := by
  have noPart : isNamePart character = false := by
    by_contra inName
    have := ranges_of_isNamePart (by simpa using inName)
    omega
  simp [isForeign, word, noPart]

/-- A word character stands at an offset that cannot be in a name. -/
def Foreign (text : List Char) (offset : Nat) : Prop :=
  ∃ character, text[offset]? = some character ∧ isForeign character = true

theorem not_foreign_of_length_le {text : List Char} {offset : Nat} (atEnd : text.length ≤ offset) :
    ¬Foreign text offset := by
  rintro ⟨character, found, -⟩
  rw [List.getElem?_eq_none atEnd] at found
  cases found

theorem not_foreign_zero {text : List Char}
    (native : ∀ character, text.head? = some character → isForeign character = false) :
    ¬Foreign text 0 := by
  rintro ⟨character, found, foreign⟩
  rw [native character (List.head?_eq_getElem? ▸ found)] at foreign
  cases foreign

end Text

namespace Token

open Text

/-- Whether a token never begins with a word character that cannot be in a
name. -/
def isNative : Token → Bool
  | .symbol text => text.toList.head?.all fun character => !isForeign character
  | _ => true

theorem isNamePart_of_mem_keyword (keyword : Keyword) {character : Char}
    (member : character ∈ keyword.text.toList) : isNamePart character = true := by
  have all : keyword.text.toList.all isNamePart = true := by cases keyword <;> rfl
  exact List.all_eq_true.mp all character member

/-- What a text begins with decides about its first character. -/
theorem not_foreign_of_isPrefix {start text : List Char} (isPrefix : start <+: text)
    (nonempty : 0 < start.length)
    (native : ∀ character, start.head? = some character → isForeign character = false) :
    ¬Foreign text 0 := by
  obtain ⟨rest, rfl⟩ := isPrefix
  refine not_foreign_zero fun character found => native character ?_
  rwa [List.head?_append_of_ne_nil _ (List.length_pos_iff.mp nonempty)] at found

theorem not_foreign_of_scanKeywords {keywords : List Keyword} {text : List Char} {count : Nat}
    (scanned : scanKeywords keywords text = some count) (positive : 0 < count) :
    ¬Foreign text 0 := by
  obtain ⟨keyword, -, rfl, isPrefix⟩ := scanKeywords_eq_some scanned
  exact not_foreign_of_isPrefix isPrefix positive fun character found =>
    isForeign_of_isNamePart (isNamePart_of_mem_keyword keyword (List.mem_of_head? found))

theorem not_foreign_of_blankLength {text : List Char} (positive : 0 < blankLength false text) :
    ¬Foreign text 0 := by
  refine not_foreign_zero ?_
  cases text with
  | nil => nofun
  | cons first rest =>
      rintro character ⟨⟩
      by_contra foreign
      have noSlash : first ≠ '/' := by
        rintro rfl
        exact foreign rfl
      have solid : ¬isBlank first = true := fun blank => foreign (isForeign_of_isBlank blank)
      rw [blankLength.eq_4 _ _ fun _ isSlash _ => noSlash isSlash, if_neg solid] at positive
      cases positive

/-- No token begins with a word character that cannot be in a name. -/
theorem not_foreign_of_scan {token : Token} (native : token.isNative = true) {text : List Char}
    {count : Nat} (scanned : token.scan text = some count) (positive : 0 < count) :
    ¬Foreign text 0 := by
  cases token with
  | symbol symbol =>
      obtain ⟨rfl, isPrefix⟩ := scanSymbol_eq_some scanned
      refine not_foreign_of_isPrefix isPrefix positive fun character found => ?_
      rw [isNative, found] at native
      simpa using native
  | keyword | binding | truth => exact not_foreign_of_scanKeywords scanned positive
  | name =>
      obtain ⟨first, rest, rfl, starts, -⟩ := scanName_eq_some scanned
      refine not_foreign_zero ?_
      rintro character ⟨⟩
      exact isForeign_of_isNamePart (isNamePart_of_isNameStart starts)
  | digits =>
      obtain ⟨-, rfl⟩ := scanDigits_eq_some scanned
      refine not_foreign_of_isPrefix (List.takeWhile_prefix _) positive fun character found => ?_
      have isDigit := List.all_eq_true.mp List.all_takeWhile _ (List.mem_of_head? found)
      exact isForeign_of_isNamePart (by simp [isNamePart, Char.isAlphanum, isDigit])
  | quoted =>
      obtain ⟨-, first, -⟩ := scanQuoted_eq_some scanned
      rintro ⟨character, found, foreign⟩
      rw [first] at found
      cases found
      cases foreign
  | blanks =>
      cases scanned
      exact not_foreign_of_blankLength positive

theorem drop_length_takeWhile (test : Char → Bool) (text : List Char) :
    text.drop (text.takeWhile test).length = text.dropWhile test := by
  conv_lhs => arg 2; rw [← List.takeWhile_append_dropWhile (p := test) (l := text)]
  exact List.drop_left

/-- A keyword is taken for a name only where a word goes on behind it that a
name cannot. -/
theorem foreign_of_scanName {text : List Char} {count : Nat} {keyword : Keyword}
    (scanned : scanName text = some count) (isKeyword : text.take count = keyword.text.toList) :
    Foreign text count := by
  have fits : count ≤ text.length := (firm_of_scanName scanned).le_length
  have length : keyword.text.toList.length = count := by
    rw [← isKeyword, List.length_take, Nat.min_eq_left fits]
  obtain ⟨first, rest, rfl, -, isCount⟩ := scanName_eq_some scanned
  rw [scanName.eq_2] at scanned
  split at scanned
  · next holds =>
      obtain ⟨noKeyword, -⟩ := Bool.and_eq_true_iff.mp holds
      have noWord : scanWord keyword.text.toList (first :: rest) = none := by
        rw [Option.isNone_iff_eq_none, scanKeywords, List.findSome?_eq_none_iff] at noKeyword
        exact noKeyword keyword (by cases keyword <;> decide)
      have isPrefix : keyword.text.toList.isPrefixOf (first :: rest) = true :=
        List.isPrefixOf_iff_prefix.mpr (isKeyword ▸ List.take_prefix count (first :: rest))
      have behind : (first :: rest).drop count = rest.dropWhile isNamePart := by
        rw [isCount, Nat.add_comm, List.drop_succ_cons, drop_length_takeWhile]
      simp only [scanWord, isPrefix, length, behind, Bool.true_and] at noWord
      cases left : rest.dropWhile isNamePart with
      | nil => simp [left, endsWord] at noWord
      | cons next others =>
          have word : isWord next = true := by simpa [left, endsWord] using noWord
          have noPart : isNamePart next = false := by
            have stopped := List.head_dropWhile_not isNamePart (l := rest) (by simp [left])
            simpa [left] using stopped
          refine ⟨next, ?_, by simp [isForeign, word, noPart]⟩
          rw [← List.head?_drop, behind, left]
          rfl
  · cases scanned

theorem scanName_keyword (keyword : Keyword) {next : Char} (foreign : isForeign next = true)
    (rest : List Char) :
    scanName (keyword.text.toList ++ next :: rest) = some keyword.text.toList.length := by
  obtain ⟨word, noPart⟩ : isWord next = true ∧ isNamePart next = false := by
    simpa [isForeign] using foreign
  have noKeyword : scanKeywords Keyword.all (keyword.text.toList ++ next :: rest) = none := by
    cases keyword <;>
      simp [scanKeywords, Keyword.all, scanWord, Keyword.text, endsWord, word]
  have inName : ∀ character ∈ keyword.text.toList, isNamePart character = true :=
    fun _ member => isNamePart_of_mem_keyword keyword member
  cases spelled : keyword.text.toList with
  | nil => cases keyword <;> cases spelled
  | cons first others =>
      have starts : isNameStart first = true := by
        cases keyword <;> cases spelled <;> rfl
      rw [spelled] at noKeyword inName
      rw [List.cons_append] at noKeyword ⊢
      rw [scanName.eq_2, noKeyword, starts, List.takeWhile_append_of_pos
        (fun character member => inName character (List.mem_cons_of_mem _ member)),
        List.takeWhile_cons_of_neg (by simp [noPart])]
      simp [Nat.add_comm]

end Token

/-- The name that a node declares or uses is no keyword. -/
def Node.AvoidsKeywords (node : Node) : Prop :=
  ∀ name span, node.name? = some (name, span) → ∀ keyword : Keyword, name ≠ keyword.text

namespace Grammar

open Node (Throughout throughout_singleton)
open Text (Foreign)

/-- Whether no token of a phrase begins with a word character that cannot be in
a name. -/
def isNative : {α : Type} → Phrase α → Bool
  | _, .token token => token.isNative
  | _, .rule _ => true
  | _, .both first second => isNative first && isNative second
  | _, .either first second => isNative first && isNative second
  | _, .optional inner => isNative inner
  | _, .many inner => isNative inner
  | _, .map _ inner => isNative inner
  | _, .spanned inner => isNative inner

theorem isNative_phrase {α : Type} (name : Rule α) : isNative (phrase name) = true := by
  cases name <;> decide

/-- Where the value of a rule is a bare name, it is no keyword. -/
def NamesNoKeyword : {α : Type} → Rule α → α → Prop
  | _, .declaredName, found | _, .typeName, found =>
      ∀ keyword : Keyword, found.2 ≠ keyword.text
  | _, _, _ => True

/-- A reading whose names are no keywords, unless it ends before a word
character that cannot be in a name. -/
structure NativeReading (text : List Char) {α : Type} (name : Rule α) (start : Nat) (value : α)
    (stop : Nat) : Prop where
  extent : Extent text name start stop
  native : start < stop → ¬Foreign text start
  bare : ¬Foreign text stop → NamesNoKeyword name value
  nodes : ¬Foreign text stop → Throughout Node.AvoidsKeywords (roots name value)

def nativeReading (text : List Char) : Peg.RuleReading Rule := fun _ => NativeReading text

/-- Readings that end before nothing foreign. -/
def endedReading (text : List Char) : Peg.RuleReading Rule := fun _ name start value stop =>
  NativeReading text name start value stop ∧ ¬Foreign text stop

section Phrases

variable {text : List Char} {start stop : Nat} {α : Type} {described : Phrase α} {value : α}

theorem extent_of_nativeReading (name : Rule α) (start : Nat) (value : α) (stop : Nat)
    (reading : nativeReading text name start value stop) : Extent text name start stop :=
  reading.extent

theorem le_of_reads_native (reads : Reads text (nativeReading text) described start value stop) :
    start ≤ stop :=
  le_of_reads extent_of_nativeReading reads

/-- Nothing that is read begins with a word character that cannot be in a
name. -/
theorem not_foreign_of_reads (native : isNative described = true)
    (reads : Reads text (nativeReading text) described start value stop) (moves : start < stop) :
    ¬Foreign text start := by
  induction described generalizing start stop with
  | token sought =>
      obtain ⟨count, scanned, -, rfl⟩ := reads
      rintro ⟨character, found, foreign⟩
      refine Token.not_foreign_of_scan native scanned (by omega) ⟨character, ?_, foreign⟩
      rwa [List.getElem?_drop]
  | rule name => exact reads.native moves
  | both first second firstIh secondIh =>
      obtain ⟨firstNative, secondNative⟩ := Bool.and_eq_true_iff.mp native
      obtain ⟨middle, firstReads, secondReads⟩ := reads
      rcases Nat.lt_or_eq_of_le (le_of_reads_native firstReads) with firstMoves | rfl
      · exact firstIh firstNative firstReads firstMoves
      · exact secondIh secondNative secondReads moves
  | either first second firstIh secondIh =>
      obtain ⟨firstNative, secondNative⟩ := Bool.and_eq_true_iff.mp native
      rcases reads with reads | reads
      · exact firstIh firstNative reads moves
      · exact secondIh secondNative reads moves
  | optional inner ih =>
      rcases reads with ⟨-, rfl⟩ | ⟨found, -, innerReads⟩
      · exact absurd moves (Nat.lt_irrefl _)
      · exact ih native innerReads moves
  | many inner ih =>
      cases reads with
      | nil => exact absurd moves (Nat.lt_irrefl _)
      | cons innerReads innerMoves rest => exact ih native innerReads innerMoves
  | map change inner ih =>
      obtain ⟨found, innerReads, -⟩ := reads
      exact ih native innerReads moves
  | spanned inner ih => exact ih native reads.2 moves

/-- What comes before a stretch that is read ends before nothing foreign when
the stretch itself does. -/
theorem not_foreign_between (native : isNative described = true)
    (reads : Reads text (nativeReading text) described start value stop)
    (ended : ¬Foreign text stop) : ¬Foreign text start := by
  rcases Nat.lt_or_eq_of_le (le_of_reads_native reads) with moves | rfl
  · exact not_foreign_of_reads native reads moves
  · exact ended

/-- A phrase that ends before nothing foreign consists of such readings. -/
theorem ended_of_reads (native : isNative described = true)
    (reads : Reads text (nativeReading text) described start value stop)
    (ended : ¬Foreign text stop) : Reads text (endedReading text) described start value stop := by
  induction described generalizing start stop with
  | token sought => exact reads
  | rule name => exact ⟨reads, ended⟩
  | both first second firstIh secondIh =>
      obtain ⟨firstNative, secondNative⟩ := Bool.and_eq_true_iff.mp native
      obtain ⟨middle, firstReads, secondReads⟩ := reads
      exact ⟨middle, firstIh firstNative firstReads
        (not_foreign_between secondNative secondReads ended),
        secondIh secondNative secondReads ended⟩
  | either first second firstIh secondIh =>
      obtain ⟨firstNative, secondNative⟩ := Bool.and_eq_true_iff.mp native
      exact reads.imp (firstIh firstNative · ended) (secondIh secondNative · ended)
  | optional inner ih =>
      rcases reads with ⟨missing, rfl⟩ | ⟨found, present, innerReads⟩
      · exact .inl ⟨missing, rfl⟩
      · exact .inr ⟨found, present, ih native innerReads ended⟩
  | many inner ih =>
      induction reads with
      | nil => exact .nil _
      | @cons start middle stop value values innerReads moves rest later =>
          have restReads : Reads text (nativeReading text) (.many inner) middle values stop := rest
          have between := not_foreign_between native restReads ended
          exact .cons (ih native innerReads between) moves (later ended)
  | map change inner ih =>
      obtain ⟨found, innerReads, same⟩ := reads
      exact ⟨found, ih native innerReads ended, same⟩
  | spanned inner ih => exact ⟨reads.1, ih native reads.2 ended⟩

end Phrases

section Rules

variable {text : List Char} {start stop : Nat}

/-- A name that ends before nothing foreign is no keyword. -/
theorem ne_keyword_of_reads_name {rule : Peg.RuleReading Rule} {found : Span × String}
    (reads : Reads text rule name start found stop) (ended : ¬Foreign text stop)
    (keyword : Keyword) : found.2 ≠ keyword.text := by
  obtain ⟨⟨span, characters⟩, ⟨-, count, scanned, rfl, rfl⟩, rfl⟩ := reads
  intro same
  have isKeyword : (text.drop start).take count = keyword.text.toList := by
    rw [← same, String.toList_ofList]
  obtain ⟨character, next, foreign⟩ := Token.foreign_of_scanName scanned isKeyword
  rw [List.getElem?_drop] at next
  exact ended ⟨character, next, foreign⟩

theorem avoidsKeywords_of_name {node : Node} {name : String} {span : Span}
    (isName : node.name? = some (name, span)) (avoids : ∀ keyword : Keyword, name ≠ keyword.text) :
    ∀ root ∈ [node], root.AvoidsKeywords := by
  refine List.forall_mem_singleton.mpr fun other otherSpan isOther => ?_
  rw [isName, Option.some.injEq, Prod.mk.injEq] at isOther
  exact isOther.1 ▸ avoids

theorem avoidsKeywords_of_nameless {node : Node} (nameless : node.name? = none) :
    node.AvoidsKeywords := by
  intro name span isName
  rw [nameless] at isName
  cases isName

theorem symbol_ne_keyword (operator : Tree.Operator) (keyword : Keyword) :
    operator.symbol ≠ keyword.text := by
  cases operator <;> cases keyword <;> decide

theorem name?_of_isStep {node : Node} (isStep : node.isStep = true) : node.name? = none := by
  cases node with
  | expression value => cases value <;> first | rfl | cases isStep
  | _ => cases isStep

theorem bare_of_reads {α : Type} {name : Rule α} {value : α}
    (reads : Reads text (nativeReading text) (phrase name) start value stop)
    (ended : ¬Foreign text stop) : NamesNoKeyword name value := by
  cases name with
  | declaredName | typeName => exact ne_keyword_of_reads_name reads ended
  | _ => trivial

theorem avoidsKeywords_type {value : Tree.TypeRef}
    (reads : Reads text (endedReading text) (phrase .type) start value stop) :
    (Node.type value).AvoidsKeywords := by
  obtain ⟨⟨span, type, question⟩, ⟨-, _, ⟨typeReads, ended⟩, -⟩, rfl⟩ := reads
  have here : (Node.type type).AvoidsKeywords :=
    (throughout_singleton.mp (typeReads.nodes ended)).here
  cases question with
  | none => exact here
  | some => cases type <;> exact here

/-- Rules that make a node with a name make none with a keyword. -/
theorem avoidsKeywords_of_makesName {α : Type} {name : Rule α} {value : α}
    (makes : makesName name = true) (ended : ¬Foreign text stop)
    (reads : Reads text (endedReading text) (phrase name) start value stop) :
    ∀ node ∈ roots name value, node.AvoidsKeywords := by
  cases name with
  | classDeclaration =>
      obtain ⟨_, ⟨-, reads⟩, rfl⟩ := reads
      obtain ⟨_, _, ⟨nameReads, nameEnded⟩, -⟩ := exists_reads_before reads
      exact avoidsKeywords_of_name rfl (nameReads.bare nameEnded)
  | constructorParameter =>
      obtain ⟨_, ⟨-, _, -, _, nameReads, -⟩, rfl⟩ := reads
      obtain ⟨_, nameReads, nameEnded⟩ := exists_reads_followedBy nameReads
      exact avoidsKeywords_of_name rfl (nameReads.bare nameEnded)
  | functionDeclaration =>
      obtain ⟨_, ⟨-, reads⟩, rfl⟩ := reads
      obtain ⟨_, _, -, _, nameReads, -⟩ := exists_reads_before reads
      obtain ⟨_, nameReads, nameEnded⟩ := exists_reads_before nameReads
      exact avoidsKeywords_of_name rfl (nameReads.bare nameEnded)
  | valueParameter =>
      obtain ⟨_, ⟨-, _, nameReads, -⟩, rfl⟩ := reads
      obtain ⟨_, nameReads, nameEnded⟩ := exists_reads_followedBy nameReads
      exact avoidsKeywords_of_name rfl (nameReads.bare nameEnded)
  | propertyDeclaration =>
      obtain ⟨_, ⟨-, _, -, _, nameReads, -⟩, rfl⟩ := reads
      obtain ⟨_, nameReads, nameEnded⟩ := exists_reads_before nameReads
      exact avoidsKeywords_of_name rfl (nameReads.bare nameEnded)
  | type => exact List.forall_mem_singleton.mpr (avoidsKeywords_type reads)
  | namedType =>
      obtain ⟨_, ⟨-, _, ⟨nameReads, nameEnded⟩, -⟩, rfl⟩ := reads
      exact avoidsKeywords_of_name rfl (nameReads.bare nameEnded)
  | comparisonOperator | additiveOperator | multiplicativeOperator =>
      exact avoidsKeywords_of_name rfl (symbol_ne_keyword _)
  | typeParameter | nameReference =>
      obtain ⟨_, reads, rfl⟩ := reads
      exact avoidsKeywords_of_name rfl (ne_keyword_of_reads_name reads ended)
  | _ => cases makes

theorem nodes_of_reads {α : Type} {name : Rule α} {value : α}
    (reads : Reads text (nativeReading text) (phrase name) start value stop)
    (ended : ¬Foreign text stop) : Throughout Node.AvoidsKeywords (roots name value) := by
  have endedReads := ended_of_reads (isNative_phrase name) reads ended
  have inside : ∀ {β : Type} {name : Rule β} {start stop : Nat} {value : β},
      endedReading text name start value stop →
        Throughout Node.AvoidsKeywords (roots name value) := fun inner => inner.1.nodes inner.2
  cases once : isChain name with
  | false =>
      refine throughout_roots inside once (fun _ _ nameless _ => avoidsKeywords_of_nameless nameless)
        (fun makes => avoidsKeywords_of_makesName makes ended endedReads) endedReads
  | true =>
      exact throughout_chain inside once
        (fun _ isStep => avoidsKeywords_of_nameless (name?_of_isStep isStep)) endedReads

theorem nativeReading_of_reads {α : Type} (name : Rule α) (start : Nat) (value : α) (stop : Nat)
    (reads : Reads text (nativeReading text) (phrase name) start value stop) :
    nativeReading text name start value stop :=
  ⟨extent_of_reads extent_of_nativeReading reads,
    not_foreign_of_reads (isNative_phrase name) reads, bare_of_reads reads, nodes_of_reads reads⟩

end Rules

/-- The names of a tree that was read from a text are no keywords. -/
theorem avoidsKeywords_of_read {file : String} {text : List Char} {tree : Tree.File}
    (read : read file text = .ok tree) : (Node.file tree).Everywhere Node.AvoidsKeywords := by
  obtain ⟨next, matched, atEnd⟩ := exists_match_of_read read
  obtain ⟨reading, stands⟩ := Peg.reads_of_runRule Token.scan_le_length nativeReading_of_reads
    (Cursor.in_ofText text) matched
  have ended : ¬Foreign text next.offset := by
    apply Text.not_foreign_of_length_le
    rw [← List.drop_eq_nil_iff, ← stands.rest, atEnd]
  exact throughout_singleton.mp (reading.nodes ended)

section Matching

variable {text : List Char} {count : Nat}

/-- A rule is matched by its phrase. -/
theorem exists_matchRule_eq {α : Type} (rule : Rule α) (cursor : Cursor) :
    ∃ depth, matchRule rule cursor =
      (phrase rule).run Token.scan (Peg.runRule Token.scan phrase depth) cursor := by
  have positive : 0 < depth cursor.rest.length := Nat.mul_pos (Nat.succ_pos _) (by decide)
  obtain ⟨below, isDepth⟩ := Nat.exists_eq_succ_of_ne_zero (Nat.pos_iff_ne_zero.mp positive)
  exact ⟨below, by rw [matchRule, isDepth, Peg.runRule]⟩

theorem run_name {call : {α : Type} → Rule α → Cursor → Outcome α} {cursor : Cursor}
    (scanned : Token.scanName cursor.rest = some count) :
    name.run Token.scan call cursor =
      .matched (⟨cursor.offset, cursor.offset + count⟩, String.ofList (cursor.rest.take count))
        (cursor.advance count) := by
  simp [name, Peg.run, Token.scan, scanned, Outcome.andThen, Cursor.advance]

theorem matchEnd?_of_run {α : Type} {rule : Rule α} {value : α} {next : Cursor}
    (run : ∀ depth, (phrase rule).run Token.scan (Peg.runRule Token.scan phrase depth)
      (Cursor.ofText text) = .matched value next) : matchEnd? rule text 0 = some next.offset := by
  obtain ⟨depth, matched⟩ := exists_matchRule_eq rule (Cursor.ofText text)
  rw [run] at matched
  have start : (Cursor.ofText text).advance 0 = Cursor.ofText text := rfl
  rw [matchEnd?, start, matched]
  rfl

end Matching

/-- No name in a tree that was read from a text is a keyword, although every
rule for names does take a keyword by itself where a word character outside of
ASCII follows. -/
theorem keywords_apart :
    (∀ {file : String} {text : List Char} {tree : Tree.File}, read file text = .ok tree →
      (Node.file tree).Everywhere Node.AvoidsKeywords) ∧
    ∀ (keyword : Keyword) (next : Char) (rest : List Char),
      128 ≤ next.toNat → Text.isWord next = true →
        let text := keyword.text.toList ++ next :: rest
        let taken := some keyword.text.toList.length
        matchEnd? .declaredName text 0 = taken ∧ matchEnd? .typeParameter text 0 = taken ∧
          matchEnd? .typeName text 0 = taken ∧ matchEnd? .nameReference text 0 = taken := by
  refine ⟨avoidsKeywords_of_read, fun keyword next rest beyond word => ?_⟩
  intro text taken
  have scanned : Token.scanName (Cursor.ofText text).rest = some keyword.text.toList.length :=
    Token.scanName_keyword keyword (Text.isForeign_of_isWord beyond word) rest
  have length : taken = some ((Cursor.ofText text).advance keyword.text.toList.length).offset := by
    simp [taken, Cursor.ofText, Cursor.advance]
  rw [length]
  refine ⟨?_, ?_, ?_, ?_⟩
  · exact matchEnd?_of_run fun _ => run_name scanned
  · exact matchEnd?_of_run fun _ => Peg.run_map (run_name scanned)
  · exact matchEnd?_of_run fun _ => run_name scanned
  · exact matchEnd?_of_run fun _ => Peg.run_map (run_name scanned)

/-- Names of many kinds, and a keyword before a letter with an accent. -/
theorem keywords_apart_sample :
    (∃ tree,
      read "sample" "package p.q\nclass C<T>(val v: T)\nfun f(x: Int) = ::g\n".toList = .ok tree ∧
        (Node.file tree).Everywhere Node.AvoidsKeywords) ∧
      matchEnd? .nameReference (Keyword.val.text.toList ++ ['\u00e9']) 0 = some 3 := by
  constructor
  · have computed : (read "sample"
        "package p.q\nclass C<T>(val v: T)\nfun f(x: Int) = ::g\n".toList).isOk = true := by
      decide +kernel
    cases readable : read "sample"
        "package p.q\nclass C<T>(val v: T)\nfun f(x: Int) = ::g\n".toList with
    | error fault =>
        rw [readable] at computed
        cases computed
    | ok tree => exact ⟨tree, rfl, keywords_apart.1 readable⟩
  · exact (keywords_apart.2 .val '\u00e9' [] (by decide) (by decide +kernel)).2.2.2

end Grammar

end Gloss
