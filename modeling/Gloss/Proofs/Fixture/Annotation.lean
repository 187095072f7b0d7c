import Gloss.Proofs.Fixture.Positions

/-!
# Annotating a text

An annotation puts markers into a clean text at given offsets.  Extraction
takes it back: the clean text returns, and every marker is recorded at the
offset where it was put, whatever other markers stand around it.
-/

namespace Gloss

/-- What a marker that is put into a text asserts. -/
inductive Assertion where
  | declaration (name : String)
  | reference (payload : String)
  | type (name : String)
  deriving DecidableEq, Repr

/-- A marker and the offset of the clean text at which it is put. -/
structure Insertion where
  offset : Nat
  assertion : Assertion
  deriving DecidableEq, Repr

namespace Assertion

def kind : Assertion → MarkerKind
  | declaration _ => .declaration
  | reference _ => .reference
  | type _ => .type

def payload : Assertion → String
  | declaration name => name
  | reference payload => payload
  | type name => name

def delimiter : Assertion → Delimiter
  | declaration _ => .tilde
  | reference _ | type _ => .backtick

/-- What stands between the delimiters. -/
def inside : Assertion → List Char
  | declaration name => name.toList
  | reference payload => payload.toList
  | type name => ':' :: name.toList

/-- The marker as it is written. -/
def raw (assertion : Assertion) : List Char :=
  assertion.delimiter.character :: assertion.inside ++ [assertion.delimiter.character]

/-- The payload can be told from its delimiters, and a reference from a type. -/
def WellFormed : Assertion → Prop
  | declaration name => name ≠ "" ∧ Delimiter.tilde.character ∉ name.toList
  | reference payload =>
      payload ≠ "" ∧ Delimiter.backtick.character ∉ payload.toList ∧
        payload.toList.head? ≠ some ':'
  | type name => Delimiter.backtick.character ∉ name.toList

end Assertion

namespace Insertion

/-- The record that is expected of an inserted marker. -/
def marker (insertion : Insertion) : Marker where
  kind := insertion.assertion.kind
  payload := insertion.assertion.payload
  offset := if insertion.assertion.kind = .type then (insertion.offset : Int) - 1
    else insertion.offset
  start := insertion.offset
  raw := String.ofList insertion.assertion.raw

/-- Each declared name with its offset. -/
def declarations (insertions : List Insertion) : List (String × Int) :=
  insertions.filterMap fun insertion =>
    match insertion.assertion with
    | .declaration name => some (name, (insertion.offset : Int))
    | _ => none

/-- Each offset of a reference with its payload. -/
def references (insertions : List Insertion) : List (Int × String) :=
  insertions.filterMap fun insertion =>
    match insertion.assertion with
    | .reference payload => some ((insertion.offset : Int), payload)
    | _ => none

/-- Each offset before a type with the name of the type. -/
def typeAssertions (insertions : List Insertion) : List (Int × String) :=
  insertions.filterMap fun insertion =>
    match insertion.assertion with
    | .type name => some ((insertion.offset : Int) - 1, name)
    | _ => none

end Insertion

/-- A text without delimiters. -/
def Unmarked (text : List Char) : Prop :=
  ∀ delimiter : Delimiter, delimiter.character ∉ text

/-- The text from an offset on with markers put into it, each at its offset. -/
def annotateFrom : Nat → List Char → List Insertion → List Char
  | _, text, [] => text
  | start, text, insertion :: rest =>
      text.take (insertion.offset - start) ++ insertion.assertion.raw ++
        annotateFrom insertion.offset (text.drop (insertion.offset - start)) rest

/-- A text with markers put into it, in ascending order of their offsets. -/
def annotate (text : List Char) (insertions : List Insertion) : List Char :=
  annotateFrom 0 text insertions

/-- Markers that can be put into a text and told apart afterwards. -/
structure Annotates (text : List Char) (insertions : List Insertion) : Prop where
  unmarked : Unmarked text
  ascending : insertions.Pairwise fun first second => first.offset ≤ second.offset
  inText : ∀ insertion ∈ insertions, insertion.offset ≤ text.length
  wellFormed : ∀ insertion ∈ insertions, insertion.assertion.WellFormed
  distinctNames : ((Insertion.declarations insertions).map Prod.fst).Nodup
  distinctReferences : ((Insertion.references insertions).map Prod.fst).Nodup
  distinctTypes : ((Insertion.typeAssertions insertions).map Prod.fst).Nodup
  typesFollowText : ∀ insertion ∈ insertions,
    insertion.assertion.kind = .type → 0 < insertion.offset

namespace Assertion

theorem WellFormed.inside_ne_nil {assertion : Assertion} (wellFormed : assertion.WellFormed) :
    assertion.inside ≠ [] := by
  cases assertion with
  | declaration name =>
      intro empty
      exact wellFormed.1 (String.toList_inj.mp (by simpa [inside] using empty))
  | reference payload =>
      intro empty
      exact wellFormed.1 (String.toList_inj.mp (by simpa [inside] using empty))
  | type name => exact List.cons_ne_nil _ _

theorem WellFormed.delimiter_notMem {assertion : Assertion}
    (wellFormed : assertion.WellFormed) :
    assertion.delimiter.character ∉ assertion.inside := by
  cases assertion with
  | declaration name => exact wellFormed.2
  | reference payload => exact wellFormed.2.1
  | type name =>
      intro member
      rcases List.mem_cons.mp member with isColon | inName
      · simp [delimiter, Delimiter.character] at isColon
      · exact wellFormed inName

end Assertion

namespace Cut

/-- A search passes over characters that are no delimiters. -/
theorem first?_append_of_unmarked {before : List Char} (unmarked : Unmarked before)
    (text : List Char) :
    first? (before ++ text) =
      (first? text).map fun cut => { cut with before := before ++ cut.before } := by
  apply first?_append
  intro offset within given
  obtain ⟨delimiter, first, rest, begins, -, -⟩ := given
  rw [List.drop_append_of_le_length (Nat.le_of_lt within), List.drop_eq_getElem_cons within,
    List.cons_append, List.cons.injEq] at begins
  exact unmarked delimiter (begins.1 ▸ List.getElem_mem within)

/-- The leftmost marker is the first one that was put in. -/
theorem first?_of_raw {before : List Char} (unmarked : Unmarked before)
    {assertion : Assertion} (wellFormed : assertion.WellFormed) (after : List Char) :
    first? (before ++ assertion.raw ++ after) =
      some { before, delimiter := assertion.delimiter, payload := assertion.inside, after } := by
  have closed := closing?_of_payload wellFormed.inside_ne_nil wellFormed.delimiter_notMem after
  rw [List.append_assoc, first?_append_of_unmarked unmarked]
  simp [Assertion.raw, first?, here?, closed]

theorem marker_of_backtick {payload : List Char} (noColon : payload.head? ≠ some ':')
    (before after : List Char) :
    (Cut.mk before .backtick payload after).marker =
      { kind := .reference, payload := String.ofList payload, offset := before.length
        start := before.length
        raw := String.ofList (Cut.mk before .backtick payload after).raw } := by
  cases payload with
  | nil => rfl
  | cons first rest =>
      have notColon : first ≠ ':' := by simpa using noColon
      simp [marker, start, notColon]

theorem marker_of_wellFormed {assertion : Assertion} (wellFormed : assertion.WellFormed)
    (before after : List Char) :
    (Cut.mk before assertion.delimiter assertion.inside after).marker =
      Insertion.marker ⟨before.length, assertion⟩ := by
  cases assertion with
  | declaration name =>
      simp [marker, Insertion.marker, Assertion.kind, Assertion.payload, Assertion.delimiter,
        Assertion.inside, Assertion.raw, raw, start]
  | type name =>
      simp [marker, Insertion.marker, Assertion.kind, Assertion.payload, Assertion.delimiter,
        Assertion.inside, Assertion.raw, raw, start]
  | reference payload =>
      rw [Assertion.delimiter, Assertion.inside, marker_of_backtick wellFormed.2.2]
      simp [Insertion.marker, Assertion.kind, Assertion.payload, Assertion.delimiter,
        Assertion.inside, Assertion.raw, raw]

end Cut

/-- The run of cuts on an annotated text takes out the inserted markers in their
order.  The induction is on the insertions still ahead; the text before them
is clean already. -/
theorem cuts_annotateFrom {insertions : List Insertion} {before text : List Char}
    (unmarked : Unmarked (before ++ text))
    (ascending : insertions.Pairwise fun first second => first.offset ≤ second.offset)
    (inText : ∀ insertion ∈ insertions,
      before.length ≤ insertion.offset ∧ insertion.offset ≤ before.length + text.length)
    (wellFormed : ∀ insertion ∈ insertions, insertion.assertion.WellFormed) :
    ∃ cuts, Cuts (before ++ annotateFrom before.length text insertions) cuts (before ++ text) ∧
      cuts.map Cut.marker = insertions.map Insertion.marker := by
  induction insertions generalizing before text with
  | nil =>
      refine ⟨[], .done ?_, rfl⟩
      have none := Cut.first?_append_of_unmarked unmarked []
      simpa [annotateFrom, Cut.first?] using none
  | cons insertion rest ih =>
      obtain ⟨notBefore, notAfter⟩ := inText insertion List.mem_cons_self
      let count := insertion.offset - before.length
      let reached := before ++ text.take count
      have reachedLength : reached.length = insertion.offset := by
        simp only [reached, count, List.length_append, List.length_take]
        omega
      have whole : reached ++ text.drop count = before ++ text := by
        simp [reached, List.append_assoc]
      have reachedUnmarked : Unmarked reached := by
        intro delimiter member
        apply unmarked delimiter
        rw [← whole]
        exact List.mem_append_left _ member
      have later : ∀ next ∈ rest, reached.length ≤ next.offset ∧
          next.offset ≤ reached.length + (text.drop count).length := by
        intro next member
        rw [reachedLength, List.length_drop]
        have order := (List.pairwise_cons.mp ascending).1 next member
        have bound := (inText next (List.mem_cons_of_mem _ member)).2
        omega
      have wholeUnmarked : Unmarked (reached ++ text.drop count) := whole ▸ unmarked
      obtain ⟨cuts, run, markers⟩ := ih wholeUnmarked (List.pairwise_cons.mp ascending).2 later
        (fun next member => wellFormed next (List.mem_cons_of_mem _ member))
      rw [reachedLength, whole] at run
      have thisWellFormed := wellFormed insertion List.mem_cons_self
      let after := annotateFrom insertion.offset (text.drop count) rest
      have found := Cut.first?_of_raw reachedUnmarked thisWellFormed after
      refine ⟨{ before := reached, delimiter := insertion.assertion.delimiter
                payload := insertion.assertion.inside, after } :: cuts, ?_, ?_⟩
      · have same : before ++ annotateFrom before.length text (insertion :: rest) =
            reached ++ insertion.assertion.raw ++ after := by
          simp [annotateFrom, reached, count, after, List.append_assoc]
        rw [same]
        exact .step found run
      · rw [List.map_cons, List.map_cons, markers, Cut.marker_of_wellFormed thisWellFormed,
          reachedLength]

namespace Insertion

theorem ofMarkers_map_marker (insertions : List Insertion) :
    Expectations.ofMarkers (insertions.map marker) =
      { declarations := ⟨declarations insertions⟩
        references := ⟨references insertions⟩
        typeAssertions := ⟨typeAssertions insertions⟩ } := by
  induction insertions with
  | nil => rfl
  | cons insertion rest ih =>
      obtain ⟨offset, assertion⟩ := insertion
      simp only [Expectations.ofMarkers, Expectations.mk.injEq, Table.mk.injEq] at ih ⊢
      obtain ⟨declarationsEq, referencesEq, typesEq⟩ := ih
      cases assertion <;>
        simp_all [Marker.ofKind, marker, declarations, references, typeAssertions,
          Assertion.kind, Assertion.payload]

end Insertion

theorem Annotates.compatible {text : List Char} {insertions : List Insertion}
    (annotates : Annotates text insertions) :
    Marker.Compatible (insertions.map Insertion.marker) := by
  have tables := Insertion.ofMarkers_map_marker insertions
  constructor
  · rw [← Expectations.keys_declarations_ofMarkers, tables]
    exact annotates.distinctNames
  · rw [← Expectations.keys_references_ofMarkers, tables]
    exact annotates.distinctReferences
  · rw [← Expectations.keys_typeAssertions_ofMarkers, tables]
    exact annotates.distinctTypes
  · intro found member
    obtain ⟨inList, asserts⟩ := Marker.mem_ofKind.mp member
    obtain ⟨insertion, insertionMember, rfl⟩ := List.mem_map.mp inList
    have asserted : insertion.assertion.kind = .type := asserts
    have follows := annotates.typesFollowText insertion insertionMember asserted
    simp only [Insertion.marker, if_pos asserted]
    omega

theorem Annotates.cuts {text : List Char} {insertions : List Insertion}
    (annotates : Annotates text insertions) :
    ∃ cuts, Cuts (annotate text insertions) cuts text ∧
      cuts.map Cut.marker = insertions.map Insertion.marker := by
  have inText : ∀ insertion ∈ insertions, ([] : List Char).length ≤ insertion.offset ∧
      insertion.offset ≤ ([] : List Char).length + text.length := by
    intro insertion member
    exact ⟨Nat.zero_le _, by simpa using annotates.inText insertion member⟩
  have unmarked : Unmarked ([] ++ text) := annotates.unmarked
  exact cuts_annotateFrom unmarked annotates.ascending inText annotates.wellFormed

/-- Extraction takes an annotation back. -/
theorem extract_annotate (file : String) {text : List Char} {insertions : List Insertion}
    (annotates : Annotates text insertions) :
    Fixture.extract file (annotate text insertions) =
      .ok
        { text
          expectations :=
            { declarations := ⟨Insertion.declarations insertions⟩
              references := ⟨Insertion.references insertions⟩
              typeAssertions := ⟨Insertion.typeAssertions insertions⟩ }
          markers := insertions.map Insertion.marker
          file } := by
  obtain ⟨cuts, run, markers⟩ := annotates.cuts
  have extracted : Fixture.extract file (annotate text insertions) = .ok _ :=
    Fixture.extract_of_cuts run (markers ▸ annotates.compatible)
  rw [markers, Insertion.ofMarkers_map_marker] at extracted
  exact extracted

/-- Four markers at one offset, two of them with the other delimiter inside. -/
theorem extract_annotate_adjacent :
    Fixture.extract "<fixture>" "a~`x~`~`~y~`:`b".toList =
      .ok
        { text := "ab".toList
          expectations :=
            { declarations := ⟨[("`x", 1), ("y", 1)]⟩
              references := ⟨[(1, "~")]⟩
              typeAssertions := ⟨[(0, "")]⟩ }
          markers :=
            [⟨.declaration, "`x", 1, 1, "~`x~"⟩, ⟨.reference, "~", 1, 1, "`~`"⟩,
              ⟨.declaration, "y", 1, 1, "~y~"⟩, ⟨.type, "", 0, 1, "`:`"⟩]
          file := "<fixture>" } := by
  let insertions : List Insertion :=
    [⟨1, .declaration "`x"⟩, ⟨1, .reference "~"⟩, ⟨1, .declaration "y"⟩, ⟨1, .type ""⟩]
  have annotates : Annotates "ab".toList insertions := by
    constructor
    · rintro (_ | _) <;> decide
    · simp [insertions]
    · simp [insertions]
    · simp [insertions, Assertion.WellFormed, Delimiter.character]
    · decide
    · decide
    · decide
    · simp [insertions]
  exact extract_annotate "<fixture>" annotates

end Gloss
