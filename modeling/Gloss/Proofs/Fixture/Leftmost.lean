import Gloss.Proofs.Fixture.Cutting

/-!
# Leftmost markers

A marker of a text is any way to read the text as something before it, a
payload between two equal delimiters, and something after it.  The search finds
the one that starts first, and `Strips` takes the leftmost marker out any number
of times; neither says how a search goes about it.
-/

namespace Gloss

namespace Delimiter

theorem character_inj {first second : Delimiter}
    (same : first.character = second.character) : first = second := by
  have known := ofCharacter?_character first
  rw [same, ofCharacter?_character, Option.some.injEq] at known
  exact known.symm

end Delimiter

namespace Cut

/-- The text has a marker at the cut. -/
structure IsOf (cut : Cut) (text : List Char) : Prop where
  whole : cut.whole = text
  nonempty : cut.payload ≠ []
  closed : cut.delimiter.character ∉ cut.payload

/-- No marker of the text starts before the one at the cut. -/
structure IsLeftmost (cut : Cut) (text : List Char) : Prop where
  isOf : cut.IsOf text
  least : ∀ other : Cut, other.IsOf text → cut.start ≤ other.start

theorem notMem_of_closing? {delimiter : Char} {text payload after : List Char}
    (found : closing? delimiter text = some (payload, after)) : delimiter ∉ payload := by
  unfold closing? at found
  split at found
  · rename_i first inside closing rest insideEq restEq
    simp only [Option.some.injEq, Prod.mk.injEq] at found
    obtain ⟨rfl, rfl⟩ := found
    intro member
    rw [← insideEq] at member
    have kept := List.all_eq_true.mp List.all_takeWhile delimiter member
    simp at kept
  · simp at found

theorem isOf_of_here? {character : Char} {rest : List Char} {cut : Cut}
    (found : here? character rest = some cut) : cut.IsOf (character :: rest) := by
  have whole := (here?_eq_some found).2
  unfold here? at found
  split at found
  · simp at found
  · rename_i delimiter opened
    split at found
    · simp at found
    · rename_i payload after closed
      simp only [Option.some.injEq] at found
      subst found
      refine ⟨whole, (closing?_eq_some closed).1, ?_⟩
      rw [character_of_ofCharacter? opened]
      exact notMem_of_closing? closed

theorem isOf_of_first? {text : List Char} {cut : Cut} (found : first? text = some cut) :
    cut.IsOf text := by
  have whole := whole_of_first? found
  induction text generalizing cut with
  | nil => simp [first?] at found
  | cons character rest ih =>
      unfold first? at found
      split at found
      · rename_i here hereFound
        simp only [Option.some.injEq] at found
        subst found
        exact isOf_of_here? hereFound
      · obtain ⟨later, laterFound, rfl⟩ := Option.map_eq_some_iff.mp found
        have inRest := ih laterFound (whole_of_first? laterFound)
        exact ⟨whole, inRest.nonempty, inRest.closed⟩

theorem IsOf.drop_start {cut : Cut} {text : List Char} (isOf : cut.IsOf text) :
    text.drop cut.start =
      cut.delimiter.character :: (cut.payload ++ cut.delimiter.character :: cut.after) := by
  rw [← isOf.whole, Cut.whole, List.append_assoc, start, List.drop_left' rfl]
  simp [raw]

theorem IsOf.take_start {cut : Cut} {text : List Char} (isOf : cut.IsOf text) :
    text.take cut.start = cut.before := by
  rw [← isOf.whole, Cut.whole, List.append_assoc, start, List.take_left' rfl]

theorem IsOf.beginsMarker {cut : Cut} {text : List Char} (isOf : cut.IsOf text) :
    BeginsMarker (text.drop cut.start) := by
  obtain ⟨first, rest, payloadEq⟩ := List.exists_cons_of_ne_nil isOf.nonempty
  have different : first ≠ cut.delimiter.character := by
    intro same
    exact isOf.closed (by simp [payloadEq, same])
  refine ⟨cut.delimiter, first, rest ++ cut.delimiter.character :: cut.after, ?_, different,
    by simp⟩
  rw [isOf.drop_start, payloadEq, List.cons_append]

/-- Two markers of a text that start together are the same. -/
theorem IsOf.eq_of_start {cut other : Cut} {text : List Char} (isOf : cut.IsOf text)
    (otherIsOf : other.IsOf text) (same : cut.start = other.start) : cut = other := by
  have drops := isOf.drop_start
  rw [same, otherIsOf.drop_start, List.cons.injEq] at drops
  obtain ⟨opening, inside⟩ := drops
  have closing := closing?_of_payload isOf.nonempty isOf.closed cut.after
  rw [← inside, ← opening, closing?_of_payload otherIsOf.nonempty otherIsOf.closed,
    Option.some.injEq, Prod.mk.injEq] at closing
  have befores : cut.before = other.before := by
    rw [← isOf.take_start, same, otherIsOf.take_start]
  obtain ⟨payloads, afters⟩ := closing
  have delimiters := Delimiter.character_inj opening
  cases cut
  cases other
  simp_all

end Cut

/-- No marker can be read anywhere in the text. -/
def MarkerFree (text : List Char) : Prop := ∀ cut : Cut, ¬ cut.IsOf text

namespace Cut

theorem not_beginsMarker_of_first? {text : List Char} (none : first? text = none)
    (offset : Nat) : ¬ BeginsMarker (text.drop offset) := by
  induction text generalizing offset with
  | nil => simp [BeginsMarker]
  | cons character rest ih =>
      unfold first? at none
      split at none
      · cases none
      · rename_i notHere
        cases offset with
        | zero =>
            rw [List.drop_zero, ← here?_isSome_iff, notHere]
            simp
        | succ offset => exact ih (Option.map_eq_none_iff.mp none) offset

/-- The search finds nothing exactly if there is nothing to find. -/
theorem first?_eq_none_iff {text : List Char} : first? text = none ↔ MarkerFree text := by
  constructor
  · intro none cut isOf
    exact not_beginsMarker_of_first? none cut.start isOf.beginsMarker
  · intro free
    cases found : first? text with
    | none => rfl
    | some cut => exact absurd (isOf_of_first? found) (free cut)

/-- The search finds exactly the leftmost marker. -/
theorem first?_eq_some_iff {text : List Char} {cut : Cut} :
    first? text = some cut ↔ cut.IsLeftmost text := by
  have least : ∀ first, first? text = some first →
      ∀ other : Cut, other.IsOf text → first.start ≤ other.start := by
    intro first found other otherIsOf
    by_contra earlier
    exact (beginsMarker_start found).2 other.start (Nat.lt_of_not_le earlier)
      otherIsOf.beginsMarker
  constructor
  · intro found
    exact ⟨isOf_of_first? found, least cut found⟩
  · intro leftmost
    cases found : first? text with
    | none => exact absurd leftmost.isOf (first?_eq_none_iff.mp found cut)
    | some first =>
        have isOf := isOf_of_first? found
        have same : first.start = cut.start :=
          Nat.le_antisymm (least first found cut leftmost.isOf) (leftmost.least first isOf)
        rw [isOf.eq_of_start leftmost.isOf same]

end Cut

/-- The leftmost marker is taken out of what is left, again and again. -/
inductive Strips : List Char → List Cut → List Char → Prop where
  | stop (text : List Char) : Strips text [] text
  | step {text left : List Char} {cut : Cut} {later : List Cut} :
      cut.IsLeftmost text →
      Strips cut.remainder later left →
      Strips text (cut :: later) left

/-- Cutting all markers out is taking leftmost markers out until none is left. -/
theorem cuts_iff {text clean : List Char} {cuts : List Cut} :
    Cuts text cuts clean ↔ Strips text cuts clean ∧ MarkerFree clean := by
  constructor
  · intro run
    induction run with
    | done none => exact ⟨.stop _, Cut.first?_eq_none_iff.mp none⟩
    | step found _ ih => exact ⟨.step (Cut.first?_eq_some_iff.mp found) ih.1, ih.2⟩
  · intro given
    obtain ⟨run, free⟩ := given
    induction run with
    | stop text => exact .done (Cut.first?_eq_none_iff.mpr free)
    | step leftmost _ ih => exact .step (Cut.first?_eq_some_iff.mpr leftmost) (ih free)

namespace Strips

/-- Markers that are taken out are the first of those that are cut out in all. -/
theorem append {text left clean : List Char} {cuts later : List Cut}
    (run : Strips text cuts left) (rest : Cuts left later clean) :
    Cuts text (cuts ++ later) clean := by
  induction run with
  | stop text => exact rest
  | step leftmost _ ih => exact .step (Cut.first?_eq_some_iff.mpr leftmost) (ih rest)

/-- Every marker taken out is at least three characters long. -/
theorem length_le {text left : List Char} {cuts : List Cut} (run : Strips text cuts left) :
    left.length + 3 * cuts.length ≤ text.length := by
  induction run with
  | stop text => simp
  | @step text left cut later leftmost _ ih =>
      have nonempty := List.length_pos_iff.mpr leftmost.isOf.nonempty
      rw [← leftmost.isOf.whole]
      simp only [Cut.remainder, Cut.whole, Cut.raw, List.length_append, List.length_cons,
        List.length_nil] at ih ⊢
      omega

end Strips

end Gloss

/-!
### How far the marker search steps back

A marker that is taken out joins what stands before it with what stands after
it.  The search finds the next marker behind the joint, in it, or at most one
character before it; that last character then is a delimiter that the marker
taken out left over, and it opens the next marker.
-/

namespace Gloss

namespace Cut

variable {text : List Char} {cut next : Cut}

/-- Behind a doubled delimiter the text goes on with the delimiter left over. -/
theorem Doubled.drop_remainder (doubled : cut.Doubled) {offset : Nat}
    (joint : offset + 1 = cut.start) :
    cut.remainder.drop offset = cut.delimiter.character :: cut.after := by
  obtain ⟨early, beforeEq⟩ := List.getLast?_eq_some_iff.mp doubled
  have length : early.length = offset := by
    rw [start, beforeEq, List.length_append, List.length_singleton] at joint
    omega
  rw [remainder, beforeEq, List.append_assoc, List.drop_left' length, List.singleton_append]

/-- No marker of what is left begins more than one character before the joint. -/
theorem IsLeftmost.start_le_succ (leftmost : cut.IsLeftmost text) (isOf : next.IsOf cut.remainder) :
    cut.start ≤ next.start + 1 := by
  by_contra farther
  exact not_beginsMarker_remainder (first?_eq_some_iff.mpr leftmost) (Nat.lt_of_not_le farther)
    isOf.beginsMarker

/-- A marker of what is left that begins before the joint begins with a delimiter that the
marker taken out left over. -/
theorem IsLeftmost.doubled (leftmost : cut.IsLeftmost text) (isOf : next.IsOf cut.remainder)
    (stepsBack : next.start + 1 = cut.start) :
    cut.Doubled ∧ next.delimiter = cut.delimiter ∧
      BeginsMarker (cut.delimiter.character :: cut.after) := by
  have begins := isOf.beginsMarker
  have doubled := doubled_of_beginsMarker (first?_eq_some_iff.mpr leftmost) stepsBack begins
  have rest := doubled.drop_remainder stepsBack
  rw [rest] at begins
  rw [isOf.drop_start, List.cons.injEq] at rest
  exact ⟨doubled, Delimiter.character_inj rest.1, begins⟩

/-- The search steps back exactly if a delimiter is left over that opens a marker. -/
theorem IsLeftmost.stepsBack_iff (leftmost : cut.IsLeftmost text)
    (nextLeftmost : next.IsLeftmost cut.remainder) :
    next.start + 1 = cut.start ↔
      cut.Doubled ∧ BeginsMarker (cut.delimiter.character :: cut.after) := by
  constructor
  · intro stepsBack
    obtain ⟨doubled, -, begins⟩ := leftmost.doubled nextLeftmost.isOf stepsBack
    exact ⟨doubled, begins⟩
  · intro given
    obtain ⟨doubled, begins⟩ := given
    have near := leftmost.start_le_succ nextLeftmost.isOf
    by_contra farther
    have nonempty : cut.before ≠ [] := by
      intro nothing
      rw [Doubled, nothing] at doubled
      cases doubled
    have positive : 0 < cut.start := List.length_pos_iff.mpr nonempty
    have joint : cut.start - 1 + 1 = cut.start := Nat.sub_add_cancel positive
    have found := first?_eq_some_iff.mpr nextLeftmost
    apply (beginsMarker_start found).2 (cut.start - 1) (by omega)
    rw [doubled.drop_remainder joint]
    exact begins

end Cut

namespace Strips

variable {text left : List Char} {cuts : List Cut}

/-- Of two markers taken out in a row each is the leftmost one of its time. -/
theorem leftmost_of_infix (run : Strips text cuts left) {first second : Cut}
    (inRow : [first, second] <:+: cuts) :
    (∃ text, first.IsLeftmost text) ∧ second.IsLeftmost first.remainder := by
  induction run with
  | stop text => simp at inRow
  | @step text left cut later leftmost run ih =>
      rcases List.infix_cons_iff.mp inRow with isPrefix | isLater
      · obtain ⟨rfl, secondLeads⟩ := List.cons_prefix_cons.mp isPrefix
        refine ⟨⟨text, leftmost⟩, ?_⟩
        cases run with
        | stop => simp at secondLeads
        | step nextLeftmost _ =>
            obtain ⟨rfl, -⟩ := List.cons_prefix_cons.mp secondLeads
            exact nextLeftmost
      · exact ih isLater

theorem leftmost_of_mem (run : Strips text cuts left) {cut : Cut} (member : cut ∈ cuts) :
    ∃ text, cut.IsLeftmost text := by
  induction run with
  | stop text => cases member
  | @step text left here later leftmost run ih =>
      rcases List.mem_cons.mp member with rfl | isLater
      · exact ⟨text, leftmost⟩
      · exact ih isLater

/-- Over several markers the search steps back by no more characters than there are
markers. -/
theorem start_le_add (run : Strips text cuts left) {between : List Cut} {first last : Cut}
    (inRow : first :: (between ++ [last]) <:+: cuts) :
    first.start ≤ last.start + (between.length + 1) := by
  induction between generalizing first with
  | nil =>
      obtain ⟨⟨_, leftmost⟩, next⟩ := run.leftmost_of_infix inRow
      exact leftmost.start_le_succ next.isOf
  | cons second between ih =>
      have pair : [first, second] <:+: cuts :=
        ((List.prefix_append [first, second] (between ++ [last])).isInfix).trans inRow
      obtain ⟨⟨_, leftmost⟩, next⟩ := run.leftmost_of_infix pair
      have near := leftmost.start_le_succ next.isOf
      have far := ih ((List.suffix_cons first _).isInfix.trans inRow)
      rw [List.length_cons]
      omega

end Strips

/-- How far back the search goes while the markers of a text are taken out. -/
structure StepsBackByOne (raw : List Char) (cuts : List Cut) (clean : List Char) : Prop where
  run : Strips raw cuts clean
  free : MarkerFree clean
  /-- The second of two markers in a row begins at most one character before the first. -/
  near : ∀ first second : Cut, [first, second] <:+: cuts → first.start ≤ second.start + 1
  /-- It does so only behind a copy of the delimiter of the first, and with this copy. -/
  doubled : ∀ first second : Cut, [first, second] <:+: cuts → second.start + 1 = first.start →
    first.before.getLast? = some first.delimiter.character ∧ second.delimiter = first.delimiter
  /-- It does so whenever this copy opens a marker at all. -/
  stepsBack_iff : ∀ first second : Cut, [first, second] <:+: cuts →
    (second.start + 1 = first.start ↔
      first.Doubled ∧ Cut.BeginsMarker (first.delimiter.character :: first.after))
  /-- What a marker leaves has no marker that begins farther back. -/
  settled : ∀ cut ∈ cuts, ∀ other : Cut, other.IsOf cut.remainder → cut.start ≤ other.start + 1
  drift : ∀ (first last : Cut) (between : List Cut), first :: (between ++ [last]) <:+: cuts →
    first.start ≤ last.start + (between.length + 1)

/-- Extraction searches every text for markers without going back more than one character
at a time. -/
theorem stepsBackByOne_cutMarkers (raw : List Char) :
    StepsBackByOne raw (cutMarkers raw).1 (cutMarkers raw).2 := by
  obtain ⟨run, free⟩ := cuts_iff.mp (cuts_cutMarkers raw)
  refine ⟨run, free, ?_, ?_, ?_, ?_, fun _ _ _ => run.start_le_add⟩
  · intro first second inRow
    obtain ⟨⟨_, leftmost⟩, next⟩ := run.leftmost_of_infix inRow
    exact leftmost.start_le_succ next.isOf
  · intro first second inRow stepsBack
    obtain ⟨⟨_, leftmost⟩, next⟩ := run.leftmost_of_infix inRow
    obtain ⟨doubled, sameDelimiter, -⟩ := leftmost.doubled next.isOf stepsBack
    exact ⟨doubled, sameDelimiter⟩
  · intro first second inRow
    obtain ⟨⟨_, leftmost⟩, next⟩ := run.leftmost_of_infix inRow
    exact leftmost.stepsBack_iff next
  · intro cut member other isOf
    obtain ⟨_, leftmost⟩ := run.leftmost_of_mem member
    exact leftmost.start_le_succ isOf

/-- Two steps back in a row, each with a tilde left over. -/
example : (cutMarkers "~~~a~b~c~".toList).1.map Cut.start = [2, 1, 0] := by cbv

end Gloss
