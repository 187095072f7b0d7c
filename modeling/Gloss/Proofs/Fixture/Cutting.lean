import Gloss.Fixture.Marker
import Mathlib.Data.List.TakeDrop
import Mathlib.Tactic.Common

/-!
# Where the leftmost marker is

`BeginsMarker` says, without any search, that a marker begins with the first
character of a text.  `first?` cuts at the first offset from which a marker
begins.  Cutting joins the text before the marker with the text after it, and
the next marker may begin in that joint; it then begins with the last
character before the joint, and never earlier.
-/

namespace Gloss

namespace Delimiter

@[simp] theorem ofCharacter?_character (delimiter : Delimiter) :
    ofCharacter? delimiter.character = some delimiter := by
  cases delimiter <;> rfl

end Delimiter

namespace Cut

/-- A delimiter, another character, and later on the delimiter again. -/
def BeginsMarker (text : List Char) : Prop :=
  ∃ (delimiter : Delimiter) (first : Char) (rest : List Char),
    text = delimiter.character :: first :: rest ∧
      first ≠ delimiter.character ∧ delimiter.character ∈ rest

theorem closing?_of_payload {delimiter : Char} {payload : List Char}
    (nonempty : payload ≠ []) (inside : delimiter ∉ payload) (after : List Char) :
    closing? delimiter (payload ++ delimiter :: after) = some (payload, after) := by
  have keeps : ∀ character ∈ payload, (character != delimiter) = true := by
    intro character member
    simp only [bne_iff_ne, ne_eq]
    intro same
    subst same
    exact inside member
  obtain ⟨first, rest, rfl⟩ := List.exists_cons_of_ne_nil nonempty
  have taken : (first :: rest ++ delimiter :: after).takeWhile (· != delimiter) =
      first :: rest := by
    rw [List.takeWhile_append_of_pos keeps]
    simp
  have dropped : (first :: rest ++ delimiter :: after).dropWhile (· != delimiter) =
      delimiter :: after := by
    rw [List.dropWhile_append_of_pos keeps]
    simp
  unfold closing?
  rw [taken, dropped]

theorem closing?_isSome_iff {delimiter : Char} {text : List Char} :
    (closing? delimiter text).isSome ↔
      ∃ first rest, text = first :: rest ∧ first ≠ delimiter ∧ delimiter ∈ rest := by
  constructor
  · intro found
    obtain ⟨⟨payload, after⟩, closed⟩ := Option.isSome_iff_exists.mp found
    have payloadClosed := closed
    obtain ⟨nonempty, rfl⟩ := closing?_eq_some closed
    obtain ⟨first, rest, rfl⟩ := List.exists_cons_of_ne_nil nonempty
    refine ⟨first, rest ++ delimiter :: after, rfl, ?_, by simp⟩
    intro same
    subst same
    simp [closing?] at payloadClosed
  · intro given
    obtain ⟨first, rest, rfl, different, member⟩ := given
    obtain ⟨inside, after, rfl, notInside⟩ := List.eq_append_cons_of_mem member
    have apart : delimiter ∉ first :: inside := by simp [Ne.symm different, notInside]
    have found := closing?_of_payload (List.cons_ne_nil first inside) apart after
    rw [List.cons_append] at found
    rw [found]
    rfl

theorem here?_isSome_iff {character : Char} {rest : List Char} :
    (here? character rest).isSome ↔ BeginsMarker (character :: rest) := by
  constructor
  · intro found
    unfold here? at found
    split at found
    · simp at found
    · rename_i delimiter opened
      have closed : (closing? character rest).isSome := by
        split at found
        · simp at found
        · rename_i closed
          simp [closed]
      obtain ⟨first, later, rfl, different, member⟩ := closing?_isSome_iff.mp closed
      have same := character_of_ofCharacter? opened
      subst same
      exact ⟨delimiter, first, later, rfl, different, member⟩
  · intro given
    obtain ⟨delimiter, first, later, equality, different, member⟩ := given
    obtain ⟨rfl, rfl⟩ := List.cons.inj equality
    have closed := closing?_isSome_iff.mpr ⟨first, later, rfl, different, member⟩
    obtain ⟨⟨payload, after⟩, found⟩ := Option.isSome_iff_exists.mp closed
    simp [here?, found]

/-- A marker begins where a search cuts, and none begins earlier. -/
theorem beginsMarker_start {text : List Char} {cut : Cut} (found : first? text = some cut) :
    BeginsMarker (text.drop cut.start) ∧
      ∀ offset < cut.start, ¬ BeginsMarker (text.drop offset) := by
  induction text generalizing cut with
  | nil => simp [first?] at found
  | cons character rest ih =>
      unfold first? at found
      split at found
      · rename_i here hereFound
        simp only [Option.some.injEq] at found
        subst found
        have begins : BeginsMarker (character :: rest) :=
          here?_isSome_iff.mp (by simp [hereFound])
        have atOnce : here.start = 0 := by simp [start, (here?_eq_some hereFound).1]
        rw [atOnce]
        exact ⟨begins, fun offset earlier => absurd earlier (Nat.not_lt_zero offset)⟩
      · rename_i notHere
        obtain ⟨later, laterFound, rfl⟩ := Option.map_eq_some_iff.mp found
        obtain ⟨begins, least⟩ := ih laterFound
        refine ⟨begins, ?_⟩
        intro offset earlier
        cases offset with
        | zero =>
            rw [List.drop_zero, ← here?_isSome_iff, notHere]
            simp
        | succ offset => exact least offset (by simpa [start] using earlier)

/-- A marker that stands right behind another copy of its delimiter. -/
def Doubled (cut : Cut) : Prop := cut.before.getLast? = some cut.delimiter.character

instance (cut : Cut) : Decidable cut.Doubled := inferInstanceAs (Decidable (_ = _))

/-- No marker begins two or more characters before a cut, since those characters
would begin one in the text with the marker as well. -/
theorem not_beginsMarker_remainder {text : List Char} {cut : Cut}
    (found : first? text = some cut) {offset : Nat} (earlier : offset + 1 < cut.start) :
    ¬ BeginsMarker (cut.remainder.drop offset) := by
  intro given
  obtain ⟨delimiter, first, rest, begins, different, member⟩ := given
  have room : offset + 1 < cut.before.length := earlier
  apply (beginsMarker_start found).2 offset (Nat.lt_of_succ_lt earlier)
  have split : cut.before.drop offset =
      cut.before[offset] :: cut.before[offset + 1] :: cut.before.drop (offset + 2) := by
    rw [List.drop_eq_getElem_cons (by omega), List.drop_eq_getElem_cons (by omega)]
  have short : offset ≤ cut.before.length := by omega
  rw [remainder, List.drop_append_of_le_length short, split] at begins
  simp only [List.cons_append, List.cons.injEq] at begins
  obtain ⟨opening, second, restEq⟩ := begins
  rw [← whole_of_first? found, whole, List.append_assoc,
    List.drop_append_of_le_length short, split]
  refine ⟨delimiter, first, _, by rw [opening, second]; rfl, different, ?_⟩
  rw [← restEq] at member
  rcases List.mem_append.mp member with before | after
  · exact List.mem_append_left _ before
  · exact List.mem_append_right _ (List.mem_append_right _ after)

/-- A marker begins with the character right before a cut only if this character
and the marker cut out were a doubled delimiter. -/
theorem doubled_of_beginsMarker {text : List Char} {cut : Cut}
    (found : first? text = some cut) {offset : Nat} (joint : offset + 1 = cut.start)
    (begins : BeginsMarker (cut.remainder.drop offset)) : cut.Doubled := by
  obtain ⟨delimiter, first, rest, begins, different, member⟩ := begins
  have nonempty : cut.before ≠ [] := List.ne_nil_of_length_eq_add_one joint.symm
  obtain ⟨early, last, beforeEq⟩ := (List.eq_nil_or_concat cut.before).resolve_left nonempty
  rw [List.concat_eq_append] at beforeEq
  have length : early.length = offset := by
    rw [start, beforeEq, List.length_append, List.length_singleton] at joint
    omega
  rw [remainder, beforeEq, List.append_assoc, List.drop_left' length, List.singleton_append,
    List.cons.injEq] at begins
  obtain ⟨opening, afterEq⟩ := begins
  subst opening
  rw [Doubled, beforeEq, List.getLast?_concat]
  by_contra apart
  -- With another delimiter the marker cut out would itself begin the payload of an
  -- earlier marker.
  apply (beginsMarker_start found).2 offset (by omega)
  rw [← whole_of_first? found, whole, beforeEq, List.append_assoc, List.append_assoc,
    List.drop_left' length]
  refine ⟨delimiter, cut.delimiter.character, cut.payload ++ cut.delimiter.character :: cut.after,
    by simp [raw], ?_, ?_⟩
  · intro same
    exact apart (by simp [same])
  · rw [afterEq]
    simp [member]

/-- The marker found after a cut begins at most one character before it. -/
theorem start_le_start_succ {text : List Char} {cut later : Cut}
    (found : first? text = some cut) (foundLater : first? cut.remainder = some later) :
    cut.start ≤ later.start + 1 := by
  by_contra farther
  exact not_beginsMarker_remainder found (Nat.lt_of_not_le farther)
    (beginsMarker_start foundLater).1

/-- A search passes over characters with which no marker begins. -/
theorem first?_append {before text : List Char}
    (none : ∀ offset < before.length, ¬ BeginsMarker ((before ++ text).drop offset)) :
    first? (before ++ text) =
      (first? text).map fun cut => { cut with before := before ++ cut.before } := by
  induction before with
  | nil => simp
  | cons character rest ih =>
      have notHere : here? character (rest ++ text) = .none := by
        rw [← Option.not_isSome_iff_eq_none, here?_isSome_iff]
        exact none 0 (Nat.zero_lt_succ _)
      have noneLater : ∀ offset < rest.length, ¬ BeginsMarker ((rest ++ text).drop offset) :=
        fun offset within => none (offset + 1) (Nat.succ_lt_succ within)
      simp [first?, notHere, ih noneLater, Function.comp_def]

end Cut

/-- Cutting the leftmost marker out again and again until none is left. -/
inductive Cuts : List Char → List Cut → List Char → Prop where
  | done {text : List Char} : Cut.first? text = none → Cuts text [] text
  | step {text clean : List Char} {cut : Cut} {later : List Cut} :
      Cut.first? text = some cut →
      Cuts cut.remainder later clean →
      Cuts text (cut :: later) clean

theorem cutMarkers_of_none {text : List Char} (none : Cut.first? text = none) :
    cutMarkers text = ([], text) := by
  rw [cutMarkers]
  split
  · rfl
  · simp_all

theorem cutMarkers_of_some {text : List Char} {cut : Cut}
    (found : Cut.first? text = some cut) :
    cutMarkers text =
      (cut :: (cutMarkers cut.remainder).1, (cutMarkers cut.remainder).2) := by
  rw [cutMarkers]
  split
  · simp_all
  · rename_i same sameFound
    rw [found, Option.some.injEq] at sameFound
    rw [sameFound]

/-- All markers are cut out one after the other. -/
theorem cuts_cutMarkers (text : List Char) :
    Cuts text (cutMarkers text).1 (cutMarkers text).2 := by
  induction text using cutMarkers.induct with
  | case1 text none =>
      rw [cutMarkers_of_none none]
      exact .done none
  | case2 text cut found _ _ _ ih =>
      rw [cutMarkers_of_some found]
      exact .step found ih

/-- There is only one way to cut a text. -/
theorem Cuts.eq_cutMarkers {text clean : List Char} {cuts : List Cut}
    (run : Cuts text cuts clean) : cutMarkers text = (cuts, clean) := by
  induction run with
  | done none => exact cutMarkers_of_none none
  | step found later ih => rw [cutMarkers_of_some found, ih]

/-- A marker that began beyond the end of what is left in the end: one began a
single character beyond it, and the next one began at that end. -/
theorem Cuts.stepsBack {text clean : List Char} {cuts : List Cut}
    (run : Cuts text cuts clean) :
    ∀ cut ∈ cuts, clean.length < cut.start →
      ∃ first second, [first, second] <:+: cuts ∧
        first.start = clean.length + 1 ∧ second.start = clean.length := by
  induction run with
  | done none =>
      intro cut member
      simp at member
  | @step text clean first later found run ih =>
      have inLater : ∀ cut ∈ later, clean.length < cut.start →
          ∃ previous next, [previous, next] <:+: first :: later ∧
            previous.start = clean.length + 1 ∧ next.start = clean.length := by
        intro cut member beyond
        obtain ⟨previous, next, within, starts⟩ := ih cut member beyond
        exact ⟨previous, next, List.infix_cons within, starts⟩
      intro cut member beyond
      rcases List.mem_cons.mp member with rfl | memberLater
      · cases run with
        | done none =>
            -- Nothing is cut out later, so the text before the marker is still there.
            rw [Cut.start, Cut.remainder, List.length_append] at beyond
            omega
        | @step text clean second rest foundSecond run =>
            have near := Cut.start_le_start_succ found foundSecond
            by_cases farther : clean.length < second.start
            · exact inLater second List.mem_cons_self farther
            · exact ⟨cut, second, ⟨[], rest, rfl⟩, by omega, by omega⟩
      · exact inLater cut memberLater beyond

end Gloss
