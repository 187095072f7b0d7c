import Gloss.Proofs.Fixture.Leftmost
import Gloss.Proofs.Fixture.Positions

/-!
# Taking markers out and scanning for them

A scan sees the markers of a text in one go from left to right, each one behind
the one before.  Taking markers out starts over every time, and may find a marker
that no scan sees.  As long as no marker stands right behind another copy of its
delimiter the two agree.
-/

namespace Gloss

/-- A marker where a scan sees it. -/
structure Sighting where
  start : Nat
  delimiter : Delimiter
  payload : List Char
  deriving DecidableEq, Repr

namespace Sighting

def length (sighting : Sighting) : Nat := sighting.payload.length + 2

def totalLength : List Sighting → Nat
  | [] => 0
  | sighting :: later => sighting.length + totalLength later

def stop (sighting : Sighting) : Nat := sighting.start + sighting.length

def covers (sighting : Sighting) (position : Nat) : Bool :=
  sighting.start ≤ position && position < sighting.stop

/-- What is left of a text that begins at an offset when the characters of the
markers seen are removed. -/
def removeFrom (offset : Nat) (seen : List Sighting) (text : List Char) : List Char :=
  ((text.zipIdx offset).filter fun item =>
    !seen.any fun sighting => sighting.covers item.2).map Prod.fst

/-- What is left of a text without the markers seen in it. -/
def remove (seen : List Sighting) (text : List Char) : List Char := removeFrom 0 seen text

end Sighting

namespace Cut

/-- The marker of a cut as a scan sees it that has come to an offset. -/
def sighting (offset : Nat) (cut : Cut) : Sighting where
  start := offset + cut.start
  delimiter := cut.delimiter
  payload := cut.payload

theorem length_sighting (offset : Nat) (cut : Cut) :
    (cut.sighting offset).length = cut.raw.length := by
  simp [sighting, Sighting.length, raw]

theorem length_after_lt {text : List Char} {cut : Cut} (found : first? text = some cut) :
    cut.after.length < text.length := by
  rw [← whole_of_first? found]
  simp only [whole, raw, List.length_append, List.length_cons]
  omega

end Cut

/-- The markers that a scan still sees from an offset on.  It goes on behind each. -/
def sightingsFrom (offset : Nat) (text : List Char) : List Sighting :=
  match _found : Cut.first? text with
  | none => []
  | some cut =>
      cut.sighting offset :: sightingsFrom (cut.sighting offset).stop cut.after
termination_by text.length
decreasing_by exact Cut.length_after_lt (by assumption)

/-- The markers that one scan from left to right sees in a text. -/
def sightings (text : List Char) : List Sighting := sightingsFrom 0 text

theorem sightingsFrom_of_none {text : List Char} (none : Cut.first? text = none)
    (offset : Nat) : sightingsFrom offset text = [] := by
  rw [sightingsFrom]
  split
  · rfl
  · simp_all

theorem sightingsFrom_of_some {text : List Char} {cut : Cut}
    (found : Cut.first? text = some cut) (offset : Nat) :
    sightingsFrom offset text =
      cut.sighting offset :: sightingsFrom (cut.sighting offset).stop cut.after := by
  rw [sightingsFrom]
  split
  · simp_all
  · rename_i same sameFound
    rw [found, Option.some.injEq] at sameFound
    rw [sameFound]

/-- What a scan sees: the leftmost marker of the text ahead of it, and then what it sees
behind this marker, until no marker is ahead. -/
inductive Scans : Nat → List Char → List Sighting → Prop where
  | finish {offset : Nat} {ahead : List Char} : MarkerFree ahead → Scans offset ahead []
  | next {offset : Nat} {ahead : List Char} {cut : Cut} {later : List Sighting} :
      cut.IsLeftmost ahead →
      Scans (cut.sighting offset).stop cut.after later →
      Scans offset ahead (cut.sighting offset :: later)

theorem scans_sightingsFrom (offset : Nat) (text : List Char) :
    Scans offset text (sightingsFrom offset text) := by
  induction offset, text using sightingsFrom.induct with
  | case1 offset text none =>
      rw [sightingsFrom_of_none none]
      exact .finish (Cut.first?_eq_none_iff.mp none)
  | case2 offset text cut found ih =>
      rw [sightingsFrom_of_some found]
      exact .next (Cut.first?_eq_some_iff.mp found) ih

theorem Scans.le_start {offset : Nat} {text : List Char} {seen : List Sighting}
    (scan : Scans offset text seen) : ∀ sighting ∈ seen, offset ≤ sighting.start := by
  induction scan with
  | finish => simp
  | @next offset ahead cut later leftmost scan ih =>
      have near : offset ≤ (cut.sighting offset).start := Nat.le_add_right _ _
      intro sighting member
      rcases List.mem_cons.mp member with rfl | isLater
      · exact near
      · exact Nat.le_trans (Nat.le_trans near (Nat.le_add_right _ _)) (ih sighting isLater)

namespace Sighting

theorem covers_iff {sighting : Sighting} {position : Nat} :
    sighting.covers position ↔ sighting.start ≤ position ∧ position < sighting.stop := by
  simp [covers]

theorem removeFrom_append (offset : Nat) (seen : List Sighting) (first second : List Char) :
    removeFrom offset seen (first ++ second) =
      removeFrom offset seen first ++ removeFrom (offset + first.length) seen second := by
  simp [removeFrom, List.zipIdx_append]

theorem removeFrom_of_uncovered {offset : Nat} {seen : List Sighting} {text : List Char}
    (uncovered : ∀ sighting ∈ seen, offset + text.length ≤ sighting.start) :
    removeFrom offset seen text = text := by
  have kept : (text.zipIdx offset).filter (fun item =>
      !seen.any fun sighting => sighting.covers item.2) = text.zipIdx offset := by
    rw [List.filter_eq_self]
    rintro ⟨character, position⟩ member
    have bounds := List.mem_zipIdx member
    simp only [Bool.not_eq_true', List.any_eq_false, covers_iff]
    intro sighting seenMember
    have start := uncovered sighting seenMember
    omega
  rw [removeFrom, kept, List.zipIdx_map_fst]

theorem removeFrom_nil (offset : Nat) (text : List Char) : removeFrom offset [] text = text :=
  removeFrom_of_uncovered (by simp)

theorem removeFrom_of_covered {sighting : Sighting} {text : List Char}
    (covered : text.length = sighting.length) (later : List Sighting) :
    removeFrom sighting.start (sighting :: later) text = [] := by
  have nothing : (text.zipIdx sighting.start).filter (fun item =>
      !(sighting :: later).any fun seen => seen.covers item.2) = [] := by
    rw [List.filter_eq_nil_iff]
    rintro ⟨character, position⟩ member
    have bounds := List.mem_zipIdx member
    simp only [Bool.not_eq_true', Bool.not_eq_false, List.any_eq_true, covers_iff]
    exact ⟨sighting, List.mem_cons_self, bounds.1, by rw [stop]; omega⟩
  rw [removeFrom, nothing, List.map_nil]

/-- A marker does not reach beyond its end. -/
theorem removeFrom_stop (sighting : Sighting) (later : List Sighting) (text : List Char) :
    removeFrom sighting.stop (sighting :: later) text =
      removeFrom sighting.stop later text := by
  unfold removeFrom
  congr 1
  apply List.filter_congr
  rintro ⟨character, position⟩ member
  have bounds := List.mem_zipIdx member
  have passed : sighting.covers position = false := by
    rw [Bool.eq_false_iff, ne_eq, covers_iff]
    omega
  simp [passed]

/-- The text before the first marker seen stays, and what follows this marker is left
to the markers behind it. -/
theorem removeFrom_cons {offset : Nat} {cut : Cut} {later : List Sighting}
    (behind : ∀ seen ∈ later, (cut.sighting offset).stop ≤ seen.start) :
    removeFrom offset (cut.sighting offset :: later) cut.whole =
      cut.before ++ removeFrom (cut.sighting offset).stop later cut.after := by
  have startEq : offset + cut.before.length = (cut.sighting offset).start := rfl
  have stopEq : offset + (cut.before ++ cut.raw).length = (cut.sighting offset).stop := by
    rw [stop, Cut.length_sighting, List.length_append, ← Nat.add_assoc, startEq]
  have uncovered : ∀ seen ∈ cut.sighting offset :: later,
      offset + cut.before.length ≤ seen.start := by
    intro seen member
    rcases List.mem_cons.mp member with rfl | isLater
    · exact Nat.le_of_eq startEq
    · exact Nat.le_trans (Nat.le_add_right _ _) (behind seen isLater)
  rw [Cut.whole, removeFrom_append, removeFrom_append, removeFrom_of_uncovered uncovered,
    startEq, removeFrom_of_covered (Cut.length_sighting offset cut).symm, List.append_nil,
    stopEq, removeFrom_stop]

end Sighting

/-- Markers taken out of a text of which the part kept is clean already and the part
ahead is the end of the marked text. -/
inductive Sweeps : List Char → List Char → List Cut → List Char → Prop where
  | stop (kept ahead : List Char) : Sweeps kept ahead [] (kept ++ ahead)
  | step {kept ahead left : List Char} {here : Cut} {later : List Cut} :
      Cut.first? ahead = some here →
      Sweeps (kept ++ here.before) here.after later left →
      Sweeps kept ahead ({ here with before := kept ++ here.before } :: later) left

/-- Unless a delimiter is doubled, the text before a marker that is taken out is clean
afterwards, and the next marker is found behind it. -/
theorem Strips.sweeps {kept ahead left : List Char} {cuts : List Cut}
    (run : Strips (kept ++ ahead) cuts left)
    (clean : ∀ offset < kept.length, ¬ Cut.BeginsMarker ((kept ++ ahead).drop offset))
    (single : ∀ cut ∈ cuts, ¬ cut.Doubled) : Sweeps kept ahead cuts left := by
  induction cuts generalizing kept ahead with
  | nil =>
      cases run
      exact .stop kept ahead
  | cons cut later ih =>
      cases run with
      | step leftmost run =>
          have found := Cut.first?_eq_some_iff.mpr leftmost
          have cleanBefore : ∀ offset < cut.start,
              ¬ Cut.BeginsMarker (cut.remainder.drop offset) := by
            intro offset earlier begins
            rcases Nat.lt_or_eq_of_le (Nat.succ_le_of_lt earlier) with far | joint
            · exact Cut.not_beginsMarker_remainder found far begins
            · exact single cut List.mem_cons_self (Cut.doubled_of_beginsMarker found joint begins)
          have foundAhead := found
          rw [Cut.first?_append clean] at foundAhead
          obtain ⟨here, hereFound, rfl⟩ := Option.map_eq_some_iff.mp foundAhead
          exact .step hereFound
            (ih run cleanBefore fun next member => single next (List.mem_cons_of_mem _ member))

namespace Sweeps

variable {kept ahead left : List Char} {cuts : List Cut}

theorem prefix_left (run : Sweeps kept ahead cuts left) : kept <+: left := by
  induction run with
  | stop kept ahead => exact List.prefix_append _ _
  | step _ _ ih => exact (List.prefix_append _ _).trans ih

/-- The text before each marker is not changed any more. -/
theorem before_prefix_left (run : Sweeps kept ahead cuts left) :
    ∀ cut ∈ cuts, cut.before <+: left := by
  induction run with
  | stop kept ahead => simp
  | step found run ih =>
      intro cut member
      rcases List.mem_cons.mp member with rfl | later
      · exact run.prefix_left
      · exact ih cut later

theorem length_le_start (run : Sweeps kept ahead cuts left) :
    ∀ cut ∈ cuts, kept.length ≤ cut.start := by
  induction run with
  | stop kept ahead => simp
  | step found run ih =>
      intro cut member
      rcases List.mem_cons.mp member with rfl | later
      · simp [Cut.start]
      · have far := ih cut later
        rw [List.length_append] at far
        exact Nat.le_trans (Nat.le_add_right _ _) far

theorem ascending (run : Sweeps kept ahead cuts left) :
    cuts.Pairwise fun earlier later => earlier.start ≤ later.start := by
  induction run with
  | stop kept ahead => exact .nil
  | step found run ih => exact List.pairwise_cons.mpr ⟨run.length_le_start, ih⟩

/-- The markers taken out are the first that a scan of the part ahead sees. -/
theorem seen (run : Sweeps kept ahead cuts left) (offset : Nat) :
    cuts.map (fun cut => (cut.delimiter, cut.payload)) =
      ((sightingsFrom offset ahead).take cuts.length).map
        fun sighting => (sighting.delimiter, sighting.payload) := by
  induction run generalizing offset with
  | stop kept ahead => rfl
  | step found run ih =>
      rw [sightingsFrom_of_some found, List.length_cons, List.take_succ_cons, List.map_cons,
        List.map_cons, ← ih]
      rfl

/-- A scan sees each marker where it is taken out, moved by what was removed before. -/
theorem start_eq (run : Sweeps kept ahead cuts left) {offset removed : Nat}
    (moved : offset = kept.length + removed) {index : Nat} {cut : Cut} {sighting : Sighting}
    (isTaken : cuts[index]? = some cut)
    (isSeen : (sightingsFrom offset ahead)[index]? = some sighting) :
    sighting.start = cut.start +
      (removed + Sighting.totalLength ((sightingsFrom offset ahead).take index)) := by
  induction run generalizing offset removed index with
  | stop kept ahead => cases isTaken
  | @step kept ahead left here later found run ih =>
      rw [sightingsFrom_of_some found] at isSeen ⊢
      cases index with
      | zero =>
          cases isTaken
          cases isSeen
          simp only [Cut.sighting, Cut.start, List.length_append, List.take_zero,
            Sighting.totalLength, moved]
          omega
      | succ index =>
          have movedFurther : (here.sighting offset).stop =
              (kept ++ here.before).length + (removed + here.raw.length) := by
            rw [Sighting.stop, Cut.length_sighting, List.length_append, moved]
            simp only [Cut.sighting, Cut.start]
            omega
          have start := ih movedFurther isTaken isSeen
          rw [List.take_succ_cons, Sighting.totalLength, Cut.length_sighting]
          omega

/-- What is left is the marked text without the markers seen. -/
theorem left_eq (run : Sweeps kept ahead cuts left) (offset : Nat) :
    left = kept ++
      Sighting.removeFrom offset ((sightingsFrom offset ahead).take cuts.length) ahead := by
  induction run generalizing offset with
  | stop kept ahead => simp [Sighting.removeFrom_nil]
  | @step kept ahead left here later found run ih =>
      have behind : ∀ seen ∈ (sightingsFrom (here.sighting offset).stop here.after).take
          later.length, (here.sighting offset).stop ≤ seen.start := by
        intro seen member
        exact (scans_sightingsFrom _ _).le_start seen (List.mem_of_mem_take member)
      rw [sightingsFrom_of_some found, List.length_cons, List.take_succ_cons,
        ← Cut.whole_of_first? found, Sighting.removeFrom_cons behind, ← List.append_assoc]
      exact ih _

/-- Once nothing is left to take out nothing is left to see. -/
theorem length_eq (run : Sweeps kept ahead cuts left) (free : MarkerFree left) (offset : Nat) :
    cuts.length = (sightingsFrom offset ahead).length := by
  induction run generalizing offset with
  | stop kept ahead =>
      have freeAhead : MarkerFree ahead := by
        intro cut isOf
        apply free { cut with before := kept ++ cut.before }
        refine ⟨?_, isOf.nonempty, isOf.closed⟩
        rw [← isOf.whole]
        simp [Cut.whole, Cut.raw]
      rw [sightingsFrom_of_none (Cut.first?_eq_none_iff.mpr freeAhead)]
      rfl
  | step found run ih =>
      rw [sightingsFrom_of_some found, List.length_cons, List.length_cons, ih free]

end Sweeps

/-- Taking markers out of a text agrees with one scan of it, so far as it has gone. -/
structure AgreesWithScan (raw : List Char) (cuts : List Cut) (left : List Char) : Prop where
  scanned : Scans 0 raw (sightings raw)
  /-- Extraction goes through the same markers. -/
  found : cuts <+: (cutMarkers raw).1
  seen : cuts.map (fun cut => (cut.delimiter, cut.payload)) =
    ((sightings raw).take cuts.length).map fun sighting =>
      (sighting.delimiter, sighting.payload)
  moved : ∀ (index : Nat) (cut : Cut) (sighting : Sighting), cuts[index]? = some cut →
    (sightings raw)[index]? = some sighting →
    sighting.start = cut.start + Sighting.totalLength ((sightings raw).take index)
  ascending : cuts.Pairwise fun earlier later => earlier.start ≤ later.start
  removed : left = Sighting.remove ((sightings raw).take cuts.length) raw
  settled : ∀ cut ∈ cuts, cut.before <+: left
  /-- With no marker left the scan has seen no more, and this is what is extracted. -/
  finished : MarkerFree left →
    cuts.length = (sightings raw).length ∧ left = Sighting.remove (sightings raw) raw ∧
      ∀ file fixture, Fixture.extract file raw = .ok fixture →
        fixture.text = left ∧ fixture.markers = cuts.map Cut.marker

/-- Starting the search over finds what one scan sees, as long as no marker found stands
right behind another copy of its delimiter.  This holds after any number of markers, in
particular up to one at which extraction fails. -/
theorem Strips.agreesWithScan {raw left : List Char} {cuts : List Cut}
    (run : Strips raw cuts left) (single : ∀ cut ∈ cuts, ¬ cut.Doubled) :
    AgreesWithScan raw cuts left := by
  have whole := (run.append (cuts_cutMarkers left)).eq_cutMarkers
  have fromStart : Strips ([] ++ raw) cuts left := run
  have swept : Sweeps [] raw cuts left :=
    fromStart.sweeps (fun offset within => absurd within (Nat.not_lt_zero offset)) single
  refine ⟨scans_sightingsFrom 0 raw, ?_, swept.seen 0, ?_, swept.ascending, swept.left_eq 0,
    swept.before_prefix_left, ?_⟩
  · rw [whole]
    exact List.prefix_append _ _
  · intro index cut sighting isTaken isSeen
    have atStart : 0 = ([] : List Char).length + 0 := rfl
    have start := swept.start_eq atStart isTaken isSeen
    rw [Nat.zero_add] at start
    exact start
  · intro free
    have sameLength : cuts.length = (sightings raw).length := swept.length_eq free 0
    refine ⟨sameLength, ?_, ?_⟩
    · have leftEq := swept.left_eq 0
      rw [← sightings, sameLength, List.take_length] at leftEq
      exact leftEq
    · intro file fixture extracted
      obtain ⟨-, rfl⟩ := Fixture.extract_eq_ok_iff.mp extracted
      have all := (cuts_iff.mpr ⟨run, free⟩).eq_cutMarkers
      exact ⟨by rw [all], by rw [Fixture.found, all]⟩

/-- A payload with the other delimiter in it, and a tilde that opens no marker. -/
theorem agreesWithScan_mixed :
    AgreesWithScan "~a`~x`b~c`d~".toList
      [⟨[], .tilde, "a`".toList, "x`b~c`d~".toList⟩,
        ⟨['x'], .backtick, "b~c".toList, "d~".toList⟩]
      "xd~".toList := by
  have run : Cuts "~a`~x`b~c`d~".toList
      [⟨[], .tilde, "a`".toList, "x`b~c`d~".toList⟩,
        ⟨['x'], .backtick, "b~c".toList, "d~".toList⟩]
      "xd~".toList :=
    .step (by decide) (.step (by decide) (.done (by decide)))
  exact (cuts_iff.mp run).1.agreesWithScan (by decide)

end Gloss
