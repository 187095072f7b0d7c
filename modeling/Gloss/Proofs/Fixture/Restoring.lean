import Gloss.Proofs.Fixture.Leftmost
import Gloss.Proofs.Fixture.Positions

/-!
# What extraction keeps

Extraction takes leftmost markers out until none is left.  It fails at the first
marker that collides with an earlier one.  If none does, the tables hold one entry
for each marker, and the markers put back in reverse order give the marked text.
-/

namespace Gloss

namespace MarkerKind

/-- The position that a marker of the kind is about, if it starts there. -/
def position (kind : MarkerKind) (start : Nat) : Int :=
  if kind = .type then (start : Int) - 1 else start

theorem position_injective (kind : MarkerKind) : Function.Injective kind.position := by
  intro first second same
  unfold position at same
  split at same <;> omega

end MarkerKind

namespace Marker

/-- A marker is written back into a text where it started. -/
def putBack (marker : Marker) (text : List Char) : List Char :=
  text.take marker.start ++ marker.raw.toList ++ text.drop marker.start

/-- No name is declared twice, neither two references nor two types start
together, and no type is asserted at the very start. -/
structure Recordable (markers : List Marker) : Prop where
  declarations : ((ofKind .declaration markers).map Marker.payload).Nodup
  references : ((ofKind .reference markers).map Marker.start).Nodup
  types : ((ofKind .type markers).map Marker.start).Nodup
  typesFollowText : ∀ marker ∈ ofKind .type markers, marker.start ≠ 0

end Marker

namespace Cut

/-- The fault of a marker that cannot be recorded beside the earlier ones, with the
earlier marker it collides with. -/
inductive Violates (file : String) (earlier : List Cut) (cut : Cut) : Fault → Prop where
  | declaration {previous : Cut} :
      previous ∈ earlier → previous.marker.kind = .declaration →
      cut.marker.kind = .declaration → previous.marker.payload = cut.marker.payload →
      Violates file earlier cut
        (.of (.duplicateDeclaration cut.marker.payload cut.start previous.start)
          (.ofOffset cut.whole cut.start file))
  | reference {previous : Cut} :
      previous ∈ earlier → previous.marker.kind = .reference →
      cut.marker.kind = .reference → previous.start = cut.start →
      Violates file earlier cut
        (.of (.duplicatePosition cut.start cut.marker.payload previous.marker.payload
          "reference") (.ofOffset cut.whole cut.start file))
  | type {previous : Cut} :
      previous ∈ earlier → previous.marker.kind = .type →
      cut.marker.kind = .type → previous.start = cut.start → cut.start ≠ 0 →
      Violates file earlier cut
        (.of (.duplicatePosition (cut.start - 1) cut.marker.payload previous.marker.payload
          "type") (.ofOffset cut.whole (cut.start - 1) file))
  | typeOfNothing :
      cut.marker.kind = .type → cut.start = 0 →
      Violates file earlier cut
        (.of (.danglingTypeAssertion cut.marker.payload) (.ofOffset cut.whole 0 file))

theorem raw_marker (cut : Cut) : cut.marker.raw = String.ofList cut.raw := by
  unfold marker
  split <;> rfl

theorem putBack_marker_remainder (cut : Cut) : cut.marker.putBack cut.remainder = cut.whole := by
  rw [Marker.putBack, start_marker, raw_marker, String.toList_ofList, remainder, start,
    List.take_left' rfl, List.drop_left' rfl, whole]

theorem exists_cut_of_mem_ofKind {kind : MarkerKind} {cuts : List Cut} {found : Marker}
    (member : found ∈ Marker.ofKind kind (cuts.map marker)) :
    ∃ cut ∈ cuts, cut.marker.kind = kind ∧ cut.marker = found := by
  obtain ⟨inList, asserts⟩ := Marker.mem_ofKind.mp member
  obtain ⟨cut, cutMember, rfl⟩ := List.mem_map.mp inList
  exact ⟨cut, cutMember, asserts, rfl⟩

theorem offset_of_mem_ofKind {kind : MarkerKind} {cuts : List Cut} {found : Marker}
    (member : found ∈ Marker.ofKind kind (cuts.map marker)) :
    found.offset = kind.position found.start := by
  obtain ⟨cut, -, rfl, rfl⟩ := exists_cut_of_mem_ofKind member
  rw [start_marker]
  exact cut.offset_marker

theorem nodup_offsets_iff (kind : MarkerKind) (cuts : List Cut) :
    ((Marker.ofKind kind (cuts.map marker)).map Marker.offset).Nodup ↔
      ((Marker.ofKind kind (cuts.map marker)).map Marker.start).Nodup := by
  have offsets : (Marker.ofKind kind (cuts.map marker)).map Marker.offset =
      ((Marker.ofKind kind (cuts.map marker)).map Marker.start).map kind.position := by
    rw [List.map_map]
    exact List.map_congr_left fun found member => offset_of_mem_ofKind member
  rw [offsets, List.nodup_map_iff kind.position_injective]

theorem recordable_iff_compatible (cuts : List Cut) :
    Marker.Recordable (cuts.map marker) ↔ Marker.Compatible (cuts.map marker) := by
  have follows : ∀ found ∈ Marker.ofKind .type (cuts.map marker),
      (found.start ≠ 0 ↔ 0 ≤ found.offset) := by
    intro found member
    rw [offset_of_mem_ofKind member, MarkerKind.position, if_pos rfl]
    omega
  constructor
  · intro recordable
    exact ⟨recordable.declarations, (nodup_offsets_iff .reference cuts).mpr recordable.references,
      (nodup_offsets_iff .type cuts).mpr recordable.types,
      fun found member => (follows found member).mp (recordable.typesFollowText found member)⟩
  · intro compatible
    exact ⟨compatible.declarations, (nodup_offsets_iff .reference cuts).mp compatible.references,
      (nodup_offsets_iff .type cuts).mp compatible.types,
      fun found member => (follows found member).mpr (compatible.typesFollowText found member)⟩

end Cut

namespace Expectations

open Marker

/-- An entry of a table comes from an earlier marker of the kind of the table. -/
theorem exists_cut_of_lookupIn {κ ν : Type} [DecidableEq κ] {kind : MarkerKind}
    {earlier : List Cut} {entry : Marker → κ × ν} {key : κ} {value : ν}
    (found : Table.lookupIn key ((ofKind kind (earlier.map Cut.marker)).map entry) = some value) :
    ∃ previous ∈ earlier, previous.marker.kind = kind ∧
      entry previous.marker = (key, value) ∧
      previous.marker.offset = kind.position previous.start := by
  obtain ⟨marker, member, same⟩ := List.mem_map.mp (Table.mem_of_lookupIn found)
  have stands := Cut.offset_of_mem_ofKind member
  obtain ⟨previous, previousMember, previousKind, rfl⟩ := Cut.exists_cut_of_mem_ofKind member
  rw [Cut.start_marker] at stands
  exact ⟨previous, previousMember, previousKind, same, stands⟩

/-- A cut that is not entered collides with a cut before it. -/
theorem violates_of_enter {file : String} {earlier : List Cut} {cut : Cut} {fault : Fault}
    (failed : enter file (ofMarkers (earlier.map Cut.marker)) cut = .error fault) :
    cut.Violates file earlier fault := by
  have offset : cut.marker.offset = cut.marker.kind.position cut.start := cut.offset_marker
  unfold enter at failed
  cases kind : cut.marker.kind with
  | declaration =>
      simp only [kind] at failed
      split at failed
      · rename_i position found
        obtain ⟨previous, member, previousKind, entry, stands⟩ := exists_cut_of_lookupIn found
        obtain ⟨samePayload, rfl⟩ := Prod.mk.inj entry
        cases failed
        rw [stands]
        exact .declaration member previousKind kind samePayload
      · cases failed
  | reference =>
      simp only [kind] at failed
      rw [kind] at offset
      split at failed
      · rename_i payload found
        obtain ⟨previous, member, previousKind, entry, stands⟩ := exists_cut_of_lookupIn found
        obtain ⟨sameOffset, rfl⟩ := Prod.mk.inj entry
        rw [stands, offset] at sameOffset
        have sameStart := MarkerKind.position_injective .reference sameOffset
        cases failed
        rw [offset]
        exact .reference member previousKind kind sameStart
      · cases failed
  | type =>
      simp only [kind] at failed
      rw [kind, MarkerKind.position, if_pos rfl] at offset
      split at failed
      · have atStart : cut.start = 0 := by omega
        cases failed
        rw [atStart]
        exact .typeOfNothing kind atStart
      · rename_i nonnegative
        split at failed
        · rename_i payload found
          obtain ⟨previous, member, previousKind, entry, stands⟩ := exists_cut_of_lookupIn found
          obtain ⟨sameOffset, rfl⟩ := Prod.mk.inj entry
          rw [MarkerKind.position, if_pos rfl] at stands
          cases failed
          rw [offset]
          exact .type member previousKind kind (by omega) (by omega)
        · cases failed

/-- Entering stops at the first cut that violates what the cuts before it allow. -/
theorem exists_violation {file : String} {earlier cuts : List Cut} {fault : Fault}
    (compatible : Compatible (earlier.map Cut.marker))
    (failed : enterAll file (ofMarkers (earlier.map Cut.marker)) cuts = .error fault) :
    ∃ entered cut later, cuts = entered ++ cut :: later ∧
      Compatible ((earlier ++ entered).map Cut.marker) ∧
      cut.Violates file (earlier ++ entered) fault := by
  induction cuts generalizing earlier with
  | nil => cases failed
  | cons cut later ih =>
      unfold enterAll at failed
      cases step : enter file (ofMarkers (earlier.map Cut.marker)) cut with
      | error first =>
          rw [step] at failed
          cases failed
          refine ⟨[], cut, later, rfl, ?_, ?_⟩
          · rw [List.append_nil]
            exact compatible
          · rw [List.append_nil]
            exact violates_of_enter step
      | ok next =>
          simp only [step] at failed
          obtain ⟨upTo, rfl⟩ := (enter_eq_ok_iff compatible).mp step
          have joined : earlier.map Cut.marker ++ [cut.marker] =
              (earlier ++ [cut]).map Cut.marker := by simp
          rw [joined] at upTo failed
          obtain ⟨entered, violating, rest, rfl, allowed, violates⟩ := ih upTo failed
          rw [List.append_assoc] at allowed violates
          exact ⟨cut :: entered, violating, rest, rfl, allowed, violates⟩

end Expectations

/-- Markers taken out of a text give it back when they are put in again, the last
one first. -/
theorem Strips.foldr_putBack {text left : List Char} {cuts : List Cut}
    (run : Strips text cuts left) : (cuts.map Cut.marker).foldr Marker.putBack left = text := by
  induction run with
  | stop text => rfl
  | @step text left cut later leftmost _ ih =>
      rw [List.map_cons, List.foldr_cons, ih, Cut.putBack_marker_remainder]
      exact leftmost.isOf.whole

namespace Fixture

/-- What a fixture keeps of the markers taken out of a text: a record and one entry
for each, and enough to write them back. -/
structure Keeps (fixture : Fixture) (raw : List Char) (cuts : List Cut)
    (clean : List Char) : Prop where
  text : fixture.text = clean
  markers : fixture.markers = cuts.map Cut.marker
  declarations : fixture.expectations.declarations.entries =
    (Marker.ofKind .declaration fixture.markers).map fun marker =>
      (marker.payload, (marker.start : Int))
  references : fixture.expectations.references.entries =
    (Marker.ofKind .reference fixture.markers).map fun marker =>
      ((marker.start : Int), marker.payload)
  typeAssertions : fixture.expectations.typeAssertions.entries =
    (Marker.ofKind .type fixture.markers).map fun marker =>
      ((marker.start : Int) - 1, marker.payload)
  distinctDeclarations : fixture.expectations.declarations.keys.Nodup
  distinctReferences : fixture.expectations.references.keys.Nodup
  distinctTypes : fixture.expectations.typeAssertions.keys.Nodup
  rebuilt : fixture.markers.foldr Marker.putBack fixture.text = raw
  settled : ∀ file, extract file fixture.text =
    .ok { text := fixture.text, expectations := .empty, markers := [], file }

/-- How a text is extracted: by its leftmost markers, taken out until none is left,
and up to the first one that collides with an earlier one. -/
structure Lossless (file : String) (raw : List Char) (cuts : List Cut)
    (clean : List Char) : Prop where
  stripped : Strips raw cuts clean
  finished : MarkerFree clean
  only : ∀ others left, Strips raw others left → others <+: cuts
  bounded : 3 * cuts.length ≤ raw.length
  succeeds : (∃ fixture, extract file raw = .ok fixture) ↔
    Marker.Recordable (cuts.map Cut.marker)
  fails : ¬ Marker.Recordable (cuts.map Cut.marker) →
    ∃ earlier cut later fault, cuts = earlier ++ cut :: later ∧
      Marker.Recordable (earlier.map Cut.marker) ∧ cut.Violates file earlier fault ∧
      extract file raw = .error fault
  keeps : ∀ fixture, extract file raw = .ok fixture → fixture.Keeps raw cuts clean

theorem extract_of_markerFree {text : List Char} (free : MarkerFree text) (file : String) :
    extract file text = .ok { text, expectations := .empty, markers := [], file } :=
  extract_of_cuts (.done (Cut.first?_eq_none_iff.mpr free)) Marker.compatible_nil

theorem entries_ofMarkers_eq {κ ν : Type} (kind : MarkerKind) (cuts : List Cut)
    (entry : Int → String → κ × ν) :
    ((Marker.ofKind kind (cuts.map Cut.marker)).map fun marker =>
        entry marker.offset marker.payload) =
      (Marker.ofKind kind (cuts.map Cut.marker)).map fun marker =>
        entry (kind.position marker.start) marker.payload := by
  apply List.map_congr_left
  intro found member
  rw [Cut.offset_of_mem_ofKind member]

theorem exists_violation_of_extract {file : String} {raw : List Char} {fault : Fault}
    (failed : extract file raw = .error fault) :
    ∃ earlier cut later, (cutMarkers raw).1 = earlier ++ cut :: later ∧
      Marker.Recordable (earlier.map Cut.marker) ∧ cut.Violates file earlier fault := by
  have entering : Expectations.enterAll file (.ofMarkers (List.map Cut.marker []))
      (cutMarkers raw).1 = .error fault := by
    unfold extract at failed
    simp only at failed
    split at failed
    · rename_i first step
      cases failed
      exact step
    · cases failed
  have nothing : Marker.Compatible (List.map Cut.marker []) := Marker.compatible_nil
  obtain ⟨earlier, cut, later, split, allowed, violates⟩ :=
    Expectations.exists_violation nothing entering
  exact ⟨earlier, cut, later, split, (Cut.recordable_iff_compatible earlier).mpr allowed, violates⟩

/-- Extraction loses nothing: it either names the first marker that cannot be recorded, or
keeps every marker. -/
theorem lossless_extract (file : String) (raw : List Char) :
    Lossless file raw (cutMarkers raw).1 (cutMarkers raw).2 := by
  have run := cuts_cutMarkers raw
  obtain ⟨stripped, finished⟩ := cuts_iff.mp run
  have succeeds : (∃ fixture, extract file raw = .ok fixture) ↔
      Marker.Recordable ((cutMarkers raw).1.map Cut.marker) := by
    rw [Cut.recordable_iff_compatible]
    constructor
    · intro given
      obtain ⟨fixture, extracted⟩ := given
      exact (extract_eq_ok_iff.mp extracted).1
    · intro compatible
      exact ⟨_, extract_of_cuts run compatible⟩
  refine ⟨stripped, finished, ?_, ?_, succeeds, ?_, ?_⟩
  · intro others left other
    have whole := (other.append (cuts_cutMarkers left)).eq_cutMarkers
    rw [whole]
    exact List.prefix_append _ _
  · have bound := stripped.length_le
    omega
  · intro colliding
    cases outcome : extract file raw with
    | ok fixture => exact absurd (succeeds.mp ⟨fixture, outcome⟩) colliding
    | error fault =>
        obtain ⟨earlier, cut, later, split, allowed, violates⟩ :=
          exists_violation_of_extract outcome
        exact ⟨earlier, cut, later, fault, split, allowed, violates, rfl⟩
  · intro fixture extracted
    obtain ⟨compatible, rfl⟩ := extract_eq_ok_iff.mp extracted
    refine ⟨rfl, rfl, ?_, ?_, ?_, ?_, ?_, ?_, ?_, ?_⟩
    · exact entries_ofMarkers_eq .declaration _ fun position payload => (payload, position)
    · exact entries_ofMarkers_eq .reference _ Prod.mk
    · exact entries_ofMarkers_eq .type _ Prod.mk
    · rw [Expectations.keys_declarations_ofMarkers]
      exact compatible.declarations
    · rw [Expectations.keys_references_ofMarkers]
      exact compatible.references
    · rw [Expectations.keys_typeAssertions_ofMarkers]
      exact compatible.types
    · exact stripped.foldr_putBack
    · exact extract_of_markerFree finished

end Fixture

end Gloss
