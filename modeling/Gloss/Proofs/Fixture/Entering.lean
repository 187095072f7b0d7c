import Gloss.Fixture
import Gloss.Proofs.Table

/-!
# The tables of a list of markers

Entering markers one after the other either fails at the first collision or
ends with tables that can be read off the list of markers.  `Compatible` is the
absence of collisions, and `extract_eq_ok_iff` describes extraction without
any order of steps.
-/

namespace Gloss

namespace Marker

/-- The markers of one kind. -/
def ofKind (kind : MarkerKind) (markers : List Marker) : List Marker :=
  markers.filter fun marker => marker.kind = kind

theorem ofKind_append (kind : MarkerKind) (first second : List Marker) :
    ofKind kind (first ++ second) = ofKind kind first ++ ofKind kind second :=
  List.filter_append first second

theorem ofKind_singleton (kind : MarkerKind) (marker : Marker) :
    ofKind kind [marker] = if marker.kind = kind then [marker] else [] := by
  by_cases same : marker.kind = kind <;> simp [ofKind, same]

theorem mem_ofKind {kind : MarkerKind} {markers : List Marker} {marker : Marker} :
    marker ∈ ofKind kind markers ↔ marker ∈ markers ∧ marker.kind = kind := by
  simp [ofKind]

/-- No two markers collide, and no type is asserted of nothing. -/
structure Compatible (markers : List Marker) : Prop where
  declarations : ((ofKind .declaration markers).map Marker.payload).Nodup
  references : ((ofKind .reference markers).map Marker.offset).Nodup
  types : ((ofKind .type markers).map Marker.offset).Nodup
  typesFollowText : ∀ marker ∈ ofKind .type markers, 0 ≤ marker.offset

theorem compatible_nil : Compatible [] := by
  constructor <;> simp [ofKind]

theorem Compatible.of_append {first second : List Marker}
    (compatible : Compatible (first ++ second)) : Compatible first := by
  obtain ⟨declarations, references, types, typesFollowText⟩ := compatible
  simp only [ofKind_append, List.map_append] at declarations references types
  refine ⟨declarations.of_append_left, references.of_append_left,
    types.of_append_left, ?_⟩
  intro marker member
  apply typesFollowText
  rw [ofKind_append]
  exact List.mem_append_left _ member

end Marker

namespace Expectations

open Marker

/-- What markers expect, as far as their keys do not collide. -/
def ofMarkers (markers : List Marker) : Expectations where
  declarations :=
    ⟨(ofKind .declaration markers).map fun marker => (marker.payload, marker.offset)⟩
  references :=
    ⟨(ofKind .reference markers).map fun marker => (marker.offset, marker.payload)⟩
  typeAssertions :=
    ⟨(ofKind .type markers).map fun marker => (marker.offset, marker.payload)⟩

theorem keys_declarations_ofMarkers (markers : List Marker) :
    (ofMarkers markers).declarations.keys =
      (ofKind .declaration markers).map Marker.payload := by
  simp [ofMarkers, Table.keys, Function.comp_def]

theorem keys_references_ofMarkers (markers : List Marker) :
    (ofMarkers markers).references.keys =
      (ofKind .reference markers).map Marker.offset := by
  simp [ofMarkers, Table.keys, Function.comp_def]

theorem keys_typeAssertions_ofMarkers (markers : List Marker) :
    (ofMarkers markers).typeAssertions.keys =
      (ofKind .type markers).map Marker.offset := by
  simp [ofMarkers, Table.keys, Function.comp_def]

private theorem nodup_map_append_singleton {α β : Type} (key : α → β) (items : List α)
    (item : α) :
    ((items ++ [item]).map key).Nodup ↔ (items.map key).Nodup ∧ key item ∉ items.map key := by
  rw [List.map_append, List.map_singleton, List.nodup_append]
  simp only [List.nodup_cons, List.not_mem_nil, not_false_eq_true, List.nodup_nil, and_true,
    true_and, List.mem_singleton, forall_eq]
  constructor
  · intro given
    obtain ⟨distinct, different⟩ := given
    exact ⟨distinct, fun member => different _ member rfl⟩
  · intro given
    obtain ⟨distinct, absent⟩ := given
    refine ⟨distinct, ?_⟩
    intro _ member same
    subst same
    exact absent member

/-- One more marker, when the marker before it do not collide. -/
theorem compatible_append_singleton {markers : List Marker} (compatible : Compatible markers)
    (marker : Marker) :
    Compatible (markers ++ [marker]) ↔
      match marker.kind with
      | .declaration => marker.payload ∉ (ofMarkers markers).declarations.keys
      | .reference => marker.offset ∉ (ofMarkers markers).references.keys
      | .type => 0 ≤ marker.offset ∧ marker.offset ∉ (ofMarkers markers).typeAssertions.keys := by
  obtain ⟨declarations, references, types, typesFollowText⟩ := compatible
  cases kind : marker.kind with
  | declaration =>
      simp only [keys_declarations_ofMarkers]
      constructor
      · intro extended
        have distinct := extended.declarations
        rw [ofKind_append, ofKind_singleton, if_pos kind, nodup_map_append_singleton] at distinct
        exact distinct.2
      · intro new
        constructor <;> simp only [ofKind_append, ofKind_singleton, kind, reduceCtorEq, if_false,
          if_true, List.append_nil]
        · exact (nodup_map_append_singleton _ _ _).mpr ⟨declarations, new⟩
        · exact references
        · exact types
        · exact typesFollowText
  | reference =>
      simp only [keys_references_ofMarkers]
      constructor
      · intro extended
        have distinct := extended.references
        rw [ofKind_append, ofKind_singleton, if_pos kind, nodup_map_append_singleton] at distinct
        exact distinct.2
      · intro new
        constructor <;> simp only [ofKind_append, ofKind_singleton, kind, reduceCtorEq, if_false,
          if_true, List.append_nil]
        · exact declarations
        · exact (nodup_map_append_singleton _ _ _).mpr ⟨references, new⟩
        · exact types
        · exact typesFollowText
  | type =>
      simp only [keys_typeAssertions_ofMarkers]
      constructor
      · intro extended
        have distinct := extended.types
        rw [ofKind_append, ofKind_singleton, if_pos kind, nodup_map_append_singleton] at distinct
        refine ⟨extended.typesFollowText marker ?_, distinct.2⟩
        simp [mem_ofKind, kind]
      · intro given
        obtain ⟨follows, new⟩ := given
        constructor <;> simp only [ofKind_append, ofKind_singleton, kind, reduceCtorEq, if_false,
          if_true, List.append_nil]
        · exact declarations
        · exact references
        · exact (nodup_map_append_singleton _ _ _).mpr ⟨types, new⟩
        · intro asserted member
          rcases List.mem_append.mp member with old | new
          · exact typesFollowText asserted old
          · rw [List.mem_singleton.mp new]
            exact follows

theorem ofMarkers_append_singleton (markers : List Marker) (marker : Marker) :
    ofMarkers (markers ++ [marker]) =
      match marker.kind with
      | .declaration =>
          { ofMarkers markers with declarations :=
            ⟨(ofMarkers markers).declarations.entries ++ [(marker.payload, marker.offset)]⟩ }
      | .reference =>
          { ofMarkers markers with references :=
            ⟨(ofMarkers markers).references.entries ++ [(marker.offset, marker.payload)]⟩ }
      | .type =>
          { ofMarkers markers with typeAssertions :=
            ⟨(ofMarkers markers).typeAssertions.entries ++ [(marker.offset, marker.payload)]⟩ } := by
  cases kind : marker.kind <;>
    simp [ofMarkers, ofKind_append, ofKind_singleton, kind]

/-- A cut is entered if its marker does not collide with those before it. -/
theorem enter_eq_ok_iff {file : String} {markers : List Marker}
    (compatible : Compatible markers) {cut : Cut} {entered : Expectations} :
    enter file (ofMarkers markers) cut = .ok entered ↔
      Compatible (markers ++ [cut.marker]) ∧
        entered = ofMarkers (markers ++ [cut.marker]) := by
  rw [compatible_append_singleton compatible, ofMarkers_append_singleton]
  unfold enter
  cases kind : cut.marker.kind with
  | declaration =>
      cases found : (ofMarkers markers).declarations.get? cut.marker.payload with
      | none =>
          have new := Table.get?_eq_none_iff.mp found
          simp [found, kind, new, Table.insert_of_notMem new, eq_comm]
      | some previous =>
          have old := Table.mem_keys_of_get? found
          simp [found, kind, old]
  | reference =>
      cases found : (ofMarkers markers).references.get? cut.marker.offset with
      | none =>
          have new := Table.get?_eq_none_iff.mp found
          simp [found, kind, new, Table.insert_of_notMem new, eq_comm]
      | some previous =>
          have old := Table.mem_keys_of_get? found
          simp [found, kind, old]
  | type =>
      by_cases dangling : cut.marker.offset < 0
      · simp [kind, dangling, Int.not_le.mpr dangling]
      · have follows := Int.not_lt.mp dangling
        cases found : (ofMarkers markers).typeAssertions.get? cut.marker.offset with
        | none =>
            have new := Table.get?_eq_none_iff.mp found
            simp [found, kind, dangling, follows, new, Table.insert_of_notMem new, eq_comm]
        | some previous =>
            have old := Table.mem_keys_of_get? found
            simp [found, kind, dangling, old]

theorem enterAll_eq_ok_iff {file : String} {markers : List Marker}
    (compatible : Compatible markers) {cuts : List Cut} {entered : Expectations} :
    enterAll file (ofMarkers markers) cuts = .ok entered ↔
      Compatible (markers ++ cuts.map Cut.marker) ∧
        entered = ofMarkers (markers ++ cuts.map Cut.marker) := by
  induction cuts generalizing markers with
  | nil => simp [enterAll, compatible, eq_comm]
  | cons cut later ih =>
      unfold enterAll
      cases step : enter file (ofMarkers markers) cut with
      | error fault =>
          simp only [reduceCtorEq, List.map_cons, false_iff, not_and]
          intro all
          have split : Compatible ((markers ++ [cut.marker]) ++ later.map Cut.marker) := by
            simpa using all
          have accepted : enter file (ofMarkers markers) cut = .ok _ :=
            (enter_eq_ok_iff compatible).mpr ⟨split.of_append, rfl⟩
          rw [step] at accepted
          cases accepted
      | ok next =>
          obtain ⟨upTo, rfl⟩ := (enter_eq_ok_iff compatible).mp step
          simpa using ih upTo

end Expectations

namespace Fixture

/-- The markers of a text in the order in which they are found. -/
def found (text : List Char) : List Marker := (cutMarkers text).1.map Cut.marker

/-- Extraction succeeds when the markers found do not collide, and gives the
text left without them and their tables. -/
theorem extract_eq_ok_iff {file : String} {text : List Char} {fixture : Fixture} :
    extract file text = .ok fixture ↔
      Marker.Compatible (found text) ∧
        fixture =
          { text := (cutMarkers text).2, expectations := .ofMarkers (found text)
            markers := found text, file } := by
  have entering : ∀ entered, Expectations.empty.enterAll file (cutMarkers text).1 = .ok entered ↔
      Marker.Compatible (found text) ∧ entered = .ofMarkers (found text) := fun _ =>
    Expectations.enterAll_eq_ok_iff Marker.compatible_nil
  simp only [extract]
  cases outcome : Expectations.empty.enterAll file (cutMarkers text).1 with
  | error fault =>
      simp only [reduceCtorEq, false_iff, not_and]
      intro compatible
      have entered := (entering _).mpr ⟨compatible, rfl⟩
      rw [outcome] at entered
      cases entered
  | ok expectations =>
      obtain ⟨compatible, rfl⟩ := (entering _).mp outcome
      simp only [Except.ok.injEq]
      constructor
      · intro same
        subst same
        exact ⟨compatible, rfl⟩
      · intro given
        obtain ⟨-, rfl⟩ := given
        rfl

end Fixture

end Gloss
