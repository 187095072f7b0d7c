import Gloss.Proofs.Fixture.Cutting
import Gloss.Proofs.Fixture.Entering

/-!
# Positions in the clean text

The tables of a fixture are meant to index its clean text.  They do unless the
marker search steps back at the very end of that text: a marker begins one
character beyond the end, and cutting it out brings the next marker into being
one character earlier, with nothing left behind it.
-/

namespace Gloss

namespace Cut

theorem start_marker (cut : Cut) : cut.marker.start = cut.start := by
  unfold marker
  split <;> rfl

theorem offset_marker (cut : Cut) :
    cut.marker.offset =
      if cut.marker.kind = .type then (cut.start : Int) - 1 else cut.start := by
  unfold marker
  split <;> rfl

end Cut

namespace Fixture

open Marker

/-- A run of cuts whose markers do not collide is an extraction. -/
theorem extract_of_cuts {file : String} {text clean : List Char} {cuts : List Cut}
    (run : Cuts text cuts clean) (compatible : Compatible (cuts.map Cut.marker)) :
    extract file text =
      .ok
        { text := clean, expectations := .ofMarkers (cuts.map Cut.marker)
          markers := cuts.map Cut.marker, file } := by
  rw [extract_eq_ok_iff, found, run.eq_cutMarkers]
  exact ⟨compatible, rfl⟩

end Fixture

end Gloss
