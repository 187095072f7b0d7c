import Gloss.Proofs.Table
import Gloss.Resolution.Bindings

/-!
# Bindings as entries in a row

A resolution enters the outcomes of references one after the other.  When no
reference is entered twice nothing is ever taken back, and the tables hold
exactly what was entered.
-/

namespace Gloss

/-- What becomes of a reference. -/
inductive Meaning (δ : Type) where
  | target (target : δ)
  | ambiguous (candidates : List δ)
  | unresolved
  deriving DecidableEq, Repr

namespace Meaning

variable {δ : Type}

/-- The target, if the reference has one. -/
def target? : Meaning δ → Option δ
  | .target meant => some meant
  | .ambiguous _ | .unresolved => none

/-- The candidates between which the reference is ambiguous. -/
def candidates? : Meaning δ → Option (List δ)
  | .ambiguous candidates => some candidates
  | .target _ | .unresolved => none

/-- Whether the reference is unresolved. -/
def isUnresolved : Meaning δ → Bool
  | .unresolved => true
  | .target _ | .ambiguous _ => false

end Meaning

namespace Bindings

variable {ν δ : Type} [DecidableEq ν]

/-- Enters what becomes of a reference. -/
def enter (bindings : Bindings ν δ) (entry : ν × Meaning δ) : Bindings ν δ :=
  match entry.2 with
  | .target target => bindings.record entry.1 target
  | .ambiguous candidates => bindings.markAmbiguous entry.1 candidates
  | .unresolved => bindings.markUnresolved entry.1

/-- The bindings hold the given meaning of a reference and no other. -/
structure Holds (bindings : Bindings ν δ) (reference : ν) (meaning : Option (Meaning δ)) :
    Prop where
  targets : ∀ target, bindings.targets.get? reference = some target ↔
    meaning = some (.target target)
  ambiguous : ∀ candidates, bindings.ambiguous.get? reference = some candidates ↔
    meaning = some (.ambiguous candidates)
  unresolved : reference ∈ bindings.unresolved ↔ meaning = some .unresolved

variable {bindings : Bindings ν δ} {reference : ν} {meaning : Option (Meaning δ)}

theorem holds_empty (reference : ν) : (empty : Bindings ν δ).Holds reference none := by
  constructor
  · intro target
    simp [empty, Table.empty, Table.get?, Table.lookupIn]
  · intro candidates
    simp [empty, Table.empty, Table.get?, Table.lookupIn]
  · simp [empty]

theorem Holds.target?_eq (holds : bindings.Holds reference meaning) :
    bindings.targets.get? reference = meaning.bind Meaning.target? := by
  ext target
  rw [holds.targets target]
  cases meaning with
  | none => simp
  | some entered => cases entered <;> simp [Meaning.target?]

theorem Holds.candidates?_eq (holds : bindings.Holds reference meaning) :
    bindings.ambiguous.get? reference = meaning.bind Meaning.candidates? := by
  ext candidates
  rw [holds.ambiguous candidates]
  cases meaning with
  | none => simp
  | some entered => cases entered <;> simp [Meaning.candidates?]

theorem Holds.isAmbiguous_eq (holds : bindings.Holds reference meaning) :
    bindings.isAmbiguous reference = (meaning.bind Meaning.candidates?).isSome := by
  rw [isAmbiguous, Table.contains, holds.candidates?_eq]

theorem Holds.isUnresolved_eq (holds : bindings.Holds reference meaning) :
    bindings.isUnresolved reference = meaning.any Meaning.isUnresolved := by
  rw [Bool.eq_iff_iff, isUnresolved, decide_eq_true_iff, holds.unresolved]
  cases meaning with
  | none => simp
  | some entered => cases entered <;> simp [Meaning.isUnresolved]

/-- Entering a new reference gives it the meaning that is entered. -/
theorem Holds.enter_self (holds : bindings.Holds reference none) (entered : Meaning δ) :
    (bindings.enter (reference, entered)).Holds reference (some entered) := by
  have noTarget : bindings.targets.get? reference = none :=
    Option.eq_none_iff_forall_ne_some.mpr fun target found => by
      simpa using (holds.targets target).mp found
  have noCandidates : bindings.ambiguous.get? reference = none :=
    Option.eq_none_iff_forall_ne_some.mpr fun candidates found => by
      simpa using (holds.ambiguous candidates).mp found
  have notUnresolved : reference ∉ bindings.unresolved := fun member => by
    simpa using holds.unresolved.mp member
  cases entered with
  | target target =>
      constructor
      · intro other
        simp [enter, record, Table.get?_insert]
      · intro candidates
        simp [enter, record, Table.get?_erase]
      · simp [enter, record]
  | ambiguous candidates =>
      constructor
      · intro target
        simp [enter, markAmbiguous, Table.get?_erase]
      · intro others
        simp [enter, markAmbiguous, Table.get?_insert]
      · simpa [enter, markAmbiguous] using notUnresolved
  | unresolved =>
      constructor
      · intro target
        simp [enter, markUnresolved, Table.get?_erase]
      · intro candidates
        simp [enter, markUnresolved, noCandidates]
      · simp [enter, markUnresolved, notUnresolved]

/-- Entering a reference changes nothing for the others. -/
theorem Holds.enter_other (holds : bindings.Holds reference meaning) {entry : ν × Meaning δ}
    (different : entry.1 ≠ reference) : (bindings.enter entry).Holds reference meaning := by
  obtain ⟨other, entered⟩ := entry
  simp only at different
  cases entered with
  | target target =>
      constructor
      · intro target
        simpa [enter, record, Table.get?_insert, different] using holds.targets target
      · intro candidates
        simpa [enter, record, Table.get?_erase, different] using holds.ambiguous candidates
      · simpa [enter, record, Ne.symm different] using holds.unresolved
  | ambiguous candidates =>
      constructor
      · intro target
        simpa [enter, markAmbiguous, Table.get?_erase, different] using holds.targets target
      · intro others
        simpa [enter, markAmbiguous, Table.get?_insert, different] using holds.ambiguous others
      · simpa [enter, markAmbiguous] using holds.unresolved
  | unresolved =>
      constructor
      · intro target
        simpa [enter, markUnresolved, Table.get?_erase, different] using holds.targets target
      · intro candidates
        simpa [enter, markUnresolved] using holds.ambiguous candidates
      · have same : reference ∈ (bindings.markUnresolved other).unresolved ↔
            reference ∈ bindings.unresolved := by
          unfold markUnresolved
          split
          · rfl
          · simp [Ne.symm different]
        exact same.trans holds.unresolved

theorem holds_foldl_of_notMem {entries : List (ν × Meaning δ)}
    (holds : bindings.Holds reference meaning) (new : reference ∉ entries.map Prod.fst) :
    (entries.foldl enter bindings).Holds reference meaning := by
  induction entries generalizing bindings with
  | nil => exact holds
  | cons entry rest ih =>
      rw [List.map_cons, List.mem_cons, not_or] at new
      exact ih (holds.enter_other (Ne.symm new.1)) new.2

/-- References that are entered once have the meaning with which they were
entered. -/
theorem holds_foldl_of_mem {entries : List (ν × Meaning δ)}
    (distinct : (entries.map Prod.fst).Nodup) {entered : Meaning δ}
    (member : (reference, entered) ∈ entries) :
    (entries.foldl enter empty).Holds reference (some entered) := by
  obtain ⟨before, after, rfl⟩ := List.append_of_mem member
  rw [List.map_append, List.map_cons, List.nodup_append] at distinct
  obtain ⟨-, distinctAfter, apart⟩ := distinct
  have newBefore : reference ∉ before.map Prod.fst := fun inBefore =>
    apart _ inBefore _ List.mem_cons_self rfl
  have newAfter : reference ∉ after.map Prod.fst := (List.nodup_cons.mp distinctAfter).1
  rw [List.foldl_append, List.foldl_cons]
  apply holds_foldl_of_notMem _ newAfter
  exact (holds_foldl_of_notMem (holds_empty reference) newBefore).enter_self entered

end Bindings

end Gloss
