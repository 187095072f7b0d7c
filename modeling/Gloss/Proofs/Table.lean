import Gloss.Table
import Mathlib.Data.List.Infix
import Mathlib.Data.List.Nodup
import Mathlib.Data.List.Perm.Basic

/-!
# Tables whose keys are entered once

As long as every key is entered only once, a table is the list of its entries:
a new key goes to the end, and looking a key up finds the entry that has it.
Keys keep their places whatever is entered later.
-/

namespace Gloss.Table

variable {κ ν : Type} [DecidableEq κ]

theorem lookupIn_eq_none_iff {key : κ} {entries : List (κ × ν)} :
    lookupIn key entries = none ↔ key ∉ entries.map Prod.fst := by
  induction entries with
  | nil => simp [lookupIn]
  | cons entry rest ih =>
      obtain ⟨found, value⟩ := entry
      by_cases same : found = key
      · simp [lookupIn, same]
      · simp [lookupIn, same, Ne.symm same, ih]

theorem get?_eq_none_iff {table : Table κ ν} {key : κ} :
    table.get? key = none ↔ key ∉ table.keys :=
  lookupIn_eq_none_iff

theorem mem_of_lookupIn {key : κ} {value : ν} {entries : List (κ × ν)}
    (found : lookupIn key entries = some value) : (key, value) ∈ entries := by
  induction entries with
  | nil => simp [lookupIn] at found
  | cons entry rest ih =>
      obtain ⟨first, old⟩ := entry
      by_cases same : first = key
      · simp only [lookupIn, same, if_true, Option.some.injEq] at found
        simp [same, found]
      · simp only [lookupIn, same, if_false] at found
        exact List.mem_cons_of_mem _ (ih found)

theorem lookupIn_append (key : κ) (first second : List (κ × ν)) :
    lookupIn key (first ++ second) = (lookupIn key first).or (lookupIn key second) := by
  induction first with
  | nil => rfl
  | cons entry rest ih =>
      rw [List.cons_append, lookupIn, lookupIn]
      split
      · rfl
      · exact ih

theorem lookupIn_map {ω : Type} (key : κ) (entries : List (κ × ν)) (change : ν → ω) :
    lookupIn key (entries.map fun entry => (entry.1, change entry.2)) =
      (lookupIn key entries).map change := by
  induction entries with
  | nil => rfl
  | cons entry rest ih =>
      rw [List.map_cons, lookupIn, lookupIn]
      split
      · rfl
      · exact ih

theorem lookupIn_filter (key : κ) (entries : List (κ × ν)) (keep : κ → Bool) :
    lookupIn key (entries.filter fun entry => keep entry.1) =
      if keep key then lookupIn key entries else none := by
  induction entries with
  | nil => simp [lookupIn]
  | cons entry rest ih =>
      obtain ⟨found, value⟩ := entry
      by_cases same : found = key
      · subst same
        cases kept : keep found <;> simp [lookupIn, kept, ih]
      · cases kept : keep found <;> simp [lookupIn, kept, same, ih]

theorem insertIn_of_notMem {key : κ} {entries : List (κ × ν)}
    (new : key ∉ entries.map Prod.fst) (value : ν) :
    insertIn key value entries = entries ++ [(key, value)] := by
  induction entries with
  | nil => rfl
  | cons entry rest ih =>
      obtain ⟨found, old⟩ := entry
      simp only [List.map_cons, List.mem_cons, not_or] at new
      simp [insertIn, Ne.symm new.1, ih new.2]

theorem insert_of_notMem {table : Table κ ν} {key : κ} (new : key ∉ table.keys)
    (value : ν) : table.insert key value = ⟨table.entries ++ [(key, value)]⟩ := by
  rw [insert, insertIn_of_notMem new]

theorem keys_insert_of_notMem {table : Table κ ν} {key : κ} (new : key ∉ table.keys)
    (value : ν) : (table.insert key value).keys = table.keys ++ [key] := by
  rw [insert_of_notMem new, keys, List.map_append]
  rfl

theorem mem_keys_of_get? {table : Table κ ν} {key : κ} {value : ν}
    (found : table.get? key = some value) : key ∈ table.keys :=
  List.mem_map.mpr ⟨_, mem_of_lookupIn found, rfl⟩

theorem isSome_get?_insert {table : Table κ ν} {key other : κ} (value : ν)
    (known : (table.get? other).isSome) : ((table.insert key value).get? other).isSome := by
  rw [get?_insert]
  split
  · rfl
  · exact known

theorem isSome_get?_insert_self (table : Table κ ν) (key : κ) (value : ν) :
    ((table.insert key value).get? key).isSome := by
  rw [get?_insert, if_pos rfl]
  rfl

/-- A key that is entered stays where it is, or it goes to the end. -/
theorem keys_insert (table : Table κ ν) (key : κ) (value : ν) :
    (table.insert key value).keys =
      if key ∈ table.keys then table.keys else table.keys ++ [key] := by
  split
  · next isKey =>
      obtain ⟨entries⟩ := table
      change (insertIn key value entries).map Prod.fst = entries.map Prod.fst
      change key ∈ entries.map Prod.fst at isKey
      induction entries with
      | nil => cases isKey
      | cons entry rest ih =>
          obtain ⟨found, old⟩ := entry
          by_cases same : found = key
          · simp [insertIn, same]
          · have inRest : key ∈ rest.map Prod.fst :=
              (List.mem_cons.mp isKey).resolve_left fun same' => same same'.symm
            simp [insertIn, same, ih inRest]
  · next isNew => exact keys_insert_of_notMem isNew value

theorem keys_prefix_insert (table : Table κ ν) (key : κ) (value : ν) :
    table.keys <+: (table.insert key value).keys := by
  rw [keys_insert]
  split
  · exact List.prefix_refl _
  · exact List.prefix_append _ _

theorem mem_keys_insert {table : Table κ ν} {key other : κ} {value : ν} :
    other ∈ (table.insert key value).keys ↔ other = key ∨ other ∈ table.keys := by
  rw [keys_insert]
  split
  · next isKey => exact ⟨.inr, fun found => found.elim (· ▸ isKey) id⟩
  · rw [List.mem_append, List.mem_singleton, or_comm]

/-- What is known stays known when something unknown is entered. -/
theorem get?_insert_of_unknown {table later : Table κ ν} {key other : κ} {value found : ν}
    (unknown : table.get? other = none) (isKnown : table.get? key = some found)
    (stillKnown : later.get? key = some found) :
    (later.insert other value).get? key = some found := by
  rw [get?_insert, if_neg, stillKnown]
  rintro rfl
  rw [unknown] at isKnown
  cases isKnown

/-! ### Tables made of a list -/

theorem get?_foldl_insert_cases {pairs : List (κ × ν)} {table : Table κ ν} {key : κ} {value : ν}
    (found : (pairs.foldl (fun table pair => table.insert pair.1 pair.2) table).get? key =
      some value) : (key, value) ∈ pairs ∨ table.get? key = some value := by
  induction pairs generalizing table with
  | nil => exact .inr found
  | cons pair rest ih =>
      rcases ih found with inRest | before
      · exact .inl (List.mem_cons_of_mem _ inRest)
      · rw [get?_insert] at before
        split at before
        · next same =>
            cases before
            exact .inl (List.mem_cons.mpr (.inl (Prod.ext same.symm rfl)))
        · exact .inr before

theorem mem_of_get?_ofList {pairs : List (κ × ν)} {key : κ} {value : ν}
    (found : (ofList pairs).get? key = some value) : (key, value) ∈ pairs :=
  (get?_foldl_insert_cases found).resolve_right fun nothing => nomatch nothing

theorem isSome_get?_foldl_insert {pairs : List (κ × ν)} {table : Table κ ν} {key : κ}
    (isKey : key ∈ pairs.map Prod.fst ∨ (table.get? key).isSome) :
    ((pairs.foldl (fun table pair => table.insert pair.1 pair.2) table).get? key).isSome := by
  induction pairs generalizing table with
  | nil => exact isKey.resolve_left List.not_mem_nil
  | cons pair rest ih =>
      apply ih
      rcases isKey with isKey | before
      · rcases List.mem_cons.mp isKey with rfl | inRest
        · exact .inr (isSome_get?_insert_self table pair.1 pair.2)
        · exact .inl inRest
      · exact .inr (isSome_get?_insert pair.2 before)

theorem isSome_get?_ofList {pairs : List (κ × ν)} {key : κ} (isKey : key ∈ pairs.map Prod.fst) :
    ((ofList pairs).get? key).isSome :=
  isSome_get?_foldl_insert (.inl isKey)

end Gloss.Table
