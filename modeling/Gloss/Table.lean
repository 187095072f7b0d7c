/-!
# Tables

A table maps keys to values and remembers the order in which its keys were
first entered.  Entering a key again changes its value and keeps its rank.
-/

namespace Gloss

/-- Entries in the order in which their keys were first entered. -/
structure Table (κ ν : Type) where
  entries : List (κ × ν)
  deriving Repr, DecidableEq

namespace Table

variable {κ ν ω : Type}

def empty : Table κ ν := ⟨[]⟩

instance : Inhabited (Table κ ν) := ⟨empty⟩

def lookupIn [DecidableEq κ] (key : κ) : List (κ × ν) → Option ν
  | [] => none
  | (found, value) :: rest => if found = key then some value else lookupIn key rest

def get? [DecidableEq κ] (table : Table κ ν) (key : κ) : Option ν :=
  lookupIn key table.entries

def contains [DecidableEq κ] (table : Table κ ν) (key : κ) : Bool :=
  (table.get? key).isSome

def insertIn [DecidableEq κ] (key : κ) (value : ν) : List (κ × ν) → List (κ × ν)
  | [] => [(key, value)]
  | (found, old) :: rest =>
      if found = key then (found, value) :: rest
      else (found, old) :: insertIn key value rest

def insert [DecidableEq κ] (table : Table κ ν) (key : κ) (value : ν) : Table κ ν :=
  ⟨insertIn key value table.entries⟩

def erase [DecidableEq κ] (table : Table κ ν) (key : κ) : Table κ ν :=
  ⟨table.entries.filter fun entry => entry.1 ≠ key⟩

def keys (table : Table κ ν) : List κ := table.entries.map Prod.fst

def values (table : Table κ ν) : List ν := table.entries.map Prod.snd

def size (table : Table κ ν) : Nat := table.entries.length

def isEmpty (table : Table κ ν) : Bool := table.entries.isEmpty

def ofList [DecidableEq κ] (pairs : List (κ × ν)) : Table κ ν :=
  pairs.foldl (fun table pair => table.insert pair.1 pair.2) empty

theorem get?_insert [DecidableEq κ] (table : Table κ ν) (key other : κ) (value : ν) :
    (table.insert key value).get? other =
      if key = other then some value else table.get? other := by
  obtain ⟨entries⟩ := table
  simp only [insert, get?]
  induction entries with
  | nil => simp [insertIn, lookupIn]
  | cons entry rest ih =>
      obtain ⟨found, old⟩ := entry
      by_cases same : found = key
      · subst same
        by_cases hit : found = other <;> simp [insertIn, lookupIn, hit]
      · by_cases hit : found = other
        · subst hit
          simp [insertIn, lookupIn, same, Ne.symm same]
        · simp [insertIn, lookupIn, same, hit, ih]

theorem get?_erase [DecidableEq κ] (table : Table κ ν) (key other : κ) :
    (table.erase key).get? other =
      if key = other then none else table.get? other := by
  obtain ⟨entries⟩ := table
  simp only [erase, get?]
  induction entries with
  | nil => simp [lookupIn]
  | cons entry rest ih =>
      obtain ⟨found, old⟩ := entry
      by_cases same : found = key
      · subst same
        by_cases hit : found = other <;> simp_all [lookupIn]
      · by_cases hit : found = other
        · subst hit
          simp [lookupIn, same, Ne.symm same]
        · simp_all [lookupIn]

end Table

end Gloss
