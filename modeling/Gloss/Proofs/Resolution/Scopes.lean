import Gloss.Resolution.Scope

/-!
# What scopes hold and how they lie in one another

A lookup finds symbols of the levels that it goes through, all of them
acceptable and with the name that is looked up.  What is seen from a scope are
the symbols of the scopes in its chain: the scope itself, the one around it and so
on.  Opening a scope adds a chain, and defining a symbol changes the symbols of
one scope and no chain.
-/

namespace Gloss.Scopes

variable {δ : Type}

section Lookup

variable {number : Nat} {scope : Scope δ} {symbol : Symbol δ}

theorem mem_of_mem_levelsIn {scopes : List (Scope δ)} (member : scope ∈ levelsIn number scopes) :
    scope ∈ scopes := by
  induction scopes generalizing number with
  | nil => simp [levelsIn] at member
  | cons first older ih =>
      rw [levelsIn] at member
      split at member
      · rcases List.mem_cons.mp member with rfl | outer
        · exact List.mem_cons_self
        · cases parent : first.parent with
          | none => simp [parent] at outer
          | some around =>
              simp only [parent] at outer
              exact List.mem_cons_of_mem _ (ih outer)
      · exact List.mem_cons_of_mem _ (ih member)

theorem mem_of_mem_levels {scopes : Scopes δ} (member : scope ∈ scopes.levels number) :
    scope ∈ scopes.newestFirst :=
  mem_of_mem_levelsIn member

theorem mem_of_mem_lookup {scopes : Scopes δ} {accept : SymbolKind → Bool} {name : String}
    (member : symbol ∈ scopes.lookup number accept name) :
    ∃ scope ∈ scopes.newestFirst, symbol ∈ scope.symbols ∧ accept symbol.kind = true := by
  unfold lookup at member
  cases found : ((scopes.levels number).map fun scope =>
      (scope.symbolsNamed name).filter fun symbol => accept symbol.kind).find?
        fun symbols => !symbols.isEmpty with
  | none => simp [found] at member
  | some symbols =>
      simp only [found, Option.getD_some] at member
      obtain ⟨scope, inLevels, rfl⟩ := List.mem_map.mp (List.mem_of_find?_eq_some found)
      obtain ⟨named, accepted⟩ := List.mem_filter.mp member
      exact ⟨scope, mem_of_mem_levels inLevels, (List.mem_filter.mp named).1, accepted⟩

/-- A definition adds a symbol to at most one scope. -/
theorem mem_symbols_of_define {scopes : Scopes δ} {added : Symbol δ}
    (inScopes : scope ∈ (scopes.define number added).newestFirst)
    (member : symbol ∈ scope.symbols) :
    symbol = added ∨ ∃ older ∈ scopes.newestFirst, symbol ∈ older.symbols := by
  obtain ⟨list⟩ := scopes
  simp only [define] at inScopes
  induction list with
  | nil => simp [updateIn] at inScopes
  | cons first older ih =>
      rw [updateIn] at inScopes
      split at inScopes
      · rcases List.mem_cons.mp inScopes with rfl | inOlder
        · rcases List.mem_append.mp member with inFirst | isAdded
          · exact .inr ⟨first, List.mem_cons_self, inFirst⟩
          · exact .inl (List.mem_singleton.mp isAdded)
        · exact .inr ⟨scope, List.mem_cons_of_mem _ inOlder, member⟩
      · rcases List.mem_cons.mp inScopes with rfl | inOlder
        · exact .inr ⟨scope, List.mem_cons_self, member⟩
        · rcases ih inOlder with isAdded | ⟨found, inList, inFound⟩
          · exact .inl isAdded
          · exact .inr ⟨found, List.mem_cons_of_mem _ inList, inFound⟩

theorem mem_symbols_of_foldl_define {symbols : List (Symbol δ)} {scopes : Scopes δ}
    (inScopes : scope ∈
      (symbols.foldl (fun scopes added => scopes.define number added) scopes).newestFirst)
    (member : symbol ∈ scope.symbols) :
    symbol ∈ symbols ∨ ∃ older ∈ scopes.newestFirst, symbol ∈ older.symbols := by
  induction symbols generalizing scopes with
  | nil => exact .inr ⟨scope, inScopes, member⟩
  | cons first rest ih =>
      rcases ih inScopes with inRest | ⟨older, inOlder, isOld⟩
      · exact .inl (List.mem_cons_of_mem _ inRest)
      · rcases mem_symbols_of_define inOlder isOld with rfl | before
        · exact .inl List.mem_cons_self
        · exact .inr before

end Lookup

def symbolsOf (scopes : Scopes δ) (number : Nat) : List (Symbol δ) :=
  ((scopes.scope? number).map Scope.symbols).getD []

def chainIn : Nat → List (Scope δ) → List Nat
  | _, [] => []
  | number, scope :: older =>
      if number = older.length then
        number :: (match scope.parent with
          | none => []
          | some parent => chainIn parent older)
      else chainIn number older

/-- The numbers of a scope and of the scopes around it, the innermost first. -/
def chain (scopes : Scopes δ) (number : Nat) : List Nat := chainIn number scopes.newestFirst

variable {number other parent : Nat} {scopes : Scopes δ} {symbol : Symbol δ}

theorem lt_length_of_mem_chainIn {list : List (Scope δ)} (member : other ∈ chainIn number list) :
    other < list.length := by
  induction list generalizing number with
  | nil => cases member
  | cons scope older ih =>
      rw [chainIn] at member
      rw [List.length_cons]
      split at member
      · next isThis =>
          rcases List.mem_cons.mp member with rfl | outer
          · omega
          · cases around : scope.parent with
            | none => simp [around] at outer
            | some parent =>
                simp only [around] at outer
                have := ih outer
                omega
      · have := ih member
        omega

/-- The scopes around a scope are older. -/
theorem le_of_mem_chain (member : other ∈ scopes.chain number) : other ≤ number := by
  obtain ⟨list⟩ := scopes
  unfold chain at member
  induction list generalizing number with
  | nil => cases member
  | cons scope older ih =>
      dsimp only at member ih
      rw [chainIn] at member
      split at member
      · next isThis =>
          rcases List.mem_cons.mp member with rfl | outer
          · omega
          · cases around : scope.parent with
            | none => simp [around] at outer
            | some parent =>
                simp only [around] at outer
                have := lt_length_of_mem_chainIn outer
                omega
      · exact ih member

theorem exists_scope? (inside : number < scopes.size) :
    ∃ scope, scopes.scope? number = some scope := by
  obtain ⟨list⟩ := scopes
  unfold scope?
  unfold size at inside
  dsimp only at inside ⊢
  induction list with
  | nil => cases inside
  | cons scope older ih =>
      rw [scopeIn]
      split
      · exact ⟨scope, rfl⟩
      · next notThis =>
          rw [List.length_cons] at inside
          exact ih (by omega)

/-- A symbol collides with one of the symbols of its scope. -/
theorem conflict?_eq (scopes : Scopes δ) (number : Nat) (symbol : Symbol δ) :
    scopes.conflict? number symbol =
      ((scopes.symbolsOf number).filter fun earlier => earlier.name = symbol.name).find?
        fun earlier => !(symbol.kind = .function && earlier.kind = .function) := by
  rw [conflict?, symbolsOf]
  cases scopes.scope? number <;> rfl

/-- What is seen from a scope are the symbols of its chain. -/
theorem map_symbols_levels (scopes : Scopes δ) (number : Nat) :
    (scopes.levels number).map Scope.symbols = (scopes.chain number).map scopes.symbolsOf := by
  obtain ⟨list⟩ := scopes
  unfold levels chain
  dsimp only
  induction list generalizing number with
  | nil => rfl
  | cons scope older ih =>
      have extended : ∀ around, (chainIn around older).map (symbolsOf ⟨scope :: older⟩) =
          (chainIn around older).map (symbolsOf ⟨older⟩) := by
        intro around
        apply List.map_congr_left
        intro other member
        have inside := lt_length_of_mem_chainIn member
        rw [symbolsOf, symbolsOf, scope?, scope?, scopeIn, if_neg (by omega)]
      rw [levelsIn, chainIn]
      split
      · next isThis =>
          have own : symbolsOf ⟨scope :: older⟩ number = scope.symbols := by
            rw [symbolsOf, scope?, scopeIn, if_pos isThis]
            rfl
          rw [List.map_cons, List.map_cons, own]
          cases scope.parent with
          | none => rfl
          | some parent => rw [extended, ← ih]
      · rw [extended, ← ih]

section Open

variable (scopes) (parent) (name kind : String)

theorem size_openIn : (scopes.openIn parent name kind).size = scopes.size + 1 := rfl

theorem chain_openIn_size :
    (scopes.openIn parent name kind).chain scopes.size = scopes.size :: scopes.chain parent := by
  rw [chain, openIn, chainIn, if_pos (by rfl)]
  rfl

theorem symbolsOf_openIn_size :
    (scopes.openIn parent name kind).symbolsOf scopes.size = [] := by
  rw [symbolsOf, scope?, openIn, scopeIn, if_pos (by rfl)]
  rfl

variable {scopes}

theorem chain_openIn_of_lt (older : number < scopes.size) :
    (scopes.openIn parent name kind).chain number = scopes.chain number := by
  have different : number ≠ scopes.newestFirst.length := Nat.ne_of_lt older
  rw [chain, openIn, chainIn, if_neg different]
  rfl

theorem symbolsOf_openIn_of_lt (older : number < scopes.size) :
    (scopes.openIn parent name kind).symbolsOf number = scopes.symbolsOf number := by
  have different : number ≠ scopes.newestFirst.length := Nat.ne_of_lt older
  rw [symbolsOf, scope?, openIn, scopeIn, if_neg different]
  rfl

end Open

section Define

theorem length_updateIn (number : Nat) (change : Scope δ → Scope δ) (list : List (Scope δ)) :
    (updateIn number change list).length = list.length := by
  induction list with
  | nil => rfl
  | cons scope older ih =>
      rw [updateIn]
      split
      · rfl
      · rw [List.length_cons, List.length_cons, ih]

variable (scopes) (number) (symbol)

theorem size_define : (scopes.define number symbol).size = scopes.size :=
  length_updateIn _ _ _

theorem chain_define (other : Nat) :
    (scopes.define number symbol).chain other = scopes.chain other := by
  obtain ⟨list⟩ := scopes
  unfold chain define
  dsimp only
  induction list generalizing other with
  | nil => rfl
  | cons scope older ih =>
      rw [updateIn]
      split
      · rfl
      · rw [chainIn, chainIn, length_updateIn]
        split
        · cases scope.parent with
          | none => rfl
          | some parent => simp only [ih]
        · exact ih other

theorem scope?_define (other : Nat) :
    (scopes.define number symbol).scope? other =
      (scopes.scope? other).map fun scope => if other = number then scope.add symbol else scope := by
  obtain ⟨list⟩ := scopes
  unfold scope? define
  dsimp only
  induction list with
  | nil => rfl
  | cons scope older ih =>
      rw [updateIn]
      split
      · next isThis =>
          rw [scopeIn, scopeIn]
          split
          · next same => simp [isThis, same]
          · next different =>
              have : other ≠ number := isThis ▸ different
              simp [this]
      · next notThis =>
          rw [scopeIn, scopeIn, length_updateIn]
          split
          · next same =>
              have : other ≠ number := fun equal => notThis (equal ▸ same)
              simp [this]
          · exact ih

variable {number}

theorem symbolsOf_define_self (inside : number < scopes.size) :
    (scopes.define number symbol).symbolsOf number = scopes.symbolsOf number ++ [symbol] := by
  obtain ⟨scope, found⟩ := exists_scope? inside
  rw [symbolsOf, scope?_define, symbolsOf, found]
  simp [Scope.add]

theorem symbolsOf_define_of_ne (different : other ≠ number) :
    (scopes.define number symbol).symbolsOf other = scopes.symbolsOf other := by
  rw [symbolsOf, scope?_define, symbolsOf]
  cases scopes.scope? other <;> simp [different]

end Define

end Gloss.Scopes
