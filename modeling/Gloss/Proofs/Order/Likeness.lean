import Gloss.Proofs.Order.Inferences
import Gloss.Proofs.Tree.Refs
import Mathlib.Data.List.Perm.Lattice

/-!
# Inferences that see the same symbols

The symbols of a level may be listed in any order, as long as only functions share a
name.  Then a name means the same, candidates are the same up to their order, and the
choice among them too: scripts in such surroundings are alike.
-/

namespace Gloss

/-! ### Levels -/

/-- Two symbols that may stand side by side: only functions share a name. -/
def Symbol.Compatible (first second : Symbol Descriptor) : Prop :=
  first.name = second.name → first.kind = .function ∧ second.kind = .function

/-- The same symbols; where the order differs, they are compatible. -/
structure Interchangeable (first second : List (Symbol Descriptor)) : Prop where
  perm : first.Perm second
  compatible : first = second ∨ first.Pairwise Symbol.Compatible

theorem Interchangeable.refl (level : List (Symbol Descriptor)) : Interchangeable level level :=
  ⟨.refl level, .inl rfl⟩

theorem eq_of_perm_of_length_le_one {α : Type} {first second : List α}
    (perm : first.Perm second) (short : first.length ≤ 1) : first = second := by
  match first, short with
  | [], _ => exact perm.nil_eq
  | [single], _ => exact List.singleton_perm.mp perm

/-- Of compatible symbols with one name at most one is no function. -/
theorem length_le_one_of_compatible {symbols : List (Symbol Descriptor)} {name : String}
    (compatible : symbols.Pairwise Symbol.Compatible)
    (named : ∀ symbol ∈ symbols, symbol.name = name)
    (noFunctions : ∀ symbol ∈ symbols, symbol.kind ≠ .function) : symbols.length ≤ 1 := by
  match symbols with
  | [] | [_] => simp
  | first :: second :: rest =>
      have firstSecond := List.rel_of_pairwise_cons compatible List.mem_cons_self
      have sameName : first.name = second.name :=
        (named first (by simp)).trans (named second (by simp)).symm
      exact absurd (firstSecond sameName).1 (noFunctions first (by simp))

namespace Interchangeable

variable {first second : List (Symbol Descriptor)}

theorem filter_perm (interchangeable : Interchangeable first second) (name : String)
    (accept : Symbol Descriptor → Bool) :
    ((first.filter fun symbol => symbol.name = name).filter accept).Perm
      ((second.filter fun symbol => symbol.name = name).filter accept) :=
  (interchangeable.perm.filter _).filter _

/-- Where no functions are looked for, the order does not matter. -/
theorem filter_eq (interchangeable : Interchangeable first second) (name : String)
    {accept : SymbolKind → Bool} (noFunctions : accept .function = false) :
    ((first.filter fun symbol => symbol.name = name).filter fun symbol => accept symbol.kind) =
      (second.filter fun symbol => symbol.name = name).filter
        fun symbol => accept symbol.kind := by
  rcases interchangeable.compatible with rfl | compatible
  · rfl
  · refine eq_of_perm_of_length_le_one (interchangeable.filter_perm name _) ?_
    have named : ∀ symbol ∈ (first.filter fun symbol => symbol.name = name).filter
        fun symbol => accept symbol.kind, symbol.name = name := by
      intro symbol isFound
      simpa using List.of_mem_filter (List.mem_of_mem_filter isFound)
    apply length_le_one_of_compatible
      (compatible.sublist (List.filter_sublist.trans List.filter_sublist)) named
    · intro symbol isFound isFunction
      have accepted := List.of_mem_filter isFound
      rw [isFunction, noFunctions] at accepted
      cases accepted

end Interchangeable

namespace Surroundings

/-- Surroundings in which the same can be seen. -/
structure Alike (first second : Surroundings) : Prop where
  levels : List.Forall₂ Interchangeable first.levels second.levels
  class? : first.class? = second.class?
  isOpen : first.isOpen = second.isOpen
  own : first.own = second.own

variable {first second : Surroundings}

/-- What a lookup finds level by level. -/
theorem find?_rel (relation : List (Symbol Descriptor) → List (Symbol Descriptor) → Prop)
    (nil : relation [] [])
    (length : ∀ one other, relation one other → (one = [] ↔ other = []))
    {found others : List (List (Symbol Descriptor))}
    (related : List.Forall₂ relation found others) :
    relation ((found.find? fun symbols => !symbols.isEmpty).getD [])
      ((others.find? fun symbols => !symbols.isEmpty).getD []) := by
  induction related with
  | nil => exact nil
  | @cons one other _ _ same _ ih =>
      have empty := length one other same
      cases one with
      | nil =>
          rw [empty.mp rfl]
          exact ih
      | cons symbol rest =>
          cases other with
          | nil => cases empty.mpr rfl
          | cons another others => exact same

theorem Alike.lookup_eq (alike : first.Alike second) {accept : SymbolKind → Bool}
    (noFunctions : accept .function = false) (name : String) :
    first.lookup accept name = second.lookup accept name := by
  apply find?_rel Eq rfl
  · rintro one _ rfl
    rfl
  · rw [List.forall₂_map_left_iff, List.forall₂_map_right_iff]
    exact alike.levels.imp fun _ _ interchangeable => interchangeable.filter_eq name noFunctions

theorem Alike.lookup_perm (alike : first.Alike second) (accept : SymbolKind → Bool)
    (name : String) : (first.lookup accept name).Perm (second.lookup accept name) := by
  apply find?_rel List.Perm (.refl [])
  · intro one other perm
    exact ⟨fun empty => (empty ▸ perm).nil_eq.symm, fun empty => (empty ▸ perm).eq_nil⟩
  · rw [List.forall₂_map_left_iff, List.forall₂_map_right_iff]
    exact alike.levels.imp fun _ _ interchangeable => interchangeable.filter_perm name _

theorem Alike.classifiers_eq (alike : first.Alike second) :
    first.classifiers = second.classifiers := by
  funext name
  rw [classifiers, classifiers, alike.lookup_eq rfl]

theorem Alike.membersOf_eq (alike : first.Alike second) : first.membersOf = second.membersOf := by
  funext receiver name
  rw [membersOf, membersOf, alike.class?]

end Surroundings

/-! ### The choice among candidates -/

/-- Choices that differ at most in the order of the winners. -/
inductive Choice.Alike : Choice → Choice → Prop
  | refl (choice : Choice) : Alike choice choice
  | ambiguous {first second : List Applicable} (perm : first.Perm second) :
      Alike (.ambiguous first) (.ambiguous second)

namespace Choice

theorem best_eq_of_perm {first second : List Applicable} (perm : first.Perm second) :
    best first = best second := by
  apply perm.foldl_eq'
  intro one _ other _ score
  rw [max_assoc, max_comm one.score, max_assoc]

/-- The candidates that accept the arguments. -/
def accepted (signatures : List Signature) (arguments : List NominalType) : List Applicable :=
  signatures.filterMap fun signature => signature.accept? arguments

/-- The candidates with the best score. -/
def winners (applicable : List Applicable) : List Applicable :=
  applicable.filter fun candidate => candidate.score = best applicable

theorem winners_perm {first second : List Applicable} (perm : first.Perm second) :
    (winners first).Perm (winners second) := by
  rw [winners, winners, best_eq_of_perm perm]
  exact perm.filter _

/-- Choices are alike when the winners are, unless nothing won. -/
theorem among_alike_of_winners {first second : List Signature} {arguments : List NominalType}
    (perm : (winners (accepted first arguments)).Perm (winners (accepted second arguments)))
    (lost : winners (accepted first arguments) = [] →
      Alike (among first arguments) (among second arguments)) :
    Alike (among first arguments) (among second arguments) := by
  cases found : winners (accepted first arguments) with
  | nil => exact lost found
  | cons winner rest =>
      unfold among
      dsimp only
      unfold winners accepted at found perm
      rw [found] at perm ⊢
      revert perm
      generalize (second.filterMap fun signature => signature.accept? arguments).filter _ = others
      intro perm
      match rest, perm with
      | [], perm =>
          rw [← List.singleton_perm.mp perm]
          exact .refl _
      | another :: rest, perm =>
          have length := perm.length_eq
          match others, perm, length with
          | _ :: _ :: _, perm, _ => exact .ambiguous perm

/-- The choice does not depend on the order of the candidates. -/
theorem among_alike {first second : List Signature} (perm : first.Perm second)
    (arguments : List NominalType) : Alike (among first arguments) (among second arguments) := by
  have sameWinners : (winners (accepted first arguments)).Perm
      (winners (accepted second arguments)) := winners_perm (perm.filterMap _)
  refine among_alike_of_winners sameWinners fun nothing => ?_
  have nothingElse := (nothing ▸ sameWinners).nil_eq
  unfold among
  dsimp only
  unfold winners accepted at nothing nothingElse
  rw [nothing, ← nothingElse]
  match first, perm with
  | [], perm =>
      rw [← perm.nil_eq]
      exact .refl _
  | [only], perm =>
      rw [← List.singleton_perm.mp perm]
      exact .refl _
  | one :: another :: rest, perm =>
      have length := perm.length_eq
      match second, length with
      | _ :: _ :: _, _ => exact .refl _

end Choice

/-! ### Scripts that only ask -/

namespace Script

variable {isOpen isOpenLater : NodeRef → Bool} {α β γ : Type} {script : Script isOpen α}
  {next : α → Script isOpen β}

/-- The value that a script comes to. -/
def value? (known : InferredTypes) (script : Script isOpen α) : Option α :=
  (script.outcome known).map Prod.fst

/-- A script that writes nothing down, whatever it is told. -/
def Silent (script : Script isOpen α) : Prop :=
  ∀ remarks value, script.Runs remarks value → remarks = []

theorem Silent.outcome_eq (silent : script.Silent) (known : InferredTypes) :
    script.outcome known = (script.value? known).map fun value => (value, []) := by
  rw [value?]
  cases found : script.outcome known with
  | none => rfl
  | some outcome =>
      obtain ⟨value, remarks⟩ := outcome
      rw [silent remarks value (.of_outcome found)]
      rfl

theorem value?_pure (known : InferredTypes) (value : α) :
    (pure value : Script isOpen α).value? known = some value := rfl

theorem value?_bind (known : InferredTypes) (script : Script isOpen α)
    (next : α → Script isOpen β) :
    (script >>= next).value? known =
      (script.value? known).bind fun value => (next value).value? known := by
  rw [value?, outcome_bind, value?]
  cases script.outcome known with
  | none => rfl
  | some found => simp [value?, Option.map_map, Function.comp_def]

theorem Silent.of_pure (value : α) : (pure value : Script isOpen α).Silent :=
  fun _ _ runs => (runs_pure_iff.mp runs).1

theorem Silent.of_ask {node : NodeRef} (asked : isOpen node = true) :
    (ask node asked done).Silent := by
  intro remarks value runs
  cases runs with
  | ask type runs => exact (runs_pure_iff.mp runs).1

theorem Silent.bind (silent : script.Silent) (goesOn : ∀ value, (next value).Silent) :
    (script >>= next).Silent := by
  intro remarks value runs
  obtain ⟨first, earlier, later, runsFirst, runsLater, rfl⟩ := runs_bind_iff.mp runs
  rw [silent _ _ runsFirst, goesOn first _ _ runsLater]
  rfl

/-- Silent scripts with the same values are alike. -/
theorem Silent.alike {other : Script isOpenLater γ} (silent : script.Silent)
    (silentOther : other.Silent) {accept : α → γ → Prop}
    (values : ∀ known, Option.Rel accept (script.value? known) (other.value? known)) :
    Alike 0 accept script other := by
  intro known
  rw [silent.outcome_eq known, silentOther.outcome_eq known]
  have related := values known
  revert related
  generalize script.value? known = value
  generalize other.value? known = another
  intro related
  cases related with
  | none => exact .none
  | some accepted => exact .some ⟨accepted, .nil, fun _ => rfl⟩

end Script

/-- The lists for all elements, one after the other, where each has one. -/
def gather {α β : Type} (lists : α → Option (List β)) : List α → Option (List β)
  | [] => some []
  | first :: rest =>
      (lists first).bind fun found => (gather lists rest).map fun later => found ++ later

theorem gather_perm {α β : Type} (lists : α → Option (List β)) {first second : List α}
    (perm : first.Perm second) :
    Option.Rel List.Perm (gather lists first) (gather lists second) := by
  induction perm with
  | nil => exact .some (.refl [])
  | cons element _ ih =>
      rw [gather, gather]
      cases lists element with
      | none => exact .none
      | some found =>
          revert ih
          generalize gather lists _ = one
          generalize gather lists _ = other
          intro ih
          cases ih with
          | none => exact .none
          | some perm => exact .some (perm.append_left found)
  | swap one other rest =>
      simp only [gather]
      cases lists one with
      | none => cases lists other <;> exact .none
      | some found =>
          cases lists other with
          | none => exact .none
          | some another =>
              cases gather lists rest with
              | none => exact .none
              | some later =>
                  simp only [Option.bind_some, Option.map_some, ← List.append_assoc]
                  exact .some (List.perm_append_comm.append_right later)
  | trans _ _ ih ihLater =>
      revert ih ihLater
      generalize gather lists _ = one
      generalize gather lists _ = middle
      generalize gather lists _ = other
      intro ih ihLater
      cases ih with
      | none =>
          cases ihLater
          exact .none
      | some perm =>
          cases ihLater with
          | some later => exact .some (perm.trans later)

end Gloss
