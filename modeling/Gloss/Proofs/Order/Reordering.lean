import Gloss.Proofs.Order.Laid
import Gloss.Proofs.Order.Settling

/-!
# Declarations in another order

Where no name of a file is taken, its declarations conflict in no order.  Then all that
is known when they are declared is the same up to order: the remarks, the symbols of the
file, and the places of its members.
-/

namespace Gloss

open Gloss.Tree ResolutionState

/-- A remark that reports no name that is taken. -/
def Remark.Agrees (remark : Remark) : Prop :=
  ∀ found name, remark = .problem found → found.problem ≠ .redeclaration name

theorem Symbol.Compatible.symm {first second : Symbol Descriptor}
    (compatible : first.Compatible second) : second.Compatible first :=
  fun same => (compatible same.symm).symm

namespace Introduction

variable {level : List (Symbol Descriptor)} {introduction : Introduction}

/-- What is introduced conflicts with nothing that it may stand beside. -/
theorem clash_eq_nil (compatible : ∀ earlier ∈ level, earlier.Compatible introduction.symbol) :
    introduction.clash level = [] := by
  rw [clash, List.find?_eq_none.mpr]
  intro earlier isNamed
  obtain ⟨inLevel, sameName⟩ := List.mem_filter.mp isNamed
  obtain ⟨isFunction, bothFunctions⟩ := compatible earlier inLevel (of_decide_eq_true sameName)
  simp [isFunction, bothFunctions]

/-- Where no conflict is reported, there is none. -/
theorem compatible_of_agrees (agrees : ∀ remark ∈ introduction.clash level, remark.Agrees) :
    ∀ earlier ∈ level, earlier.Compatible introduction.symbol := by
  intro earlier inLevel sameName
  have none : (level.filter fun earlier => earlier.name = introduction.symbol.name).find?
      (fun earlier => !(introduction.symbol.kind = .function && earlier.kind = .function)) =
        none := by
    rw [clash] at agrees
    cases found : (level.filter fun earlier => earlier.name = introduction.symbol.name).find? _ with
    | none => rfl
    | some other =>
        rw [found] at agrees
        exact absurd rfl (agrees _ (List.mem_singleton_self _) _ _ rfl)
  have both := List.find?_eq_none.mp none earlier
    (List.mem_filter.mpr ⟨inLevel, decide_eq_true sameName⟩)
  simpa [and_comm] using both

/-- What is introduced can be added to a level where no conflict is reported. -/
theorem pairwise_append (pairwise : level.Pairwise Symbol.Compatible)
    (agrees : ∀ remark ∈ introduction.clash level, remark.Agrees) :
    (level ++ [introduction.symbol]).Pairwise Symbol.Compatible := by
  rw [List.pairwise_append]
  refine ⟨pairwise, List.pairwise_singleton _ _, fun earlier inLevel symbol isSymbol => ?_⟩
  rw [List.mem_singleton.mp isSymbol]
  exact compatible_of_agrees agrees earlier inLevel

theorem clash_eq_nil_of_pairwise {others : List (Symbol Descriptor)}
    (pairwise : (level ++ introduction.symbol :: others).Pairwise Symbol.Compatible) :
    introduction.clash level = [] := by
  apply clash_eq_nil
  intro earlier inLevel
  exact (List.pairwise_append.mp pairwise).2.2 earlier inLevel _ List.mem_cons_self

theorem clash_nil (introduction : Introduction) : introduction.clash [] = [] := rfl

end Introduction

/-- Names of types mean the same whatever the order of a level. -/
theorem Interchangeable.inside_eq {first second : List (Symbol Descriptor)}
    (interchangeable : Interchangeable first second) (outer : Classifiers) :
    outer.inside first = outer.inside second := by
  funext name
  rw [Classifiers.inside, interchangeable.filter_eq name rfl]
  rfl

namespace Tree.TopLevel

variable {contents : List TopLevel} {level symbols : List (Symbol Descriptor)}
  {classifiers : Classifiers}

/-! ### No conflicts -/

theorem classSymbols_cons (declaration : Tree.Class) (rest : List TopLevel) :
    classSymbols (.class declaration :: rest) =
      declaration.introduction.symbol :: classSymbols rest := rfl

/-- Classes among which no conflict is reported may stand side by side. -/
theorem pairwise_of_classRemarks (pairwise : level.Pairwise Symbol.Compatible)
    (agrees : ∀ remark ∈ classRemarks level contents, remark.Agrees) :
    (level ++ classSymbols contents).Pairwise Symbol.Compatible := by
  induction contents generalizing level with
  | nil => simpa [classSymbols, classes] using pairwise
  | cons first rest ih =>
      cases first with
      | member declaration => exact ih pairwise agrees
      | «class» declaration =>
          rw [classRemarks, Class.headRemarks] at agrees
          obtain ⟨agreesHead, agreesRest⟩ := List.forall_mem_append.mp agrees
          obtain ⟨-, agreesOwn⟩ := List.forall_mem_append.mp agreesHead
          obtain ⟨agreesClash, -⟩ := List.forall_mem_append.mp agreesOwn
          have extended := ih (Introduction.pairwise_append pairwise agreesClash) agreesRest
          rwa [List.append_assoc] at extended

theorem pairwise_of_contentRemarks (pairwise : level.Pairwise Symbol.Compatible)
    (agrees : ∀ remark ∈ contentRemarks classifiers level contents, remark.Agrees) :
    (level ++ contents.flatMap (TopLevel.symbols classifiers)).Pairwise Symbol.Compatible := by
  induction contents generalizing level with
  | nil => simpa using pairwise
  | cons first rest ih =>
      cases first with
      | «class» declaration =>
          obtain ⟨-, agreesRest⟩ := List.forall_mem_append.mp agrees
          exact ih pairwise agreesRest
      | member declaration =>
          rw [contentRemarks, Member.remarks] at agrees
          obtain ⟨agreesHead, agreesRest⟩ := List.forall_mem_append.mp agrees
          obtain ⟨-, agreesOwn⟩ := List.forall_mem_append.mp agreesHead
          obtain ⟨agreesClash, -⟩ := List.forall_mem_append.mp agreesOwn
          have extended := ih (Introduction.pairwise_append pairwise agreesClash) agreesRest
          rwa [List.append_assoc] at extended

/-- Where no name of a file is taken, its symbols may stand side by side. -/
theorem pairwise_level (agrees : ∀ remark ∈ remarks contents, remark.Agrees) :
    (TopLevel.level contents).Pairwise Symbol.Compatible := by
  obtain ⟨agreesClasses, agreesContents⟩ := List.forall_mem_append.mp agrees
  exact pairwise_of_contentRemarks
    (pairwise_of_classRemarks List.Pairwise.nil agreesClasses) agreesContents

/-! ### Remarks one declaration at a time -/

theorem classRemarks_eq (pairwise : (level ++ classSymbols contents).Pairwise Symbol.Compatible) :
    classRemarks level contents = contents.flatMap fun declared => classRemarks [] [declared] := by
  induction contents generalizing level with
  | nil => rfl
  | cons first rest ih =>
      cases first with
      | member declaration => exact ih pairwise
      | «class» declaration =>
          have noClash := Introduction.clash_eq_nil_of_pairwise pairwise
          rw [classSymbols_cons, ← List.singleton_append, ← List.append_assoc] at pairwise
          simp only [classRemarks, List.flatMap_cons, List.append_nil, Class.headRemarks, noClash,
            Introduction.clash_nil, ih pairwise]

theorem contentRemarks_eq
    (pairwise : (level ++ contents.flatMap (TopLevel.symbols classifiers)).Pairwise
      Symbol.Compatible) :
    contentRemarks classifiers level contents =
      contents.flatMap fun declared => contentRemarks classifiers [] [declared] := by
  induction contents generalizing level with
  | nil => rfl
  | cons first rest ih =>
      cases first with
      | «class» declaration =>
          simp only [contentRemarks, List.flatMap_cons, List.append_nil, ih pairwise]
      | member declaration =>
          have noClash := Introduction.clash_eq_nil_of_pairwise pairwise
          rw [List.flatMap_cons, TopLevel.symbols, ← List.append_assoc] at pairwise
          simp only [contentRemarks, List.flatMap_cons, List.append_nil, Member.remarks, noClash,
            Introduction.clash_nil, ih pairwise]

theorem remarks_eq (pairwise : (TopLevel.level contents).Pairwise Symbol.Compatible) :
    remarks contents =
      (contents.flatMap fun declared => classRemarks [] [declared]) ++
        contents.flatMap fun declared =>
          contentRemarks (classifiersOf contents) [] [declared] := by
  rw [remarks, contentRemarks_eq pairwise, classRemarks_eq (List.pairwise_append.mp pairwise).1]

/-! ### Another order -/

theorem classes_eq_flatMap (contents : List TopLevel) :
    classes contents = contents.flatMap fun declared => classes [declared] := by
  induction contents with
  | nil => rfl
  | cons first rest ih => rw [classes_cons, List.flatMap_cons, ih]

variable {first second : List TopLevel} (perm : first.Perm second)

include perm

theorem classSymbols_perm : (classSymbols first).Perm (classSymbols second) := by
  apply List.Perm.map
  rw [classes_eq_flatMap first, classes_eq_flatMap second]
  exact perm.flatMap_right _

variable (pairwise : (TopLevel.level first).Pairwise Symbol.Compatible)

include pairwise

theorem classifiersOf_eq : classifiersOf first = classifiersOf second := by
  have interchangeable : Interchangeable (classSymbols first) (classSymbols second) :=
    ⟨classSymbols_perm perm, .inr (List.pairwise_append.mp pairwise).1⟩
  exact interchangeable.inside_eq _

theorem level_perm : (TopLevel.level first).Perm (TopLevel.level second) := by
  rw [TopLevel.level, TopLevel.level, ← classifiersOf_eq perm pairwise]
  exact (classSymbols_perm perm).append (perm.flatMap_right _)

theorem pairwise_level_of_perm : (TopLevel.level second).Pairwise Symbol.Compatible :=
  ((level_perm perm pairwise).pairwise_iff fun compatible => compatible.symm).mp pairwise

/-- What is written down about declarations in another order is the same. -/
theorem remarks_perm : (remarks first).Perm (remarks second) := by
  rw [remarks_eq pairwise, remarks_eq (pairwise_level_of_perm perm pairwise),
    ← classifiersOf_eq perm pairwise]
  exact (perm.flatMap_right _).append (perm.flatMap_right _)

theorem sitesOf_perm : (sitesOf first).Perm (sitesOf second) := by
  rw [sitesOf, sitesOf, ← classifiersOf_eq perm pairwise]
  exact perm.flatMap_right _

end Tree.TopLevel

end Gloss
