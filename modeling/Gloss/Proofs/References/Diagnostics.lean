import Gloss.Proofs.References.Files

/-!
# Diagnostics mirror what references mean

A reference that means nothing is reported once, and so is one that could mean several
things.  Nothing else is reported in these ways.
-/

namespace Gloss

open Gloss.Tree

namespace Problem

/-- The labels of problems that tell of a reference which means nothing. -/
def missingLabels : List String := ["unresolved-reference", "none-applicable"]

/-- The labels of problems that tell of a reference which could mean several things. -/
def ambiguityLabels : List String := ["overload-ambiguity", "callable-reference-ambiguity"]

theorem isMissing_iff_label_mem (problem : Problem) :
    problem.isMissing = true ↔ problem.label ∈ missingLabels :=
  problem.isMissing_iff.trans (by simp [missingLabels])

theorem isAmbiguity_iff_label_mem (problem : Problem) :
    problem.isAmbiguity = true ↔ problem.label ∈ ambiguityLabels :=
  problem.isAmbiguity_iff.trans (by simp [ambiguityLabels])

end Problem

namespace Remark

/-- The references to which remarks give an acceptable meaning. -/
def marked (accept : Meaning Descriptor → Bool) (remarks : List Remark) : List NodeRef :=
  ((remarks.filterMap meaning?).filter fun entry => accept entry.2).map Prod.fst

/-- The nodes at which remarks report an acceptable problem. -/
def reported (accept : Problem → Bool) (remarks : List Remark) : List NodeRef :=
  ((remarks.filterMap problem?).filter fun found => accept found.problem).map Diagnostic.node

variable {accept : Meaning Descriptor → Bool} {announce : Problem → Bool}
  {first second remarks : List Remark} {reference : NodeRef} {remark : Remark}

@[simp] theorem marked_cons_meaning (accept : Meaning Descriptor → Bool) (reference : NodeRef)
    (meant : Meaning Descriptor) (rest : List Remark) :
    marked accept (.meaning reference meant :: rest) =
      (if accept meant then [reference] else []) ++ marked accept rest := by
  cases accepted : accept meant <;> simp [marked, meaning?, accepted]

@[simp] theorem marked_cons_problem (accept : Meaning Descriptor → Bool) (found : Diagnostic)
    (rest : List Remark) : marked accept (.problem found :: rest) = marked accept rest :=
  rfl

@[simp] theorem reported_cons_problem (accept : Problem → Bool) (found : Diagnostic)
    (rest : List Remark) :
    reported accept (.problem found :: rest) =
      (if accept found.problem then [found.node] else []) ++ reported accept rest := by
  cases accepted : accept found.problem <;> simp [reported, problem?, accepted]

@[simp] theorem reported_cons_meaning (accept : Problem → Bool) (reference : NodeRef)
    (meant : Meaning Descriptor) (rest : List Remark) :
    reported accept (.meaning reference meant :: rest) = reported accept rest :=
  rfl

@[simp] theorem marked_nil (accept : Meaning Descriptor → Bool) : marked accept [] = [] := rfl

@[simp] theorem reported_nil (accept : Problem → Bool) : reported accept [] = [] := rfl

theorem marked_append (accept : Meaning Descriptor → Bool) (first second : List Remark) :
    marked accept (first ++ second) = marked accept first ++ marked accept second := by
  simp [marked]

theorem reported_append (accept : Problem → Bool) (first second : List Remark) :
    reported accept (first ++ second) = reported accept first ++ reported accept second := by
  simp [reported]

theorem marked_perm (accept : Meaning Descriptor → Bool) (perm : first.Perm second) :
    (marked accept first).Perm (marked accept second) :=
  ((perm.filterMap meaning?).filter _).map _

theorem reported_perm (accept : Problem → Bool) (perm : first.Perm second) :
    (reported accept first).Perm (reported accept second) :=
  ((perm.filterMap problem?).filter _).map _

/-- A kind of problem that announces a kind of meaning: of the answers to a reference just
those with such a meaning come with such a problem. -/
structure Announces (announce : Problem → Bool) (accept : Meaning Descriptor → Bool) : Prop where
  target : ∀ target, accept (.target target) = false
  other : ∀ problem : Problem, problem.isMissing = false → problem.isAmbiguity = false →
    announce problem = false
  missing : ∀ problem : Problem, problem.isMissing = true → announce problem = accept .unresolved
  ambiguity : ∀ problem : Problem, problem.isAmbiguity = true →
    ∀ candidates, announce problem = accept (.ambiguous candidates)

theorem announces_missing : Announces Problem.isMissing Meaning.isUnresolved where
  target _ := rfl
  other _ notMissing _ := notMissing
  missing _ missing := missing
  ambiguity problem ambiguity _ := by
    cases problem <;> first | rfl | cases ambiguity

theorem announces_ambiguity :
    Announces Problem.isAmbiguity fun meant => meant.candidates?.isSome where
  target _ := rfl
  other _ _ notAmbiguity := notAmbiguity
  missing problem missing := by
    cases problem <;> first | rfl | cases missing
  ambiguity _ ambiguity _ := ambiguity

namespace Announces

variable (announces : Announces announce accept)

include announces

theorem marked_eq_reported_of_answers (answers : Answers reference remarks) :
    marked accept remarks = reported announce remarks := by
  cases answers with
  | target target => simp [announces.target]
  | misused target isOther => simp [announces.target, announces.other _ isOther.1 isOther.2.1]
  | unresolved missing | inapplicable missing => simp [announces.missing _ missing]
  | ambiguous candidates ambiguity => simp [announces.ambiguity _ ambiguity candidates]

theorem marked_eq_reported_of_isAside (isAside : remark.IsAside) :
    marked accept [remark] = reported announce [remark] := by
  cases remark with
  | meaning => cases isAside
  | problem found => simp [announces.other _ isAside.1 isAside.2.1]
  | _ => rfl

theorem target?_eq_none {meant : Meaning Descriptor} (accepted : accept meant = true) :
    meant.target? = none := by
  cases meant with
  | target target => simp [announces.target] at accepted
  | _ => rfl

/-- Problems of the kind are reported at the references with such a meaning. -/
theorem tolerant :
    Tolerant fun remarks => (marked accept remarks).Perm (reported announce remarks) where
  nil := .refl _
  append {first second} mirrored later := by
    rw [marked_append, reported_append]
    exact mirrored.append later
  perm perm mirrored :=
    (marked_perm accept perm).symm.trans (mirrored.trans (reported_perm announce perm))
  aside _ isAside := .of_eq (announces.marked_eq_reported_of_isAside isAside)
  answers _ answers := .of_eq (announces.marked_eq_reported_of_answers answers)
  recursive name node := by
    simp [ResolutionState.recursion, announces.other (.recursiveType name) rfl rfl]

theorem permits (around : Surroundings) (occurrence : Occurrence) :
    around.Permits (fun remarks => (marked accept remarks).Perm (reported announce remarks))
      occurrence where
  value name _ := .of_eq
    (announces.marked_eq_reported_of_answers (around.answers_valueRemarks name))
  applied _ _ _ _ answers := .of_eq (announces.marked_eq_reported_of_answers answers)

end Announces

theorem mem_marked_iff (distinct : (nodes .meaning remarks).Nodup) :
    reference ∈ marked accept remarks ↔
      (Table.lookupIn reference (remarks.filterMap meaning?)).any accept = true := by
  rw [← Journal.map_fst_filterMap_meaning?] at distinct
  rw [Option.any_eq_true, marked, List.mem_map]
  constructor
  · rintro ⟨⟨_, meant⟩, member, rfl⟩
    obtain ⟨isEntry, accepted⟩ := List.mem_filter.mp member
    exact ⟨meant, (Table.lookupIn_eq_some_iff distinct).mpr isEntry, accepted⟩
  · rintro ⟨meant, found, accepted⟩
    exact ⟨_, List.mem_filter.mpr ⟨Table.mem_of_lookupIn found, accepted⟩, rfl⟩

theorem nodup_marked (distinct : (nodes .meaning remarks).Nodup) :
    (marked accept remarks).Nodup := by
  rw [← Journal.map_fst_filterMap_meaning?] at distinct
  exact distinct.sublist (List.filter_sublist.map _)

end Remark

namespace Resolution

variable {name : String} {text : List Char} {resolution : Resolution}
  {announce : Problem → Bool} {accept : Meaning Descriptor → Bool}

/-- The nodes at which a problem with one of the labels was reported, as often as it was. -/
def reportedAt (resolution : Resolution) (labels : List String) : List NodeRef :=
  (resolution.diagnostics.filter fun found => found.problem.label ∈ labels).map Diagnostic.node

/-- Where a kind of problem announces a kind of meaning, it is reported once at each
reference that has such a meaning. -/
theorem mirrored_of_announces (readable : read name text = .ok resolution)
    (announces : Remark.Announces announce accept) {labels : List String}
    (labelled : ∀ problem : Problem, announce problem = true ↔ problem.label ∈ labels) :
    (resolution.reportedAt labels).Nodup ∧
      ∀ node, ∃ meaning : Option (Meaning Descriptor),
        resolution.state.bindings.Holds node meaning ∧
          (node ∈ resolution.reportedAt labels ↔ meaning.any accept = true) := by
  obtain ⟨base, total, diagnostics, distinct, holds, keeps⟩ := exists_written_of_read readable
  have mirrored := keeps _ announces.tolerant (base.permitsMembers_of_forall _ announces.permits)
  have reportedAt : resolution.reportedAt labels = Remark.reported announce total := by
    rw [Resolution.reportedAt, diagnostics, Remark.reported]
    congr 2
    funext found
    rw [Bool.eq_iff_iff, decide_eq_true_iff, labelled]
  rw [reportedAt]
  refine ⟨mirrored.nodup_iff.mp (Remark.nodup_marked (distinct .meaning)), fun node => ?_⟩
  refine ⟨_, holds node, ?_⟩
  rw [← mirrored.mem_iff, Remark.mem_marked_iff (distinct .meaning)]

/-- Where a problem of such a kind was found, a reference has a meaning, but no target. -/
theorem exists_holds_of_reported (readable : read name text = .ok resolution)
    (announces : Remark.Announces announce accept) {labels : List String}
    (labelled : ∀ problem : Problem, announce problem = true ↔ problem.label ∈ labels)
    {found : Diagnostic} (isReported : found ∈ resolution.diagnostics)
    (isLabelled : found.problem.label ∈ labels) :
    ∃ meant, resolution.state.bindings.Holds found.node (some meant) ∧ meant.target? = none := by
  obtain ⟨meaning, holds, reportedAt⟩ :=
    (mirrored_of_announces readable announces labelled).2 found.node
  have isAt : found.node ∈ resolution.reportedAt labels :=
    List.mem_map_of_mem (List.mem_filter.mpr ⟨isReported, decide_eq_true isLabelled⟩)
  obtain ⟨meant, rfl, accepted⟩ := Option.any_eq_true _ _ |>.mp (reportedAt.mp isAt)
  exact ⟨meant, holds, announces.target?_eq_none accepted⟩

/-- A reference with a meaning occurs outside of the package line. -/
theorem exists_occurrence_of_holds (readable : read name text = .ok resolution) {node : NodeRef}
    {meant : Meaning Descriptor} (holds : resolution.state.bindings.Holds node (some meant)) :
    node ∉ resolution.file.packageNames ∧
      ∃ occurrence ∈ resolution.file.occurrences,
        occurrence.ref = node ∧ occurrence.node.kind.isReference = true := by
  obtain ⟨placed, completes⟩ := completes_of_read readable
  obtain ⟨meaning, holdsMeaning, known, -⟩ := completes.exists_holds placed.nodup_references node
  have isReference : node ∈ resolution.file.references :=
    known.mp (holds.unique holdsMeaning ▸ rfl)
  refine ⟨fun isName => placed.notMem_references isName isReference, ?_⟩
  obtain ⟨found, inDeclarations, isKind, rfl⟩ := File.mem_references_iff.mp isReference
  obtain ⟨occurrence, occurs, rfl⟩ :=
    File.exists_occurrence (File.mem_nodes_of_mem_declarationNodes inDeclarations)
  exact ⟨occurrence, occurs, rfl, isKind⟩

/-- Diagnostics mirror what references mean.  A reference is unresolved just when one problem
says that it is or that none of its candidates is applicable, and it is ambiguous just when
one problem says so.  Each of these problems is shown at the start of a reference which has
no target and which is no name in the package line. -/
theorem reportedAt_of_read (readable : read name text = .ok resolution) :
    (resolution.reportedAt Problem.missingLabels).Nodup ∧
    (∀ node, node ∈ resolution.reportedAt Problem.missingLabels ↔
      resolution.isUnresolved node = true) ∧
    (resolution.reportedAt Problem.ambiguityLabels).Nodup ∧
    (∀ node, node ∈ resolution.reportedAt Problem.ambiguityLabels ↔
      resolution.isAmbiguous node = true) ∧
    ∀ found ∈ resolution.diagnostics,
      found.problem.label ∈ Problem.missingLabels ++ Problem.ambiguityLabels →
        found.node ∉ resolution.file.packageNames ∧ resolution.target? found.node = none ∧
          ∃ occurrence ∈ resolution.file.occurrences, occurrence.ref = found.node ∧
            occurrence.node.kind.isReference = true ∧
            found.render text name =
              (Place.ofOffset text occurrence.node.span.start name).render ++ ": error: [" ++
                found.problem.label ++ "] " ++ found.problem.message := by
  obtain ⟨onceMissing, missing⟩ :=
    mirrored_of_announces readable Remark.announces_missing Problem.isMissing_iff_label_mem
  obtain ⟨onceAmbiguity, ambiguity⟩ :=
    mirrored_of_announces readable Remark.announces_ambiguity Problem.isAmbiguity_iff_label_mem
  refine ⟨onceMissing, fun node => ?_, onceAmbiguity, fun node => ?_, ?_⟩
  · obtain ⟨meaning, holds, reportedAt⟩ := missing node
    rw [reportedAt, isUnresolved, holds.isUnresolved_eq]
  · obtain ⟨meaning, holds, reportedAt⟩ := ambiguity node
    rw [reportedAt, isAmbiguous, holds.isAmbiguous_eq, Option.isSome_bind]
  · intro found isReported labelled
    obtain ⟨meant, holds, noTarget⟩ : ∃ meant,
        resolution.state.bindings.Holds found.node (some meant) ∧ meant.target? = none := by
      rcases List.mem_append.mp labelled with isMissing | isAmbiguity
      · exact exists_holds_of_reported readable Remark.announces_missing
          Problem.isMissing_iff_label_mem isReported isMissing
      · exact exists_holds_of_reported readable Remark.announces_ambiguity
          Problem.isAmbiguity_iff_label_mem isReported isAmbiguity
    obtain ⟨notName, occurrence, occurs, same, isReference⟩ :=
      exists_occurrence_of_holds readable holds
    refine ⟨notName, ?_, occurrence, occurs, same, isReference, ?_⟩
    · rw [target?, holds.target?_eq, Option.bind_some, noTarget]
    · rw [Diagnostic.render, ← same]
      rfl

/-- An unknown name is reported once, not so the member that is selected from it, and so are
a call that no overload accepts and one that two of them do. -/
theorem reportedAt_of_read_unknown_receiver :
    ∃ resolution, read "sample"
        "fun f(x: Int) = 1\nfun f(x: Int) = 2\nval a = b.c\nval d = f(1)\nval e = f(true)".toList =
          .ok resolution ∧
      (resolution.diagnostics.map fun found => found.problem.label) =
        ["unresolved-reference", "overload-ambiguity", "none-applicable"] ∧
      (∀ node, node ∈ resolution.reportedAt Problem.missingLabels ↔
        resolution.isUnresolved node = true) ∧
      (∀ node, node ∈ resolution.reportedAt Problem.ambiguityLabels ↔
        resolution.isAmbiguous node = true) ∧
      ∃ occurrence ∈ resolution.file.occurrences,
        (resolution.target? occurrence.ref).any Descriptor.isError = true ∧
          occurrence.ref ∉ resolution.diagnostics.map Diagnostic.node := by
  have computed :
      (match read "sample"
          "fun f(x: Int) = 1\nfun f(x: Int) = 2\nval a = b.c\nval d = f(1)\nval e = f(true)".toList with
        | .ok resolution => decide ((resolution.diagnostics.map fun found => found.problem.label) =
            ["unresolved-reference", "overload-ambiguity", "none-applicable"]) &&
            resolution.file.occurrences.any fun occurrence =>
              (resolution.target? occurrence.ref).any Descriptor.isError
        | .error _ => false) = true := by
    decide +kernel
  cases readable : read "sample"
      "fun f(x: Int) = 1\nfun f(x: Int) = 2\nval a = b.c\nval d = f(1)\nval e = f(true)".toList with
  | error fault =>
      rw [readable] at computed
      cases computed
  | ok resolution =>
      simp only [readable, Bool.and_eq_true, decide_eq_true_eq, List.any_eq_true] at computed
      obtain ⟨labels, occurrence, occurs, isError⟩ := computed
      obtain ⟨-, missing, -, ambiguity, located⟩ := reportedAt_of_read readable
      refine ⟨resolution, rfl, labels, missing, ambiguity, occurrence, occurs, isError, ?_⟩
      intro isNode
      obtain ⟨found, isReported, same⟩ := List.mem_map.mp isNode
      have isLabel := List.mem_map_of_mem (f := fun found => found.problem.label) isReported
      rw [labels] at isLabel
      have allLabelled : ["unresolved-reference", "overload-ambiguity", "none-applicable"] ⊆
          Problem.missingLabels ++ Problem.ambiguityLabels := by
        decide
      rw [← same, (located found isReported (allLabelled isLabel)).2.1] at isError
      cases isError

end Resolution

end Gloss
