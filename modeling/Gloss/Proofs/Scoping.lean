import Gloss.Proofs.Scoping.Seen

/-!
# Static scoping

What a name means where it stands for an expression can be told from the tree: it is the
value that is seen from the name.  It does not matter when, or for the sake of which other
declaration, the body around the name was looked at.
-/

namespace Gloss

open Gloss.Tree

/-- A name that stands for an expression does not belong to the package line. -/
theorem Tree.File.WellPlaced.notMem_packageNames_of_isValue {file : File} {text : List Char}
    (placed : file.WellPlaced text) {occurrence : Occurrence}
    (occurs : occurrence ∈ file.occurrences) (isValue : occurrence.isValue = true) :
    occurrence.ref ∉ file.packageNames := by
  intro isName
  obtain ⟨header, isHeader, inHeader⟩ := List.mem_flatMap.mp isName
  obtain ⟨name, inNames, same⟩ := List.mem_map.mp inHeader
  replace isHeader : file.package = some header := by simpa using isHeader
  have headerInFile : .package header ∈ (Node.file file).children := by
    simp [Node.children, Node.parts, Part.children, Part.optional, isHeader]
  have nameInHeader : name.node ∈ (Node.package header).children := by
    simpa [Node.children, Node.parts, Part.children] using ⟨name, inNames, rfl⟩
  have nameOccurs : ⟨name.node, [.package header, .file file]⟩ ∈ file.occurrences :=
    Node.mem_occurrences_of_child headerInFile
      (Node.mem_occurrences_of_child nameInHeader (Node.mem_occurrences_self _ _))
  have notFile : name.node.kind ≠ .file := by rintro ⟨⟩
  rw [← placed.occurrence_eq nameOccurs occurs notFile same] at isValue
  cases isValue

namespace Resolution

variable {name : String} {text : List Char} {resolution : Resolution} {occurrence : Occurrence}
  {value : Value}

/-- The descriptor of a value. -/
def valueDescriptor? (resolution : Resolution) (value : Value) : Option Descriptor :=
  if value.ofConstructor then resolution.constructorParameter? value.declaration
  else resolution.descriptor? value.declaration

/-- A name that stands for an expression has a meaning, and the tree tells which. -/
theorem exists_reaches (readable : read name text = .ok resolution)
    (occurs : occurrence ∈ resolution.file.occurrences) (isValue : occurrence.isValue = true) :
    ∃ meant, resolution.state.bindings.Holds occurrence.ref (some meant) ∧
      meant.Reaches occurrence.seen? := by
  obtain ⟨placed, completes⟩ := completes_of_read readable
  obtain ⟨used, isName⟩ := occurrence.exists_name_of_isValue isValue
  have inFile : occurrence.node ∈ resolution.file.nodes :=
    File.mem_nodes_of_kind occurs (by rw [isName]; exact nofun)
  have isReference : occurrence.node.kind.isReference = true := by
    rw [isName]
    rfl
  obtain ⟨meaning, holds, known, -⟩ := completes.exists_holds placed.nodup_references occurrence.ref
  have isKnown := known.mpr ((placed.mem_references_iff_notMem_packageNames inFile isReference).mpr
    (placed.notMem_packageNames_of_isValue occurs isValue))
  obtain ⟨meant, rfl⟩ := Option.isSome_iff_exists.mp isKnown
  refine ⟨meant, holds, ?_⟩
  obtain ⟨base, total, -, -, holdsTotal, keeps⟩ := exists_written_of_read readable
  have respects := keeps _ (Remark.tolerant_respects _) (permitsMembers_respects placed base)
  have found := (holdsTotal occurrence.ref).unique holds
  obtain ⟨remark, inTotal, isMeaning⟩ := List.mem_filterMap.mp (Table.mem_of_lookupIn found)
  cases remark with
  | meaning =>
      cases isMeaning
      exact respects occurrence occurs isValue meant inTotal
  | _ => cases isMeaning

/-- A constructor parameter that is declared is known to the constructor as well. -/
theorem exists_constructs (completes : Resolver.Completes resolution.file resolution.state)
    {declaration : NodeRef} (isKnown : declaration ∈ resolution.file.declaredNodes)
    (kind : declaration.kind = .constructorParameter) :
    ∃ parameter, (Node.constructorParameter parameter).ref = declaration ∧
      resolution.state.Constructs parameter := by
  obtain ⟨node, inDeclarations, -, rfl⟩ := File.mem_declaredNodes_iff.mp isKnown
  obtain ⟨parameter, rfl⟩ := Node.exists_constructorParameter_of_kind kind
  exact ⟨parameter, rfl, completes.constructs parameter
    (File.mem_constructorParameters (File.mem_nodes_of_mem_declarationNodes inDeclarations))⟩

/-- A variable that fits a value is the descriptor on record for it. -/
theorem valueDescriptor?_eq (readable : read name text = .ok resolution) {reference : NodeRef}
    {held : VariableDescriptor} (hasTarget : resolution.target? reference = some (.variable held))
    (declared : held.declaration = some value.declaration) (fits : held.Fits value) :
    resolution.valueDescriptor? value = some (.variable held) := by
  obtain ⟨placed, completes⟩ := completes_of_read readable
  have declares : resolution.state.Declares value.declaration (.variable held) :=
    declares_of_target completes placed.nodup_references hasTarget
      ((targetDeclaration?_eq hasTarget).trans declared)
  by_cases kind : value.declaration.kind = .constructorParameter
  · obtain ⟨parameter, same, constructs⟩ :=
      exists_constructs completes (mem_declaredNodes_of_declares completes declares) kind
    unfold ResolutionState.Constructs at constructs
    rw [same] at constructs
    split at constructs
    · obtain ⟨descriptor, isDeclared, isConstructed⟩ := constructs
      have isHeld : descriptor = .variable held := by
        rcases declares with found | found
        · exact Option.some.inj (isDeclared.symm.trans found)
        · exact Option.some.inj (isConstructed.symm.trans found)
      rw [← isHeld, valueDescriptor?]
      split
      · exact isConstructed
      · exact isDeclared
    · obtain ⟨property, owner, described, isDeclared, isConstructed⟩ := constructs
      rcases declares with found | found
      · cases isDeclared.symm.trans found
        rw [valueDescriptor?, if_neg (Bool.eq_false_iff.mp fits)]
        exact isDeclared
      · cases isConstructed.symm.trans found
        rw [valueDescriptor?, if_pos (fits.mpr kind)]
        exact isConstructed
  · have notConstructor : value.ofConstructor = false := by
      cases held with
      | parameter => exact Bool.eq_false_iff.mpr fun constructed => kind (fits.mp constructed)
      | property | «local» => exact fits
    rw [valueDescriptor?, if_neg (Bool.eq_false_iff.mp notConstructor)]
    refine declares.resolve_right fun isConstructed => kind ?_
    exact completes.grounded.constructorOnly _ (Option.isSome_iff_exists.mpr ⟨_, isConstructed⟩)

/-- A target of a name that stands for an expression is the descriptor of a value that is
seen. -/
theorem exists_seen_of_target (readable : read name text = .ok resolution)
    (occurs : occurrence ∈ resolution.file.occurrences) (isValue : occurrence.isValue = true)
    {target : Descriptor} (hasTarget : resolution.target? occurrence.ref = some target) :
    ∃ value, occurrence.seen? = some value ∧ target.declaration = some value.declaration ∧
      resolution.valueDescriptor? value = some target := by
  obtain ⟨meant, holds, reaches⟩ := exists_reaches readable occurs isValue
  have isTarget := Option.some.inj ((holds.targets target).mp hasTarget)
  cases isSeen : occurrence.seen? with
  | none =>
      rw [isSeen, Meaning.Reaches, isTarget] at reaches
      cases reaches
  | some value =>
      rw [isSeen, Meaning.Reaches, isTarget] at reaches
      obtain ⟨held, isHeld, declared, fits⟩ := reaches
      cases isHeld
      exact ⟨value, rfl, declared, valueDescriptor?_eq readable hasTarget declared fits⟩

/-- What is seen from a name that stands for an expression decides what it means. -/
theorem target?_of_seen? (readable : read name text = .ok resolution)
    (occurs : occurrence ∈ resolution.file.occurrences) (isValue : occurrence.isValue = true) :
    resolution.target? occurrence.ref = occurrence.seen?.bind resolution.valueDescriptor? ∧
    (∀ value ∈ occurrence.seen?, (resolution.valueDescriptor? value).isSome) ∧
    (resolution.isUnresolved occurrence.ref = true ↔ occurrence.seen? = none) := by
  obtain ⟨meant, holds, reaches⟩ := exists_reaches readable occurs isValue
  cases isSeen : occurrence.seen? with
  | none =>
      rw [isSeen, Meaning.Reaches] at reaches
      subst reaches
      exact ⟨holds.target?_eq, nofun, iff_of_true (holds.isUnresolved_eq) rfl⟩
  | some value =>
      rw [isSeen, Meaning.Reaches] at reaches
      obtain ⟨held, rfl, declared, fits⟩ := reaches
      have hasTarget : resolution.target? occurrence.ref = some (.variable held) := holds.target?_eq
      have isDescriptor := valueDescriptor?_eq readable hasTarget declared fits
      refine ⟨hasTarget.trans isDescriptor.symm, ?_, ?_⟩
      · rintro _ ⟨⟩
        exact Option.isSome_iff_exists.mpr ⟨_, isDescriptor⟩
      · rw [isUnresolved, holds.isUnresolved_eq]
        exact iff_of_false nofun nofun

/-- What a constructor parameter is to the constructor is nothing that a declaration
declares, unless the parameter is no property. -/
theorem constructorParameter?_ne (readable : read name text = .ok resolution)
    {child : Node} {around : List Node} (occurs : ⟨child, around⟩ ∈ resolution.file.occurrences)
    (isOf : value.IsOf child) {target : Descriptor}
    (isDescriptor : resolution.valueDescriptor? value = some target) :
    resolution.constructorParameter? value.declaration ≠ some target := by
  intro isConstructed
  have completes := (completes_of_read readable).2
  rw [valueDescriptor?, if_neg (Bool.eq_false_iff.mp isOf.ofConstructor), ← isOf.ref]
    at isDescriptor
  rw [← isOf.ref] at isConstructed
  have kind : child.kind = .constructorParameter :=
    completes.grounded.constructorOnly _ (Option.isSome_iff_exists.mpr ⟨_, isConstructed⟩)
  obtain ⟨parameter, isParameter⟩ := Node.exists_constructorParameter_of_kind kind
  exact (descriptor?_ne_iff completes occurs isConstructed).mpr
    ⟨parameter, isParameter, isOf.bound parameter isParameter⟩ isDescriptor

/-- A name that stands for an expression means the first declared value of that name on the
innermost level around it that has one: among the local variables of earlier statements, the
parameters of its function, all parameters of the constructor if it stands in a property of
a class, the properties of the class and those of the file.  It is unresolved just when there
is none.  So a local variable is not seen in its own initializer, and no parameter of the
constructor in a function of the class. -/
theorem target?_eq_bind_seen? (readable : read name text = .ok resolution)
    (occurs : occurrence ∈ resolution.file.occurrences) (isValue : occurrence.isValue = true) :
    resolution.target? occurrence.ref = occurrence.seen?.bind resolution.valueDescriptor? ∧
    (∀ value ∈ occurrence.seen?, (resolution.valueDescriptor? value).isSome) ∧
    (resolution.isUnresolved occurrence.ref = true ↔ occurrence.seen? = none) ∧
    (∀ own steps outer, .property own :: .block steps :: outer <:+ occurrence.above →
      resolution.target? occurrence.ref ≠ resolution.descriptor? (Node.property own).ref) ∧
    ∀ function owner outer, .function function :: .class owner :: outer <:+ occurrence.above →
      ∀ declaration described, resolution.constructorParameter? declaration = some described →
        resolution.target? occurrence.ref ≠ some described := by
  obtain ⟨placed, completes⟩ := completes_of_read readable
  obtain ⟨target, known, unresolved⟩ := target?_of_seen? readable occurs isValue
  refine ⟨target, known, unresolved, ?_, ?_⟩
  · intro own steps outer isOwn same
    have ownOccurs := (Node.mem_occurrences_of_suffix _ _ occurs isOwn (Nat.zero_le _)).1
    obtain ⟨descriptor, isDescriptor, declared⟩ := exists_descriptor completes ownOccurs rfl
    obtain ⟨value, isSeen, isDeclaration, -⟩ :=
      exists_seen_of_target readable occurs isValue (same.trans isDescriptor)
    refine Occurrence.declaration_ne_of_seen? placed occurs isSeen isOwn ?_
    exact Option.some.inj (isDeclaration.symm.trans declared)
  · intro function owner outer isMember declaration described isConstructed hasTarget
    obtain ⟨value, isSeen, isDeclaration, isDescriptor⟩ :=
      exists_seen_of_target readable occurs isValue hasTarget
    obtain ⟨child, around, childOccurs, isOf⟩ :=
      Occurrence.exists_isOf_of_seen? occurs isSeen isMember
    refine constructorParameter?_ne readable childOccurs isOf isDescriptor ?_
    have introduces := (completes.grounded.parameters _ _ isConstructed).1
    rwa [← Option.some.inj (introduces.1.symm.trans isDeclaration)]

/-- One name in three roles: the initializer of the property sees the parameter of the
constructor, and that of the local variable in the function sees the property of the file. -/
theorem target?_eq_bind_seen?_of_read_shadowing :
    ∃ resolution, read "sample"
        "val x = 1\nclass A(x: Int) \x7b val z = x fun f() \x7b val x = x \x7d \x7d".toList = .ok resolution ∧
      (∃ occurrence ∈ resolution.file.occurrences, occurrence.ref = ⟨.name, ⟨36, 37⟩⟩ ∧
        resolution.target? occurrence.ref =
          resolution.constructorParameter? ⟨.constructorParameter, ⟨18, 24⟩⟩) ∧
      ∃ occurrence ∈ resolution.file.occurrences, occurrence.ref = ⟨.name, ⟨56, 57⟩⟩ ∧
        resolution.target? occurrence.ref = resolution.descriptor? ⟨.property, ⟨0, 9⟩⟩ ∧
          resolution.isUnresolved occurrence.ref = false := by
  have computed :
      (match read "sample"
          "val x = 1\nclass A(x: Int) \x7b val z = x fun f() \x7b val x = x \x7d \x7d".toList with
        | .ok resolution =>
            (resolution.file.occurrences.any fun occurrence => occurrence.isValue &&
              decide (occurrence.ref = ⟨.name, ⟨36, 37⟩⟩ ∧ occurrence.seen? =
                some ⟨"x", ⟨.constructorParameter, ⟨18, 24⟩⟩, true⟩)) &&
            resolution.file.occurrences.any fun occurrence => occurrence.isValue &&
              decide (occurrence.ref = ⟨.name, ⟨56, 57⟩⟩ ∧ occurrence.seen? =
                some ⟨"x", ⟨.property, ⟨0, 9⟩⟩, false⟩)
        | .error _ => false) = true := by
    decide +kernel
  cases readable : read "sample"
      "val x = 1\nclass A(x: Int) \x7b val z = x fun f() \x7b val x = x \x7d \x7d".toList with
  | error fault =>
      rw [readable] at computed
      cases computed
  | ok resolution =>
      simp only [readable, Bool.and_eq_true, List.any_eq_true, decide_eq_true_eq] at computed
      obtain ⟨⟨first, firstOccurs, firstIsValue, firstRef, firstSeen⟩,
        second, secondOccurs, secondIsValue, secondRef, secondSeen⟩ := computed
      obtain ⟨firstTarget, -⟩ := target?_eq_bind_seen? readable firstOccurs firstIsValue
      obtain ⟨secondTarget, -, unresolved, -⟩ :=
        target?_eq_bind_seen? readable secondOccurs secondIsValue
      rw [firstSeen] at firstTarget
      rw [secondSeen] at secondTarget unresolved
      refine ⟨resolution, rfl, ⟨first, firstOccurs, firstRef, firstTarget⟩,
        second, secondOccurs, secondRef, secondTarget, ?_⟩
      refine Bool.eq_false_iff.mpr fun isUnresolved => ?_
      cases unresolved.mp isUnresolved

end Resolution

end Gloss
