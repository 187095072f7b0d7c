import Gloss.Proofs.Grammar.Laminar
import Gloss.Proofs.Scoping.Members

/-!
# Where seen values are declared

A value that is seen is declared right in a node above, and in a block before the place it is
seen from.  The parameters of a constructor are seen from the properties of the class only.
-/

namespace Gloss

open Gloss.Tree

namespace Node

variable {node part : Node} {above outer : List Node} {occurrence : Occurrence} {offset : Nat}
  {level : List Value} {value : Value}

/-- Classes are parts of files only. -/
theorem eq_file_of_class_mem_children {declaration : Tree.Class} (node : Node)
    (isChild : .class declaration ∈ node.children) : ∃ source, node = .file source := by
  have statement (step : Statement) : step.node ≠ .class declaration := by
    cases step <;> exact nofun
  have body (body : Body) : body.node ≠ .class declaration := by cases body <;> exact nofun
  have member (declared : Member) : declared.node ≠ .class declaration := by
    cases declared <;> exact nofun
  have children : node.children = node.parts.flatMap fun part => part.2.children := rfl
  rw [children] at isChild
  cases node with
  | file source => exact ⟨source, rfl⟩
  | type written => cases written <;> simp [parts, typeParts, Part.children] at isChild
  | expression value =>
      cases value <;>
        simp [parts, expressionParts, Part.children, Expr.node, SimpleName.node] at isChild
  | constructorParameter parameter =>
      cases binding : parameter.binding <;> simp [parts, Part.children, binding] at isChild
  | property declared =>
      cases type : declared.type <;> cases initializer : declared.initializer <;>
        simp [parts, Part.children, Part.optional, type, initializer] at isChild
  | function declared =>
      cases type : declared.returnType <;>
        simp [parts, Part.children, Part.optional, type, (body declared.body).symm] at isChild
  | _ => simp [parts, Part.children, SimpleName.node, statement, member] at isChild

theorem eq_of_class_mem_occurrences {declaration : Tree.Class} (node : Node) (above : List Node)
    (notFile : node.kind ≠ .file) (occurs : ⟨.class declaration, outer⟩ ∈ node.occurrences above) :
    node = .class declaration ∧ outer = above := by
  rw [occurrences_eq] at occurs
  rcases List.mem_cons.mp occurs with same | isBelow
  · cases same
    exact ⟨rfl, rfl⟩
  · obtain ⟨child, isChild, occursBelow⟩ := List.mem_flatMap.mp isBelow
    have smaller := sizeOf_child_lt isChild
    have childNotFile : child.kind ≠ .file := by
      intro isFile
      obtain ⟨source, rfl⟩ := eq_file_of_kind isFile
      exact file_notMem_children source node isChild
    obtain ⟨rfl, -⟩ := eq_of_class_mem_occurrences child _ childNotFile occursBelow
    obtain ⟨source, rfl⟩ := eq_file_of_class_mem_children node isChild
    exact absurd rfl notFile
termination_by sizeOf node

/-! ### Values around a node -/

/-- A level that is seen belongs to a node above. -/
theorem exists_scope_of_mem_valuesAround (part : Node) (above : List Node)
    (isLevel : level ∈ part.valuesAround offset above) :
    ∃ below scope outer, below :: scope :: outer <:+ part :: above ∧ scope :: outer <:+ above ∧
      level ∈ scope.valueLevels offset below := by
  induction above generalizing part with
  | nil => cases isLevel
  | cons node above ih =>
      rcases List.mem_append.mp isLevel with isOwn | isOuter
      · exact ⟨part, node, above, List.suffix_rfl, List.suffix_rfl, isOwn⟩
      · obtain ⟨below, scope, outer, suffix, isAbove, isLevel⟩ := ih node isOuter
        exact ⟨below, scope, outer, suffix.trans (List.suffix_cons _ _),
          isAbove.trans (List.suffix_cons _ _), isLevel⟩

end Node

/-- The value is what the declaration at a node declares, and no constructor parameter that
is not a property. -/
structure Value.IsOf (value : Value) (node : Node) : Prop where
  ref : node.ref = value.declaration
  ofConstructor : value.ofConstructor = false
  bound : ∀ parameter, node = .constructorParameter parameter → parameter.binding.isSome

namespace Tree

variable {value : Value}

theorem Statement.isOf_of_variable? {statement : Statement}
    (isVariable : statement.variable? = some value) : value.IsOf statement.node := by
  cases statement with
  | expression => cases isVariable
  | «variable» declared =>
      cases isVariable
      exact ⟨rfl, rfl, nofun⟩

theorem Member.isOf_of_property? {member : Member} (isProperty : member.property? = some value) :
    value.IsOf member.node := by
  cases member with
  | function => cases isProperty
  | property declared =>
      cases isProperty
      exact ⟨rfl, rfl, nofun⟩

theorem TopLevel.isOf_of_property? {declared : TopLevel}
    (isProperty : declared.property? = some value) : value.IsOf declared.node := by
  cases declared with
  | «class» => cases isProperty
  | member declared => exact Member.isOf_of_property? isProperty

theorem Class.mem_children_of_constructorParameter {declaration : Tree.Class}
    {parameter : ConstructorParameter} (isOne : parameter ∈ declaration.constructorParameters) :
    .constructorParameter parameter ∈ (Node.class declaration).children := by
  rw [children_eq]
  exact List.mem_append_right _ (List.mem_append_left _ (List.mem_map_of_mem isOne))

theorem Class.exists_child_of_mem_propertyValues {declaration : Tree.Class}
    (isValue : value ∈ declaration.propertyValues) :
    ∃ child ∈ (Node.class declaration).children, value.IsOf child := by
  rcases List.mem_append.mp isValue with isParameter | isMember
  · obtain ⟨parameter, isOne, isProperty⟩ := List.mem_filterMap.mp isParameter
    obtain ⟨binding, isBinding, rfl⟩ := Option.map_eq_some_iff.mp isProperty
    refine ⟨_, mem_children_of_constructorParameter isOne, rfl, rfl, ?_⟩
    rintro _ ⟨⟩
    rw [isBinding]
    rfl
  · obtain ⟨member, isOne, isProperty⟩ := List.mem_filterMap.mp isMember
    exact ⟨_, mem_children isOne, Member.isOf_of_property? isProperty⟩

end Tree

namespace Node

variable {node part : Node} {offset : Nat} {level : List Value} {value : Value}

/-- The values of a level are what children of its node declare, and those of a block are
declared before the offset that they are seen from.  Only a property of a class sees the
parameters of the constructor instead. -/
theorem exists_child_of_mem_valueLevels (isLevel : level ∈ node.valueLevels offset part)
    (isValue : value ∈ level) :
    (∃ child ∈ node.children, value.IsOf child ∧
      ∀ steps, node = .block steps → child.span.stop ≤ offset) ∨
    ∃ declaration declared parameter, node = .class declaration ∧ part = .property declared ∧
      parameter ∈ declaration.constructorParameters ∧ value = parameter.value := by
  cases node with
  | block steps =>
      rw [List.mem_singleton.mp isLevel] at isValue
      obtain ⟨step, isStep, isVariable⟩ := List.mem_filterMap.mp isValue
      obtain ⟨inBlock, stops⟩ := List.mem_filter.mp isStep
      exact .inl ⟨step.node, Block.mem_children inBlock, Statement.isOf_of_variable? isVariable,
        fun _ _ => of_decide_eq_true stops⟩
  | function declared =>
      rw [List.mem_singleton.mp isLevel] at isValue
      obtain ⟨parameter, isParameter, rfl⟩ := List.mem_map.mp isValue
      refine .inl ⟨.valueParameter parameter, ?_, ⟨rfl, rfl, ?_⟩, ?_⟩
      · simp [children, parts, Part.children, isParameter]
      · rintro _ ⟨⟩
      · rintro _ ⟨⟩
  | file source =>
      rw [List.mem_singleton.mp isLevel] at isValue
      obtain ⟨declared, isDeclaration, isProperty⟩ := List.mem_filterMap.mp isValue
      refine .inl ⟨_, File.mem_children isDeclaration, TopLevel.isOf_of_property? isProperty, ?_⟩
      rintro _ ⟨⟩
  | «class» declaration =>
      have ofProperties (isProperty : value ∈ declaration.propertyValues) :
          ∃ child ∈ (Node.class declaration).children, value.IsOf child ∧
            ∀ steps, Node.class declaration = .block steps → child.span.stop ≤ offset := by
        obtain ⟨child, isChild, isOf⟩ := Class.exists_child_of_mem_propertyValues isProperty
        refine ⟨child, isChild, isOf, ?_⟩
        rintro _ ⟨⟩
      cases part with
      | property declared =>
          rcases List.mem_cons.mp isLevel with rfl | isProperties
          · obtain ⟨parameter, isParameter, rfl⟩ := List.mem_map.mp isValue
            exact .inr ⟨declaration, declared, parameter, rfl, rfl, isParameter, rfl⟩
          · rw [List.mem_singleton.mp isProperties] at isValue
            exact .inl (ofProperties isValue)
      | _ =>
          rw [List.mem_singleton.mp isLevel] at isValue
          exact .inl (ofProperties isValue)
  | _ => cases isLevel

end Node

/-! ### Values seen from a name -/

namespace Occurrence

variable {file : File} {text : List Char} {occurrence : Occurrence} {value : Value}

theorem exists_level_of_seen? (isSeen : occurrence.seen? = some value) :
    ∃ level ∈ occurrence.values, value ∈ level := by
  unfold seen? at isSeen
  split at isSeen
  · obtain ⟨level, isLevel, found⟩ := List.exists_of_findSome?_eq_some isSeen
    exact ⟨level, isLevel, List.mem_of_find?_eq_some found⟩
  · cases isSeen

/-- Where a value that is seen comes from: some declaration right in a node above, or the
constructor of the class around a property. -/
theorem exists_declaration_of_seen? (occurs : occurrence ∈ file.occurrences)
    (isSeen : occurrence.seen? = some value) :
    (∃ child scope outer, ⟨child, scope :: outer⟩ ∈ file.occurrences ∧ value.IsOf child ∧
      ∀ steps, scope = .block steps → child.span.stop ≤ occurrence.node.span.start) ∨
    ∃ declaration declared parameter outer, value = ConstructorParameter.value parameter ∧
      .property declared :: .class declaration :: outer <:+ occurrence.node :: occurrence.above ∧
        .class declaration :: outer <:+ occurrence.above := by
  obtain ⟨level, isLevel, isValue⟩ := exists_level_of_seen? isSeen
  obtain ⟨below, scope, outer, suffix, isAbove, isLevel⟩ :=
    Node.exists_scope_of_mem_valuesAround _ _ isLevel
  rcases Node.exists_child_of_mem_valueLevels isLevel isValue with
    ⟨child, isChild, isOf, stops⟩ | ⟨declaration, declared, parameter, rfl, rfl, -, rfl⟩
  · have scopeOccurs := (Node.mem_occurrences_of_suffix _ _ occurs isAbove (Nat.zero_le _)).1
    refine .inl ⟨child, scope, outer, ?_, isOf, stops⟩
    exact Node.mem_occurrences_trans _ _ scopeOccurs
      (Node.mem_occurrences_of_child isChild (Node.mem_occurrences_self _ _))
  · exact .inr ⟨declaration, declared, parameter, outer, rfl, suffix, isAbove⟩

/-- The initializer of a local variable does not see the variable. -/
theorem declaration_ne_of_seen? (placed : file.WellPlaced text)
    (occurs : occurrence ∈ file.occurrences) (isSeen : occurrence.seen? = some value)
    {own : Property} {steps : Block} {outer : List Node}
    (isOwn : .property own :: .block steps :: outer <:+ occurrence.above) :
    value.declaration ≠ (Node.property own).ref := by
  intro same
  obtain ⟨ownOccurs, inOwn⟩ := Node.mem_occurrences_of_suffix _ _ occurs isOwn (Nat.zero_le _)
  rcases exists_declaration_of_seen? occurs isSeen with
    ⟨child, scope, outer', childOccurs, isOf, stops⟩ | ⟨_, _, parameter, _, rfl, -⟩
  · have sameOccurrence := placed.occurrence_eq ownOccurs childOccurs nofun
      (isOf.ref.trans same).symm
    cases sameOccurrence
    have ownPlaced : Node.WellPlaced text (.property own) :=
      placed.of_mem_occurrences ownOccurs nofun
    obtain ⟨-, stopsInside, innerPlaced⟩ :=
      ownPlaced.of_mem_subtree (Node.mem_subtree_of_mem_occurrences inOwn)
    have nonempty := innerPlaced.tidy.tight.start_lt_stop
    have := stops steps rfl
    omega
  · cases congrArg NodeRef.kind same

/-- Classes are declared right in the file. -/
theorem above_eq_of_class {declaration : Tree.Class} {outer : List Node}
    (occurs : ⟨.class declaration, outer⟩ ∈ file.occurrences) : outer = [.file file] := by
  rw [File.occurrences, Node.occurrences_eq] at occurs
  rcases List.mem_cons.mp occurs with isFile | isBelow
  · cases isFile
  · obtain ⟨child, isChild, occursBelow⟩ := List.mem_flatMap.mp isBelow
    have notFile : child.kind ≠ .file := by
      intro isFile
      obtain ⟨source, rfl⟩ := Node.eq_file_of_kind isFile
      exact Node.file_notMem_children source _ isChild
    exact (Node.eq_of_class_mem_occurrences child _ notFile occursBelow).2

/-- From the function of a class no parameter of the constructor is seen as such. -/
theorem exists_isOf_of_seen? (occurs : occurrence ∈ file.occurrences)
    (isSeen : occurrence.seen? = some value) {function : Function} {owner : Tree.Class}
    {outer : List Node}
    (isMember : .function function :: .class owner :: outer <:+ occurrence.above) :
    ∃ child around, ⟨child, around⟩ ∈ file.occurrences ∧ value.IsOf child := by
  rcases exists_declaration_of_seen? occurs isSeen with
    ⟨child, scope, outer', childOccurs, isOf, -⟩ |
      ⟨declaration, declared, parameter, outer', -, suffix, isAbove⟩
  · exact ⟨child, _, childOccurs, isOf⟩
  · have classOccurs {declaration : Tree.Class} {outer : List Node}
        (isAbove : .class declaration :: outer <:+ occurrence.above) : outer = [.file file] :=
      above_eq_of_class (Node.mem_occurrences_of_suffix _ _ occurs isAbove (Nat.zero_le _)).1
    obtain rfl := classOccurs isAbove
    obtain rfl := classOccurs ((List.suffix_cons _ _).trans isMember)
    have same := (List.suffix_of_suffix_length_le suffix
      (isMember.trans (List.suffix_cons _ _)) (Nat.le_refl _)).eq_of_length rfl
    cases same

end Occurrence

end Gloss
