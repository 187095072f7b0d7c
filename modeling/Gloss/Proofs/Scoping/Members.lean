import Gloss.Proofs.Audit.Resolved
import Gloss.Proofs.References.Files
import Gloss.Proofs.Scoping.Values

/-!
# Names in the bodies of members

Wherever the body of a member is looked at, the levels around a name in it show the values
that are seen from there.  So whatever is written down about such a name follows the tree.
-/

namespace Gloss

open Gloss.Tree

/-! ### Values around a node -/

namespace Node

variable {node : Node} {around : List Node} {occurrence : Occurrence}

/-- Inside of an expression nothing more is seen than around it. -/
theorem valuesAround_of_isInnermost (offset : Nat) (node : Node) (above : List Node)
    (innermost : node.isInnermost = true) (occurs : occurrence ∈ node.occurrences above) :
    occurrence.node.valuesAround offset occurrence.above = node.valuesAround offset above := by
  rw [occurrences_eq] at occurs
  rcases List.mem_cons.mp occurs with rfl | isBelow
  · rfl
  · obtain ⟨child, isChild, occursBelow⟩ := List.mem_flatMap.mp isBelow
    have smaller := sizeOf_child_lt isChild
    have childInnermost := isInnermost_children innermost child isChild
    rw [valuesAround_of_isInnermost offset child _ childInnermost occursBelow, valuesAround]
    cases node with
    | expression | type | operator => rfl
    | _ => cases innermost
termination_by sizeOf node

/-- What is seen from an expression is seen from all of it. -/
theorem values_of_mem_expression {value : Expr} {above : List Node}
    (occurs : occurrence ∈ (expression value).occurrences above) :
    occurrence.values = (expression value).valuesAround occurrence.node.span.start above :=
  valuesAround_of_isInnermost _ _ _ (isInnermost_expression value) occurs

theorem isInnermost_children_property {declared : Property} {child : Node}
    (isChild : child ∈ (property declared).children) : child.isInnermost = true := by
  cases written : declared.type <;> cases initialized : declared.initializer <;>
    simp [children, parts, Part.children, Part.optional, written, initialized] at isChild
  · rw [isChild]
    rfl
  · rw [isChild]
    rfl
  · rcases isChild with rfl | rfl <;> rfl

/-- A statement adds nothing to what is seen around it. -/
theorem values_of_mem_statement {statement : Statement} {above : List Node}
    (occurs : occurrence ∈ statement.node.occurrences above) :
    occurrence.values = statement.node.valuesAround occurrence.node.span.start above := by
  cases statement with
  | expression value => exact values_of_mem_expression occurs
  | «variable» declared =>
      rw [Statement.node, occurrences_eq] at occurs
      rcases List.mem_cons.mp occurs with rfl | isBelow
      · rfl
      · obtain ⟨child, isChild, occursBelow⟩ := List.mem_flatMap.mp isBelow
        exact valuesAround_of_isInnermost _ child _ (isInnermost_children_property isChild)
          occursBelow

end Node

/-! ### Members and the levels around them -/

namespace Tree

variable {file : File} {declared : TopLevel}

theorem File.mem_children (isDeclaration : declared ∈ file.declarations) :
    declared.node ∈ (Node.file file).children := by
  simp only [Node.children, Node.parts, Part.children, List.flatMap_cons, List.flatMap_nil,
    List.append_nil]
  exact List.mem_append_right _ (List.mem_map_of_mem isDeclaration)

theorem Class.children_eq (declaration : Class) :
    (Node.class declaration).children =
      declaration.typeParameters.map Node.typeParameter ++
        (declaration.constructorParameters.map Node.constructorParameter ++
          declaration.members.map Member.node) := by
  simp [Node.children, Node.parts, Part.children]

theorem Block.children_eq (steps : Block) :
    (Node.block steps).children = steps.statements.map Statement.node := by
  simp [Node.children, Node.parts, Part.children]

theorem Class.mem_children {declaration : Class} {member : Member}
    (isMember : member ∈ declaration.members) :
    member.node ∈ (Node.class declaration).children := by
  rw [children_eq]
  exact List.mem_append_right _ (List.mem_append_right _ (List.mem_map_of_mem isMember))

theorem Block.mem_children {steps : Block} {statement : Statement}
    (isStatement : statement ∈ steps.statements) :
    statement.node ∈ (Node.block steps).children :=
  steps.children_eq ▸ List.mem_map_of_mem isStatement

theorem File.mem_occurrences (isDeclaration : declared ∈ file.declarations) :
    ⟨declared.node, [.file file]⟩ ∈ file.occurrences :=
  Node.mem_occurrences_of_child (File.mem_children isDeclaration) (Node.mem_occurrences_self _ _)

end Tree

open ResolutionState in
/-- A member occurs in its file, and from inside of it the values are seen that its levels
show. -/
theorem Site.exists_above {file : File} {site : Site}
    (isSite : site ∈ TopLevel.sitesOf file.declarations) :
    ∃ above, ⟨site.member.node, above⟩ ∈ file.occurrences ∧ ∀ offset, ∀ part : Node,
      ShowsLevels (site.levels ++ [TopLevel.level file.declarations, librarySymbols])
        (part.valuesAround offset (site.member.node :: above)) := by
  have fileLevels : ShowsLevels [TopLevel.level file.declarations, librarySymbols]
      [file.declarations.filterMap TopLevel.property?] :=
    .level (TopLevel.showsLevel_level _) (.without showsLevel_librarySymbols .nil)
  obtain ⟨declared, isDeclaration, isOne⟩ := List.mem_flatMap.mp isSite
  cases declared with
  | member declared =>
      rw [List.mem_singleton.mp isOne]
      refine ⟨[.file file], File.mem_occurrences isDeclaration, fun offset part => ?_⟩
      cases declared with
      | property declared => exact fileLevels
      | function declared => exact .level (declared.showsLevel_level _ _) fileLevels
  | «class» declared =>
      obtain ⟨member, isMember, rfl⟩ := List.mem_map.mp isOne
      refine ⟨[.class declared, .file file], ?_, fun offset part => ?_⟩
      · exact Node.mem_occurrences_trans _ _ (File.mem_occurrences isDeclaration)
          (Node.mem_occurrences_of_child (Class.mem_children isMember)
            (Node.mem_occurrences_self _ _))
      · have classLevels := ShowsLevels.level
          (declared.showsLevel_memberIntroductions
            (TopLevel.classifiersOf file.declarations))
          (.without declared.showsLevel_header fileLevels)
        cases member with
        | property member =>
            exact .level (ConstructorParameter.showsLevel_introductions _ _ _ _) classLevels
        | function member => exact .level (member.showsLevel_level _ _) classLevels

/-! ### What is written down about names -/

namespace Occurrence

variable {occurrence : Occurrence}

theorem exists_name_of_isValue (isValue : occurrence.isValue = true) :
    ∃ name : SimpleName, occurrence.node = name.node := by
  obtain ⟨node, above⟩ := occurrence
  cases node with
  | expression value =>
      cases value with
      | name name => exact ⟨name, rfl⟩
      | _ => cases isValue
  | _ => cases isValue

end Occurrence

/-- A reference means the value that is seen, and nothing where none is seen. -/
def Meaning.Reaches (meant : Meaning Descriptor) : Option Value → Prop
  | none => meant = .unresolved
  | some value => ∃ held, meant = .target (.variable held) ∧
      held.declaration = some value.declaration ∧ held.Fits value

/-- What is written down about the names of a file that stand for expressions is what is
seen from them. -/
def Tree.File.Respects (file : File) (remarks : List Remark) : Prop :=
  ∀ occurrence ∈ file.occurrences, occurrence.isValue = true → ∀ meant,
    .meaning occurrence.ref meant ∈ remarks → meant.Reaches occurrence.seen?

namespace Remark

variable {reference other : NodeRef} {remarks : List Remark} {meant : Meaning Descriptor}

theorem Answers.eq_of_mem (answers : Answers reference remarks)
    (member : .meaning other meant ∈ remarks) : other = reference := by
  cases answers <;> simp_all

theorem tolerant_respects (file : File) : Tolerant file.Respects where
  nil _ _ _ _ member := by cases member
  append respects respectsLater occurrence occurs isValue meant member :=
    (List.mem_append.mp member).elim (respects occurrence occurs isValue meant)
      (respectsLater occurrence occurs isValue meant)
  perm perm respects occurrence occurs isValue meant member :=
    respects occurrence occurs isValue meant (perm.mem_iff.mpr member)
  aside remark isAside occurrence _ _ meant member := by
    rw [← List.mem_singleton.mp member] at isAside
    cases isAside
  answers {reference remarks} notName answers occurrence _ isValue meant member := by
    obtain ⟨name, isName⟩ := occurrence.exists_name_of_isValue isValue
    refine absurd ?_ notName
    rw [← answers.eq_of_mem member, Occurrence.ref, isName]
    rfl
  recursive name node occurrence _ _ meant member := by
    cases List.mem_singleton.mp member

end Remark

open Remark

section Permits

variable {file : File} {text : List Char} {around : Surroundings} {occurrence : Occurrence}
  {above : List Node}

theorem permits_of_shows (placed : file.WellPlaced text) (occurs : occurrence ∈ file.occurrences)
    (shows : ShowsLevels around.levels occurrence.values) :
    around.Permits file.Respects occurrence := by
  have same {name : SimpleName} (isName : occurrence.node = name.node) {other : Occurrence}
      (otherOccurs : other ∈ file.occurrences) (sameRef : other.ref = name.node.ref) :
      other = occurrence :=
    placed.occurrence_eq otherOccurs occurs
      (show other.ref.kind ≠ .file by rw [sameRef]; exact nofun)
      (sameRef.trans (congrArg Node.ref isName).symm)
  constructor
  · intro name isName other otherOccurs isValue meant member
    obtain rfl := same isName otherOccurs
      ((around.answers_valueRemarks name).eq_of_mem member)
    have found := shows.rel_lookup name.text
    have seen : other.seen? = other.values.findSome? fun level =>
        level.find? fun value => value.name = name.text := by
      rw [Occurrence.seen?, isName]
      rfl
    rw [← seen] at found
    unfold Surroundings.valueRemarks at member
    generalize around.lookup SymbolKind.isValue name.text = symbols at found member
    generalize other.seen? = value at found ⊢
    cases symbols with
    | nil =>
        cases found
        obtain ⟨-, isUnresolved⟩ : other.ref = name.node.ref ∧ meant = .unresolved := by
          simpa using member
        exact isUnresolved
    | cons symbol rest =>
        cases found with
        | some shows =>
            obtain ⟨held, isHeld, declared, fits⟩ := shows.describes
            obtain ⟨-, isTarget⟩ :
                other.ref = name.node.ref ∧ meant = .target symbol.descriptor := by
              simpa using member
            exact ⟨held, isHeld ▸ isTarget, declared, fits⟩
  · intro name isName notValue remarks answers other otherOccurs isValue meant member
    obtain rfl := same isName otherOccurs (answers.eq_of_mem member)
    rw [notValue] at isValue
    cases isValue

/-- The statements before one in which an offset lies are those that end before it. -/
theorem Tree.Block.filter_stop_le {steps : Block} {earlier rest : List Statement}
    {statement : Statement} {offset : Nat} (placed : Node.WellPlaced text (.block steps))
    (statements : steps.statements = earlier ++ statement :: rest)
    (starts : statement.node.span.start ≤ offset) (stops : offset < statement.node.span.stop) :
    (steps.statements.filter fun step => step.node.span.stop ≤ offset) = earlier := by
  have ordered : steps.statements.Pairwise fun first second =>
      first.node.span.stop ≤ second.node.span.start := by
    have pairwise := placed.tidy.spread_children.pairwise
    rw [steps.children_eq, List.map_map] at pairwise
    exact List.pairwise_map.mp pairwise
  rw [statements, List.pairwise_append] at ordered
  obtain ⟨-, orderedRest, before⟩ := ordered
  rw [statements, List.filter_append, List.filter_eq_self.mpr, List.filter_eq_nil_iff.mpr,
    List.append_nil]
  · intro step isLater
    have stopsAfter : offset < step.node.span.stop := by
      rcases List.mem_cons.mp isLater with rfl | inRest
      · exact stops
      · have isStep : step ∈ steps.statements := by simp [statements, inRest]
        have nonempty := (placed.child (Block.mem_children isStep)).tidy.tight.start_lt_stop
        have := (List.pairwise_cons.mp orderedRest).1 step inRest
        omega
    simpa using stopsAfter
  · intro step isEarlier
    have := before step isEarlier statement List.mem_cons_self
    simpa using this.trans starts

/-- What is seen from the names in a block. -/
theorem follows_of_shows (placed : file.WellPlaced text) {steps : Block}
    (occurs : ⟨.block steps, above⟩ ∈ file.occurrences)
    (shows : ∀ offset, ShowsLevels around.levels ((Node.block steps).valuesAround offset above)) :
    around.Follows file.Respects (.block steps :: above) fun block rest =>
      ∃ earlier, steps.statements = earlier ++ rest ∧
        ShowsLevel block (earlier.filterMap Statement.variable?) where
  permits := by
    rintro block statement rest ⟨earlier, statements, showsBlock⟩ occurrence isBelow
    have inBlock : statement.node ∈ (Node.block steps).children :=
      Block.mem_children (by simp [statements])
    have inFile := Node.mem_occurrences_trans _ _ occurs
      (Node.mem_occurrences_of_child inBlock isBelow)
    refine permits_of_shows placed inFile ?_
    have blockPlaced := placed.of_mem_occurrences occurs nofun
    have statementPlaced := blockPlaced.child inBlock
    obtain ⟨starts, stops, innerPlaced⟩ :=
      statementPlaced.of_mem_subtree (Node.mem_subtree_of_mem_occurrences isBelow)
    have nonempty := innerPlaced.tidy.tight.start_lt_stop
    rw [Node.values_of_mem_statement isBelow, Node.valuesAround, Node.valueLevels,
      Block.filter_stop_le blockPlaced statements starts (nonempty.trans_le stops)]
    exact .level showsBlock (shows _)
  «variable» := by
    rintro block declaration rest ⟨earlier, statements, showsBlock⟩ type
    refine ⟨earlier ++ [.variable declaration], by simp [statements], ?_⟩
    rw [List.filterMap_append]
    exact showsBlock.append (.singleton rfl ⟨rfl, _, rfl, rfl, rfl⟩)
  expression := by
    rintro block value rest ⟨earlier, statements, showsBlock⟩
    refine ⟨earlier ++ [.expression value], by simp [statements], ?_⟩
    rw [List.filterMap_append]
    exact (List.append_nil block) ▸ showsBlock.append .nil

/-- An expression right in a member sees what the levels around the member show. -/
theorem permitsIn_of_shows (placed : file.WellPlaced text) {value : Expr}
    (occurs : ⟨.expression value, above⟩ ∈ file.occurrences)
    (shows : ∀ offset,
      ShowsLevels around.levels ((Node.expression value).valuesAround offset above)) :
    around.PermitsIn file.Respects (.expression value) above := by
  intro occurrence isBelow
  refine permits_of_shows placed (Node.mem_occurrences_trans _ _ occurs isBelow) ?_
  rw [Node.values_of_mem_expression isBelow]
  exact shows _

/-- In the bodies of members names mean what is seen from them. -/
theorem permitsMembers_respects (placed : file.WellPlaced text) (base : ResolutionState) :
    base.PermitsMembers file.declarations file.Respects := by
  intro site isSite
  obtain ⟨above, occurs, shows⟩ := site.exists_above isSite
  refine ⟨above, fun own => ?_⟩
  have inFile {part : Node} (isPart : part ∈ site.member.node.children) :
      ⟨part, site.member.node :: above⟩ ∈ file.occurrences :=
    Node.mem_occurrences_trans _ _ occurs
      (Node.mem_occurrences_of_child isPart (Node.mem_occurrences_self _ _))
  have shown (part : Node) (offset : Nat) :
      ShowsLevels (base.view file.declarations site own).levels
        (part.valuesAround offset (site.member.node :: above)) :=
    shows offset part
  generalize base.view file.declarations site own = around at shown
  generalize site.member = member at inFile shown
  cases member with
  | property declared =>
      intro value isInitializer
      refine permitsIn_of_shows placed (inFile ?_) (shown _)
      rw [Option.mem_def] at isInitializer
      simp [Member.node, Node.children, Node.parts, Part.children, Part.optional, isInitializer]
  | function declared =>
      cases body : declared.body with
      | expression value =>
          simp only [Surroundings.PermitsBody, body]
          refine permitsIn_of_shows placed (inFile ?_) (shown _)
          simp [Member.node, Node.children, Node.parts, Part.children, body, Body.node]
      | block steps =>
          simp only [Surroundings.PermitsBody, body]
          refine ⟨_, ⟨[], rfl, .nil⟩, follows_of_shows placed (inFile ?_) (shown _)⟩
          simp [Member.node, Node.children, Node.parts, Part.children, body, Body.node]

end Permits

end Gloss
