import Gloss.Proofs.Recursion
import Gloss.Proofs.Scoping.Members
import Gloss.Proofs.Typing.Joins

/-!
# Branches

A choice between two branches has the join of their types.  It occurs in the body or the
initializer of some member, so it is inferred when that is checked, or when the type of the
member is asked for.
-/

namespace Gloss

open Gloss.Tree ResolutionState

/-! ### Where choices occur -/

namespace Node

/-- The two branches of a choice. -/
def branches? : Node → Option (Expr × Expr)
  | .expression (.ifElse _ _ thenBranch elseBranch) => some (thenBranch, elseBranch)
  | _ => none

theorem eq_ifElse_of_branches? (node : Node) {thenBranch elseBranch : Expr}
    (isChoice : node.branches? = some (thenBranch, elseBranch)) :
    ∃ span condition, (Expr.ifElse span condition thenBranch elseBranch).node = node := by
  unfold branches? at isChoice
  split at isChoice
  · cases isChoice
    exact ⟨_, _, rfl⟩
  · cases isChoice

/-- Written types and parameters hold no expressions. -/
def isHead : Node → Bool
  | .type _ | .typeParameter _ | .constructorParameter _ | .valueParameter _ => true
  | _ => false

variable {node : Node} {inner : Expr}

section Children

attribute [local simp] children parts typeParts Part.children Part.optional

theorem isHead_children (head : node.isHead = true) :
    ∀ child ∈ node.children, child.isHead = true := by
  cases node with
  | type written => cases written <;> simp +contextual [isHead, or_imp]
  | constructorParameter parameter => cases bound : parameter.binding <;> simp [isHead, bound]
  | typeParameter | valueParameter => simp [isHead]
  | _ => cases head

theorem children_property (declared : Property) :
    (property declared).children =
      (declared.type.map type).toList ++ (declared.initializer.map expression).toList := by
  cases written : declared.type <;> cases initialized : declared.initializer <;>
    simp [written, initialized]

theorem children_function (declared : Function) :
    (function declared).children =
      (declared.typeParameters.map typeParameter ++
        (declared.parameters.map valueParameter ++ (declared.returnType.map type).toList)) ++
          [declared.body.node] := by
  cases written : declared.returnType <;> simp [written]

end Children

theorem notMem_subtree_of_isHead (node : Node) (head : node.isHead = true) (inner : Expr) :
    inner.node ∉ node.subtree := by
  intro isBelow
  rcases mem_subtree_iff.mp isBelow with same | ⟨child, isChild, isBelow⟩
  · rw [← same] at head
    cases head
  · have smaller := sizeOf_child_lt isChild
    exact notMem_subtree_of_isHead child (isHead_children head child isChild) inner isBelow
termination_by sizeOf node

/-- An expression in a node that is none itself is in some part that is no head. -/
theorem exists_child (isBelow : inner.node ∈ node.subtree)
    (noExpression : ∀ value, node ≠ expression value) :
    ∃ child ∈ node.children, child.isHead = false ∧ inner.node ∈ child.subtree := by
  obtain ⟨child, isChild, isBelow⟩ :=
    (mem_subtree_iff.mp isBelow).resolve_left (noExpression inner ·.symm)
  refine ⟨child, isChild, ?_, isBelow⟩
  by_contra head
  exact notMem_subtree_of_isHead child (Bool.not_eq_false _ ▸ head) inner isBelow

theorem exists_initializer {declared : Property}
    (isBelow : inner.node ∈ (property declared).subtree) :
    ∃ value, declared.initializer = some value ∧ inner.node ∈ value.node.subtree := by
  obtain ⟨child, isChild, notHead, isBelow⟩ := exists_child isBelow nofun
  rw [children_property, List.mem_append, Option.mem_toList, Option.mem_toList] at isChild
  rcases isChild with isType | isInitializer
  · obtain ⟨written, -, rfl⟩ := Option.map_eq_some_iff.mp isType
    cases notHead
  · obtain ⟨value, initialized, rfl⟩ := Option.map_eq_some_iff.mp isInitializer
    exact ⟨value, initialized, isBelow⟩

theorem mem_subtree_body {declared : Function}
    (isBelow : inner.node ∈ (function declared).subtree) :
    inner.node ∈ declared.body.node.subtree := by
  obtain ⟨child, isChild, notHead, isBelow⟩ := exists_child isBelow nofun
  rw [children_function] at isChild
  rcases List.mem_append.mp isChild with isHead | isBody
  · have head : child.isHead = true := by
      simp only [List.mem_append, List.mem_map, Option.mem_toList, Option.map_eq_some_iff] at isHead
      obtain ⟨_, -, rfl⟩ | ⟨_, -, rfl⟩ | ⟨_, -, rfl⟩ := isHead <;> rfl
    rw [head] at notHead
    cases notHead
  · exact List.mem_singleton.mp isBody ▸ isBelow

end Node

namespace Tree

variable {inner : Expr}

theorem Block.exists_statement {steps : Block} (isBelow : inner.node ∈ (Node.block steps).subtree) :
    ∃ statement ∈ steps.statements, inner.node ∈ statement.node.subtree := by
  obtain ⟨child, isChild, -, isBelow⟩ := Node.exists_child isBelow nofun
  rw [Block.children_eq] at isChild
  obtain ⟨statement, isStatement, rfl⟩ := List.mem_map.mp isChild
  exact ⟨statement, isStatement, isBelow⟩

/-- An expression in a member is in the body that decides its type, or in the part of the
member that is checked. -/
theorem Member.exists_part {member : Member} (isBelow : inner.node ∈ member.node.subtree) :
    (∃ body, member.openBody? = some body ∧ inner.node ∈ body.node.subtree) ∨
      ∃ part, member.checkedBody? = some part ∧ inner.node ∈ part.subtree := by
  cases member with
  | property declared =>
      obtain ⟨value, initialized, isBelow⟩ := Node.exists_initializer isBelow
      cases written : declared.type with
      | none => exact .inl ⟨value, by simp [openBody?, written, initialized], isBelow⟩
      | some type =>
          exact .inr ⟨value.node, by simp [checkedBody?, written, initialized, Expr.node], isBelow⟩
  | function declared =>
      have isBelow := Node.mem_subtree_body isBelow
      cases written : declared.returnType with
      | some type => exact .inr ⟨declared.body.node, by simp [checkedBody?, written], isBelow⟩
      | none =>
          cases body : declared.body with
          | block steps =>
              rw [body] at isBelow
              exact .inr ⟨_, by simp [checkedBody?, written, body], isBelow⟩
          | expression value =>
              rw [body] at isBelow
              exact .inl ⟨value, by simp [openBody?, written, body], isBelow⟩

/-- An expression in a file that is inferred wherever it stands is in some member. -/
theorem File.exists_member {file : File} (isInferred : inner.IsInferred)
    (inFile : inner.node ∈ file.nodes) :
    ∃ member ∈ file.members, inner.node ∈ member.node.subtree := by
  rw [nodes_eq, List.mem_append, List.mem_flatMap] at inFile
  rcases inFile with ⟨header, -, inHeader⟩ | inDeclarations
  · rw [subtree_package, List.mem_cons, List.mem_map] at inHeader
    rcases inHeader with isPackage | ⟨name, -, isName⟩
    · cases isPackage
    · cases isName
      cases isInferred
  · obtain ⟨top, isTop, inTop⟩ := List.mem_flatMap.mp inDeclarations
    obtain ⟨declared, isDeclared, rfl⟩ := List.mem_map.mp isTop
    cases declared with
    | member declaration =>
        exact ⟨declaration, List.mem_flatMap.mpr ⟨_, isDeclared, List.mem_singleton_self _⟩, inTop⟩
    | «class» declaration =>
        obtain ⟨child, isChild, notHead, isBelow⟩ := Node.exists_child inTop nofun
        have isPart := (declaration.children_eq ▸ isChild : child ∈ _)
        simp only [List.mem_append, List.mem_map] at isPart
        obtain ⟨_, -, rfl⟩ | ⟨_, -, rfl⟩ | ⟨member, isMember, rfl⟩ := isPart
        · cases notHead
        · cases notHead
        · exact ⟨member, List.mem_flatMap.mpr ⟨_, isDeclared, isMember⟩, isBelow⟩

end Tree

/-! ### What is inferred -/

namespace Surroundings

open Script

variable {around : Surroundings} {inner : Expr}

theorem covers_describeLocal (isInferred : inner.IsInferred) {declaration : Property}
    (isBelow : inner.node ∈ (Node.property declaration).subtree) :
    (around.describeLocal declaration).Covers around.class? inner := by
  obtain ⟨value, initialized, isBelow⟩ := Node.exists_initializer isBelow
  refine .after fun declared => .andThen ?_
  rw [initialized]
  exact (covers_infer isInferred value isBelow).andThen

theorem covers_checkStatements (isInferred : inner.IsInferred) (statements : List Statement)
    (block : List (Symbol Descriptor))
    (isBelow : ∃ statement ∈ statements, inner.node ∈ statement.node.subtree) :
    (around.checkStatements block statements).Covers around.class? inner := by
  induction statements generalizing block with
  | nil =>
      obtain ⟨statement, isStatement, -⟩ := isBelow
      cases isStatement
  | cons statement rest ih =>
      have isPlace := (List.exists_mem_cons_iff _ _ _).mp isBelow
      cases statement with
      | «variable» declaration =>
          rcases isPlace with isFirst | isLater
          · exact (covers_describeLocal isInferred isFirst).andThen
          · exact .after fun _ => .after fun _ => .after fun _ => ih _ isLater
      | expression value =>
          rcases isPlace with isFirst | isLater
          · exact (covers_infer isInferred value isFirst).andThen
          · exact .after fun _ => ih _ isLater

/-- What stands in the part of a member that is checked is inferred along with the check. -/
theorem covers_checkMember (isInferred : inner.IsInferred) {site : Site} {part : Node}
    (isChecked : site.member.checkedBody? = some part) (isBelow : inner.node ∈ part.subtree) :
    (around.checkMember site).Covers around.class? inner := by
  obtain ⟨member, owner, classifiers, levels⟩ := site
  cases member with
  | property declared =>
      refine .after fun type => ?_
      cases written : declared.type with
      | none => simp [Member.checkedBody?, written] at isChecked
      | some _ =>
          cases initialized : declared.initializer with
          | none => simp [Member.checkedBody?, written, initialized] at isChecked
          | some value =>
              obtain rfl : value.node = part := by
                simpa [Member.checkedBody?, written, initialized, Expr.node] using isChecked
              exact (covers_infer isInferred value isBelow).andThen
  | function declared =>
      refine .after fun returned => ?_
      cases body : declared.body with
      | block steps =>
          obtain rfl : Node.block steps = part := by
            cases written : declared.returnType <;>
              simpa [Member.checkedBody?, written, body, Body.node] using isChecked
          exact covers_checkStatements isInferred steps.statements [] (Block.exists_statement isBelow)
      | expression value =>
          cases written : declared.returnType with
          | none => simp [Member.checkedBody?, written, body] at isChecked
          | some _ =>
              obtain rfl : value.node = part := by
                simpa [Member.checkedBody?, written, body, Body.node, Expr.node] using isChecked
              exact (covers_infer isInferred value isBelow).andThen

/-- A choice comes to the join of what its branches come to. -/
theorem exists_join_of_runs {span : Span} {condition thenBranch elseBranch : Expr}
    {remarks : List Remark} {type : NominalType}
    (runs : (around.infer (.ifElse span condition thenBranch elseBranch)).Runs remarks type) :
    ∃ first second, .typed thenBranch.node.ref first ∈ remarks ∧
      .typed elseBranch.node.ref second ∈ remarks ∧ type = first.join second Library.any := by
  rw [infer] at runs
  obtain ⟨_, _, _, -, checks, rfl⟩ := runs_bind_iff.mp runs
  obtain ⟨_, _, _, -, branches, rfl⟩ := runs_bind_iff.mp checks
  obtain ⟨first, _, _, runsThen, afterThen, rfl⟩ := runs_bind_iff.mp branches
  obtain ⟨second, _, _, runsElse, afterElse, rfl⟩ := runs_bind_iff.mp afterThen
  obtain ⟨_, _, _, -, result, -⟩ := runs_bind_iff.mp afterElse
  have isThen := records_infer thenBranch _ _ runsThen
  have isElse := records_infer elseBranch _ _ runsElse
  refine ⟨first, second, ?_, ?_, (runs_pure_iff.mp result).2⟩
  · simp [isThen]
  · simp [isElse]

end Surroundings

namespace ResolutionState

theorem covers_checkScript {base : ResolutionState} {inner : Expr} (isInferred : inner.IsInferred)
    {site : Site} {part : Node} (isChecked : site.member.checkedBody? = some part)
    (isBelow : inner.node ∈ part.subtree) {sites : List Site} (isSite : site ∈ sites) :
    (base.checkScript sites).Covers base.class? inner := by
  induction sites with
  | nil => cases isSite
  | cons first rest ih =>
      rcases List.mem_cons.mp isSite with rfl | isLater
      · have covers : (base.siteScript site).Covers base.class? inner :=
          Surroundings.covers_checkMember isInferred isChecked isBelow
        exact covers.andThen
      · exact .after fun _ => ih isLater

end ResolutionState

namespace Resolution

variable {name : String} {text : List Char} {resolution : Resolution} {inner : Expr}

/-- An expression that is inferred wherever it stands was inferred, and what that wrote down has
stayed. -/
theorem exists_runs_of_isInferred (readable : read name text = .ok resolution)
    (isInferred : inner.IsInferred) (inFile : inner.node ∈ resolution.file.nodes)
    {base : ResolutionState} {total : List Remark}
    (unfolds : Unfolds resolution.file.declarations base resolution.state total) :
    ∃ (around : Surroundings) (own : List Remark) (type : NominalType),
      around.class? = base.class? ∧ (around.infer inner).Runs own type ∧ own ⊆ total := by
  obtain ⟨member, isMember, isBelow⟩ := File.exists_member isInferred inFile
  rw [File.members, ← TopLevel.map_member_sitesOf] at isMember
  obtain ⟨site, isSite, rfl⟩ := List.mem_map.mp isMember
  rcases site.member.exists_part isBelow with ⟨body, isOpen, isBelow⟩ | ⟨part, isChecked, isBelow⟩
  · obtain ⟨type, known, -⟩ :=
      exists_resultType? readable (File.mem_openBodies_iff.mpr ⟨site, isSite, rfl, isOpen⟩)
    obtain ⟨own, runs, included⟩ := unfolds.exists_runs isSite isOpen known
    obtain ⟨around, remarks, inferred, same, runsInner, within⟩ :=
      Surroundings.covers_infer isInferred body isBelow own type runs
    exact ⟨around, remarks, inferred, same, runsInner, List.Subset.trans within included⟩
  · obtain ⟨replies, own, remarks, trail, -, perm⟩ := unfolds.course
    obtain ⟨around, inferredRemarks, type, same, runs, within⟩ :=
      covers_checkScript isInferred isChecked isBelow isSite own () trail.runs
    refine ⟨around, inferredRemarks, type, same, runs, fun remark isWritten => ?_⟩
    exact perm.mem_iff.mpr (List.mem_append_right _ (List.mem_append_left _ (within isWritten)))

/-- The type of a choice is the join of the types of its branches. -/
theorem exists_join_of_choice (readable : read name text = .ok resolution) {node : Node}
    (inFile : node ∈ resolution.file.nodes) {thenBranch elseBranch : Expr}
    (isChoice : node.branches? = some (thenBranch, elseBranch)) :
    ∃ first second, resolution.type? thenBranch.node.ref = some first ∧
      resolution.type? elseBranch.node.ref = some second ∧
        resolution.type? node.ref = some (first.join second Library.any) := by
  obtain ⟨span, condition, rfl⟩ := node.eq_ifElse_of_branches? isChoice
  obtain ⟨once, base, total, unfolds⟩ := exists_unfolds_of_read readable
  have isChoice : (Expr.ifElse span condition thenBranch elseBranch).IsChoice := trivial
  obtain ⟨around, own, type, -, runs, included⟩ :=
    exists_runs_of_isInferred readable isChoice.isInferred inFile unfolds
  obtain ⟨first, second, isThen, isElse, rfl⟩ := Surroundings.exists_join_of_runs runs
  have isWhole := Surroundings.records_infer _ _ _ runs
  have found {node : NodeRef} {type : NominalType} (isWritten : .typed node type ∈ own) :
      resolution.type? node = some type :=
    (type?_eq_some_iff unfolds once).mpr (included isWritten)
  exact ⟨first, second, found isThen, found isElse, found isWhole⟩

/-- A choice fits wherever both of its branches fit. -/
theorem exists_isSubtype_of_branches (readable : read name text = .ok resolution) {node : Node}
    (inFile : node ∈ resolution.file.nodes) {thenBranch elseBranch : Expr}
    (isChoice : node.branches? = some (thenBranch, elseBranch)) :
    ∃ first second whole, resolution.type? thenBranch.node.ref = some first ∧
      resolution.type? elseBranch.node.ref = some second ∧
        resolution.type? node.ref = some whole ∧
          ∀ super, first.isSubtype super = true → second.isSubtype super = true →
            whole.isSubtype super = true := by
  obtain ⟨first, second, isThen, isElse, isWhole⟩ :=
    exists_join_of_choice readable inFile isChoice
  exact ⟨first, second, _, isThen, isElse, isWhole, fun _ below secondBelow =>
    NominalType.join_isSubtype below secondBelow⟩

/-! ### Branches and their choice -/

/-- The join of two types is an upper bound of them, whichever comes first, unless they are of
one class and differ in their arguments.  So both branches of a choice are subtypes of it,
unless they differ like that. -/
theorem bounded_iff_joinable (readable : read name text = .ok resolution) :
    (∀ first second top : NominalType, first.isError = false → second.isError = false →
      top.constructor.isTop = true →
        (first.BoundedByJoin second top ↔ first.Joinable second)) ∧
      ∀ node ∈ resolution.file.nodes, ∀ thenBranch elseBranch,
        node.branches? = some (thenBranch, elseBranch) →
          ∃ first second whole, resolution.type? thenBranch.node.ref = some first ∧
            resolution.type? elseBranch.node.ref = some second ∧
              resolution.type? node.ref = some whole ∧
                (first.isSubtype whole = true ∧ second.isSubtype whole = true ↔
                  first.isError = true ∨ second.isError = true ∨ first.Joinable second) := by
  constructor
  · intro first second top firstSound secondSound isTop
    exact NominalType.boundedByJoin_iff firstSound secondSound isTop
  · intro node inFile thenBranch elseBranch isChoice
    obtain ⟨first, second, isThen, isElse, isWhole⟩ :=
      exists_join_of_choice readable inFile isChoice
    exact ⟨first, second, _, isThen, isElse, isWhole, NominalType.isSubtype_join_iff rfl⟩

/-- A number or null is a number that may be null. -/
theorem bounded_iff_joinable_null :
    Library.int.BoundedByJoin (Library.nothing.withNullable true) Library.any ∧
      ∃ resolution node branches whole,
        read "sample" "val a = if (true) 1 else null".toList = .ok resolution ∧
          node ∈ resolution.file.nodes ∧ node.branches? = some branches ∧
            resolution.type? node.ref = some whole ∧ Library.int.isSubtype whole = true ∧
              (Library.nothing.withNullable true).isSubtype whole = true := by
  have checked :
      ((read "sample" "val a = if (true) 1 else null".toList).toOption.any fun resolution =>
        decide (∃ node ∈ resolution.file.nodes, ∃ branches ∈ node.branches?,
          resolution.type? branches.1.node.ref = some Library.int ∧
            resolution.type? branches.2.node.ref =
              some (Library.nothing.withNullable true))) = true := by
    decide +kernel
  have joinable : Library.int.Joinable (Library.nothing.withNullable true) := fun same =>
    absurd same (by decide)
  obtain ⟨resolution, readable, node, inFile, branches, isChoice, isInt, isNull⟩ :=
    exists_of_read checked
  obtain ⟨laws, choices⟩ := bounded_iff_joinable readable
  obtain ⟨first, second, whole, isThen, isElse, isWhole, bounded⟩ :=
    choices node inFile _ _ isChoice
  cases isInt.symm.trans isThen
  cases isNull.symm.trans isElse
  obtain ⟨left, right⟩ := bounded.mpr (.inr (.inr joinable))
  exact ⟨(laws _ _ _ rfl rfl rfl).mpr joinable, resolution, node, branches, whole, readable,
    inFile, isChoice, isWhole, left, right⟩

/-- Two lists of different elements are of one class, so a choice between them has the type of
the first one. -/
theorem not_isSubtype_of_choice :
    ¬ (Library.list Library.int).BoundedByJoin (Library.list Library.string) Library.any ∧
      ∃ resolution,
        read "sample" "val a = if (true) listOf(1) else listOf(\"x\")".toList = .ok resolution ∧
          resolution.diagnostics = [] ∧
            resolution.type? ⟨.call, ⟨18, 27⟩⟩ = some (Library.list Library.int) ∧
              resolution.type? ⟨.call, ⟨33, 44⟩⟩ = some (Library.list Library.string) ∧
                resolution.type? ⟨.conditional, ⟨8, 44⟩⟩ = some (Library.list Library.int) ∧
                  (Library.list Library.string).isSubtype (Library.list Library.int) = false := by
  have notBelow : (Library.list Library.string).isSubtype (Library.list Library.int) = false := by
    decide
  have checked :
      ((read "sample" "val a = if (true) listOf(1) else listOf(\"x\")".toList).toOption.any
        fun resolution =>
          decide (resolution.diagnostics = [] ∧
            resolution.type? ⟨.call, ⟨18, 27⟩⟩ = some (Library.list Library.int) ∧
              resolution.type? ⟨.call, ⟨33, 44⟩⟩ = some (Library.list Library.string) ∧
                resolution.type? ⟨.conditional, ⟨8, 44⟩⟩ = some (Library.list Library.int))) =
        true := by
    decide +kernel
  obtain ⟨resolution, readable, clean, isThen, isElse, isWhole⟩ := exists_of_read checked
  refine ⟨fun bounded => ?_, resolution, readable, clean, isThen, isElse, isWhole, notBelow⟩
  exact Bool.false_ne_true (notBelow.symm.trans bounded.right)

end Resolution

end Gloss
