import Gloss.Proofs.Order
import Gloss.Proofs.Scoping.Members
import Gloss.Proofs.Typing.Branches

/-!
# A name in the place of an expression

An expression of a file is replaced by a name, which takes up its place in the text.  No node
below the file gets a place that another one has, so no slot is filled twice.  The heads of
declarations stay as they are, and with them everything that is seen from the place of a member.
-/

namespace Gloss

open Gloss.Tree ResolutionState

namespace Tree

section Replacing

variable (place : NodeRef) (unknown : String)

/-- What becomes of an expression that is changed inside: the name if it is the one at the node. -/
def Expr.orName (original changed : Expr) : Expr :=
  if original.node.ref = place then .name ⟨original.span, unknown⟩ else changed

mutual

/-- The expression with the one at a node replaced by a name. -/
def Expr.replacing : Expr → Expr
  | .name simple => Expr.orName place unknown (.name simple) (.name simple)
  | .integer span value => Expr.orName place unknown (.integer span value) (.integer span value)
  | .text span value => Expr.orName place unknown (.text span value) (.text span value)
  | .boolean span value => Expr.orName place unknown (.boolean span value) (.boolean span value)
  | .null span => Expr.orName place unknown (.null span) (.null span)
  | .callableRef span target =>
      Expr.orName place unknown (.callableRef span target) (.callableRef span target)
  | .paren span inner =>
      Expr.orName place unknown (.paren span inner) (.paren span (Expr.replacing inner))
  | .ifThen span condition thenBranch =>
      Expr.orName place unknown (.ifThen span condition thenBranch)
        (.ifThen span (Expr.replacing condition) (Expr.replacing thenBranch))
  | .ifElse span condition thenBranch elseBranch =>
      Expr.orName place unknown (.ifElse span condition thenBranch elseBranch)
        (.ifElse span (Expr.replacing condition) (Expr.replacing thenBranch)
          (Expr.replacing elseBranch))
  | .call span callee arguments =>
      Expr.orName place unknown (.call span callee arguments)
        (.call span (Expr.replacing callee) (Expr.replacingAll arguments))
  | .member span receiver selector =>
      Expr.orName place unknown (.member span receiver selector)
        (.member span (Expr.replacing receiver) selector)
  | .binary span left operator right =>
      Expr.orName place unknown (.binary span left operator right)
        (.binary span (Expr.replacing left) operator (Expr.replacing right))

def Expr.replacingAll : List Expr → List Expr
  | [] => []
  | expression :: rest => Expr.replacing expression :: Expr.replacingAll rest

end

def Property.replacing (property : Property) : Property :=
  { property with initializer := property.initializer.map (Expr.replacing place unknown) }

def Statement.replacing : Statement → Statement
  | .variable declared => .variable (declared.replacing place unknown)
  | .expression value => .expression (value.replacing place unknown)

def Block.replacing (block : Block) : Block :=
  { block with statements := block.statements.map (Statement.replacing place unknown) }

def Body.replacing : Body → Body
  | .expression value => .expression (value.replacing place unknown)
  | .block steps => .block (steps.replacing place unknown)

def Function.replacing (function : Function) : Function :=
  { function with body := function.body.replacing place unknown }

def Member.replacing : Member → Member
  | .function declared => .function (declared.replacing place unknown)
  | .property declared => .property (declared.replacing place unknown)

def Class.replacing (declaration : Class) : Class :=
  { declaration with members := declaration.members.map (Member.replacing place unknown) }

def TopLevel.replacing : TopLevel → TopLevel
  | .class declaration => .class (declaration.replacing place unknown)
  | .member declared => .member (declared.replacing place unknown)

/-- The file with the expression at a node replaced by a name. -/
def File.replacing (file : File) : File :=
  { file with declarations := file.declarations.map (TopLevel.replacing place unknown) }

end Replacing

variable {place : NodeRef} {unknown : String}

/-- The name stands where the expression stood. -/
theorem Expr.replacing_of_ref_eq {expression : Expr} (isReplaced : expression.node.ref = place) :
    expression.replacing place unknown = .name ⟨place.span, unknown⟩ := by
  subst isReplaced
  cases expression <;> simp [Expr.replacing, Expr.orName, Expr.node, Node.ref, Node.span]

end Tree

/-! ### Places in the text -/

namespace Node

/-- The places in the text of a node and all nodes below it. -/
def spans (node : Node) : List Span := node.subtree.map Node.span

theorem spans_eq (node : Node) : node.spans = node.span :: node.children.flatMap spans := by
  rw [spans, subtree_eq, List.map_cons, List.map_flatMap]
  rfl

/-- A node takes no more places than another one if those below it do not. -/
theorem spans_sublist {now before : Node} (same : now.span = before.span)
    (below : (now.children.flatMap spans).Sublist (before.children.flatMap spans)) :
    now.spans.Sublist before.spans := by
  rw [now.spans_eq, before.spans_eq, same]
  exact below.cons_cons _

end Node

namespace Tree

theorem Expr.spans_name (simple : SimpleName) : (Expr.name simple).node.spans = [simple.span] := by
  rw [Node.spans_eq]
  rfl

/-- The name takes the place of the expression only. -/
theorem Expr.spans_orName {original changed : Expr}
    (sublist : changed.node.spans.Sublist original.node.spans) :
    (original.orName place unknown changed).node.spans.Sublist original.node.spans := by
  rw [Expr.orName]
  split
  · rw [Expr.spans_name, Node.spans_eq]
    exact List.singleton_sublist.mpr List.mem_cons_self
  · exact sublist

section Children

attribute [local simp] Node.children Node.parts Node.expressionParts Part.children Part.optional

mutual

theorem Expr.spans_replacing : (expression : Expr) →
    (expression.replacing place unknown).node.spans.Sublist expression.node.spans
  | .name _ | .integer _ _ | .text _ _ | .boolean _ _ | .null _ | .callableRef _ _ => by
      rw [Expr.replacing]
      exact Expr.spans_orName (List.Sublist.refl _)
  | .paren span inner => by
      rw [Expr.replacing]
      refine Expr.spans_orName (Node.spans_sublist rfl ?_)
      simpa [Expr.node] using inner.spans_replacing
  | .ifThen span condition thenBranch => by
      rw [Expr.replacing]
      refine Expr.spans_orName (Node.spans_sublist rfl ?_)
      simpa [Expr.node] using condition.spans_replacing.append thenBranch.spans_replacing
  | .ifElse span condition thenBranch elseBranch => by
      rw [Expr.replacing]
      refine Expr.spans_orName (Node.spans_sublist rfl ?_)
      simpa [Expr.node] using condition.spans_replacing.append
        (thenBranch.spans_replacing.append elseBranch.spans_replacing)
  | .call span callee arguments => by
      rw [Expr.replacing]
      refine Expr.spans_orName (Node.spans_sublist rfl ?_)
      simpa [Expr.node] using callee.spans_replacing.append (spans_replacingAll arguments)
  | .member span receiver selector => by
      rw [Expr.replacing]
      refine Expr.spans_orName (Node.spans_sublist rfl ?_)
      simpa [Expr.node] using receiver.spans_replacing.append (List.Sublist.refl selector.node.spans)
  | .binary span left operator right => by
      rw [Expr.replacing]
      refine Expr.spans_orName (Node.spans_sublist rfl ?_)
      simpa [Expr.node] using left.spans_replacing.append
        ((List.Sublist.refl (Node.operator operator).spans).append right.spans_replacing)

theorem Expr.spans_replacingAll : (expressions : List Expr) →
    (((Expr.replacingAll place unknown expressions).map Expr.node).flatMap Node.spans).Sublist
      ((expressions.map Expr.node).flatMap Node.spans)
  | [] => by rw [Expr.replacingAll]
  | expression :: rest => by
      rw [Expr.replacingAll]
      simpa using expression.spans_replacing.append (spans_replacingAll rest)

end

theorem Property.spans_replacing (property : Property) :
    (Node.property (property.replacing place unknown)).spans.Sublist
      (Node.property property).spans := by
  refine Node.spans_sublist rfl ?_
  simp only [Node.children_property, List.flatMap_append]
  refine (List.Sublist.refl _).append ?_
  cases initialized : property.initializer with
  | none =>
      rw [Property.replacing, initialized]
      exact List.Sublist.refl _
  | some value =>
      simp only [Property.replacing, initialized, Option.map_some, Option.toList_some,
        List.flatMap_cons, List.flatMap_nil, List.append_nil]
      exact value.spans_replacing

theorem Statement.spans_replacing (statement : Statement) :
    (statement.replacing place unknown).node.spans.Sublist statement.node.spans := by
  cases statement with
  | «variable» declared => exact declared.spans_replacing
  | expression value => exact value.spans_replacing

theorem Body.spans_replacing (body : Body) :
    (body.replacing place unknown).node.spans.Sublist body.node.spans := by
  cases body with
  | expression value => exact value.spans_replacing
  | block steps =>
      refine Node.spans_sublist rfl ?_
      simp only [Body.replacing, Body.node, Block.replacing, Block.children_eq, List.map_map,
        List.flatMap_map]
      exact List.Sublist.flatMap_right _ fun statement _ => statement.spans_replacing

theorem Member.spans_replacing (member : Member) :
    (member.replacing place unknown).node.spans.Sublist member.node.spans := by
  cases member with
  | property declared => exact declared.spans_replacing
  | function declared =>
      refine Node.spans_sublist rfl ?_
      simp only [Member.replacing, Member.node, Function.replacing, Node.children_function,
        List.flatMap_append, List.flatMap_cons, List.flatMap_nil, List.append_nil]
      exact (List.Sublist.refl _).append declared.body.spans_replacing

theorem TopLevel.spans_replacing (declared : TopLevel) :
    (declared.replacing place unknown).node.spans.Sublist declared.node.spans := by
  cases declared with
  | member declared => exact declared.spans_replacing
  | «class» declaration =>
      refine Node.spans_sublist rfl ?_
      simp only [TopLevel.replacing, TopLevel.node, Class.replacing, Class.children_eq,
        List.flatMap_append, List.map_map, List.flatMap_map]
      refine (List.Sublist.refl _).append ((List.Sublist.refl _).append ?_)
      exact List.Sublist.flatMap_right _ fun member _ => member.spans_replacing

end Children

/-- Where no two nodes have the same place, no slot is filled twice. -/
theorem TopLevel.fillsOnce_of_nodup {contents : List TopLevel}
    (distinct : (contents.flatMap fun declared => declared.node.spans).Nodup) :
    TopLevel.FillsOnce contents := by
  intro slot
  have refs : ((contents.map TopLevel.node).flatMap Node.subtree |>.map Node.ref).Nodup := by
    apply List.Nodup.of_map NodeRef.span
    rw [List.map_map, List.map_flatMap, List.flatMap_map]
    exact distinct
  have filled : (contents.map fun declared => declared.node.filled).sum slot =
      ((((contents.map TopLevel.node).flatMap Node.subtree).filter fun inner =>
        slot.accept inner.kind).map Node.ref : List NodeRef) := by
    rw [Node.coe_flatMap_filter, Pi.list_sum_apply, List.map_map, List.map_map]
    rfl
  rw [filled, Multiset.coe_nodup]
  exact refs.sublist (List.filter_sublist.map _)

/-- The nodes of a file that an expression is replaced in have places of their own. -/
theorem File.WellPlaced.fillsOnce_replacing {file : File} {text : List Char}
    (placed : file.WellPlaced text) (place : NodeRef) (unknown : String) :
    TopLevel.FillsOnce (file.replacing place unknown).declarations := by
  apply TopLevel.fillsOnce_of_nodup
  have distinct : (file.declarations.flatMap fun declared => declared.node.spans).Nodup := by
    have spans := placed.nodup_spans
    rw [File.nodes_eq, List.map_append] at spans
    have declared := (List.nodup_append.mp spans).2.1
    rw [List.map_flatMap, List.flatMap_map] at declared
    exact declared
  refine distinct.sublist ?_
  rw [File.replacing, List.flatMap_map]
  exact List.Sublist.flatMap_right _ fun declared _ => declared.spans_replacing

/-! ### Heads -/

section Heads

variable (owner : Option ClassDescriptor) (classifiers : Classifiers)

@[simp] theorem Function.describe_replacing (function : Function) :
    (function.replacing place unknown).describe owner classifiers =
      function.describe owner classifiers := by
  obtain ⟨span, name, nameSpan, typeParameters, parameters, returnType, body⟩ := function
  cases returnType <;> cases body <;> rfl

@[simp] theorem Property.describe_replacing (property : Property) :
    (property.replacing place unknown).describe owner classifiers =
      property.describe owner classifiers := by
  obtain ⟨span, name, nameSpan, binding, type, initializer⟩ := property
  cases type <;> cases initializer <;> rfl

@[simp] theorem Member.ref_replacing (member : Member) :
    (member.replacing place unknown).node.ref = member.node.ref := by
  cases member <;> rfl

@[simp] theorem Member.introduction_replacing (member : Member) :
    (member.replacing place unknown).introduction owner classifiers =
      member.introduction owner classifiers := by
  cases member with
  | function declared =>
      simp only [Member.replacing, Member.introduction, Function.introduction,
        Function.describe_replacing]
      rfl
  | property declared =>
      simp only [Member.replacing, Member.introduction, Property.introduction,
        Property.describe_replacing]
      rfl

@[simp] theorem Member.headRemarks_replacing (member : Member) :
    (member.replacing place unknown).headRemarks owner classifiers =
      member.headRemarks owner classifiers := by
  cases member with
  | function declared =>
      simp only [Member.replacing, Member.headRemarks, Function.headRemarks, Function.described,
        Function.describe_replacing]
      rfl
  | property declared =>
      obtain ⟨span, name, nameSpan, binding, type, initializer⟩ := declared
      cases type <;> cases initializer <;> rfl

@[simp] theorem Member.levels_replacing (initializer : List (List (Symbol Descriptor)))
    (member : Member) :
    (member.replacing place unknown).levels owner classifiers initializer =
      member.levels owner classifiers initializer := by
  cases member with
  | function declared =>
      simp only [Member.replacing, Member.levels, Function.level, Function.described,
        Function.describe_replacing]
      rfl
  | property declared => rfl

@[simp] theorem Member.remarks_replacing (level : List (Symbol Descriptor)) (member : Member) :
    (member.replacing place unknown).remarks owner classifiers level =
      member.remarks owner classifiers level := by
  rw [Member.remarks, Member.remarks, headRemarks_replacing, introduction_replacing]

theorem Member.remarksOfAll_replacing (level : List (Symbol Descriptor)) (members : List Member) :
    Member.remarksOfAll owner classifiers level (members.map (Member.replacing place unknown)) =
      Member.remarksOfAll owner classifiers level members := by
  induction members generalizing level with
  | nil => rfl
  | cons first rest ih => simp only [List.map_cons, Member.remarksOfAll, remarks_replacing,
      introduction_replacing, ih]

@[simp] theorem Class.memberIntroductions_replacing (declaration : Class) :
    (declaration.replacing place unknown).memberIntroductions classifiers =
      declaration.memberIntroductions classifiers := by
  have members : (declaration.members.map (Member.replacing place unknown)).map
      (Member.introduction (some declaration.describe) (declaration.inner classifiers)) =
        declaration.members.map
          (Member.introduction (some declaration.describe) (declaration.inner classifiers)) := by
    rw [List.map_map]
    exact List.map_congr_left fun member _ => member.introduction_replacing _ _
  exact congrArg (declaration.properties classifiers ++ ·) members

@[simp] theorem Class.levels_replacing (declaration : Class) (member : Member) :
    (declaration.replacing place unknown).levels classifiers (member.replacing place unknown) =
      declaration.levels classifiers member := by
  rw [Class.levels, memberIntroductions_replacing, Member.levels_replacing]
  rfl

@[simp] theorem Class.entry_replacing (declaration : Class) :
    (declaration.replacing place unknown).entry classifiers = declaration.entry classifiers := by
  rw [Class.entry, memberIntroductions_replacing]
  rfl

@[simp] theorem Class.contentRemarks_replacing (declaration : Class) :
    (declaration.replacing place unknown).contentRemarks classifiers =
      declaration.contentRemarks classifiers :=
  congrArg (_ ++ ·) (Member.remarksOfAll_replacing _ _ _ declaration.members)

end Heads

namespace TopLevel

variable (contents : List TopLevel)

theorem classes_replacing :
    classes (contents.map (replacing place unknown)) =
      (classes contents).map (Class.replacing place unknown) := by
  induction contents with
  | nil => rfl
  | cons first rest ih => cases first <;> simp [replacing, classes, ih]

@[simp] theorem classSymbols_replacing :
    classSymbols (contents.map (replacing place unknown)) = classSymbols contents := by
  rw [classSymbols, classes_replacing, List.map_map]
  rfl

@[simp] theorem classifiersOf_replacing :
    classifiersOf (contents.map (replacing place unknown)) = classifiersOf contents := by
  rw [classifiersOf, classSymbols_replacing]
  rfl

@[simp] theorem symbols_replacing (classifiers : Classifiers) (declared : TopLevel) :
    (declared.replacing place unknown).symbols classifiers = declared.symbols classifiers := by
  cases declared with
  | «class» => rfl
  | member declared => simp [replacing, symbols]

@[simp] theorem level_replacing :
    level (contents.map (replacing place unknown)) = level contents := by
  rw [level, classSymbols_replacing, classifiersOf_replacing, List.flatMap_map]
  exact congrArg (_ ++ ·) (List.flatMap_congr fun declared _ => declared.symbols_replacing _)

theorem classRemarks_replacing (level : List (Symbol Descriptor)) :
    classRemarks level (contents.map (replacing place unknown)) = classRemarks level contents := by
  induction contents generalizing level with
  | nil => rfl
  | cons first rest ih =>
      cases first with
      | member declared => exact ih level
      | «class» declaration => exact congrArg (_ ++ ·) (ih _)

theorem contentRemarks_replacing (classifiers : Classifiers) (level : List (Symbol Descriptor)) :
    contentRemarks classifiers level (contents.map (replacing place unknown)) =
      contentRemarks classifiers level contents := by
  induction contents generalizing level with
  | nil => rfl
  | cons first rest ih =>
      cases first with
      | member declared => simp [replacing, contentRemarks, ih]
      | «class» declaration => simp [replacing, contentRemarks, ih]

/-- The heads say the same. -/
@[simp] theorem remarks_replacing :
    remarks (contents.map (replacing place unknown)) = remarks contents := by
  rw [remarks, classRemarks_replacing, contentRemarks_replacing, classifiersOf_replacing,
    classSymbols_replacing]
  rfl

end TopLevel

end Tree

/-- A member in its place with an expression replaced. -/
def Site.replacing (place : NodeRef) (unknown : String) (site : Site) : Site :=
  { site with member := site.member.replacing place unknown }

namespace Tree.TopLevel

variable {place : NodeRef} {unknown : String} (contents : List TopLevel)

theorem sites_replacing (classifiers : Classifiers) (declared : TopLevel) :
    (declared.replacing place unknown).sites classifiers =
      (declared.sites classifiers).map (Site.replacing place unknown) := by
  cases declared with
  | member declared => simp [replacing, sites, Site.replacing]
  | «class» declaration =>
      simp only [replacing, sites, List.map_map]
      refine (List.map_map ..).trans (List.map_congr_left fun member _ => ?_)
      simp only [Function.comp_apply, Site.replacing, Class.levels_replacing]
      rfl

/-- Members stay in their places, and see the same levels from there. -/
theorem sitesOf_replacing :
    sitesOf (contents.map (replacing place unknown)) =
      (sitesOf contents).map (Site.replacing place unknown) := by
  rw [sitesOf, classifiersOf_replacing, List.flatMap_map, sitesOf, List.map_flatMap]
  exact List.flatMap_congr fun declared _ => declared.sites_replacing _

theorem mem_sitesOf_replacing {site : Site} (isSite : site ∈ sitesOf contents) :
    site.replacing place unknown ∈ sitesOf (contents.map (replacing place unknown)) := by
  rw [sitesOf_replacing]
  exact List.mem_map_of_mem isSite

end Tree.TopLevel

end Gloss
