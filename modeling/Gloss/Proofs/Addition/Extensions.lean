import Gloss.Proofs.Addition.Descriptions
import Gloss.Proofs.Addition.Heads
import Gloss.Proofs.Order.Rounds
import Gloss.Proofs.Recursion.Files

/-!
# One more declaration

A file grows by a declaration at its end whose name it does not use.  The heads of the old
declarations say the same as before, and old members see the same under all names but the new
one.  So their checks and the bodies that were put off are twins of what they were.

The old members are checked first.  By then all their types are known, so what is written down
afterwards, and what the heads say in addition, is about the nodes of the new declaration,
whatever it asks for.
-/

/-!
### Checks that do not see a new name

The check of a body that does not use a new name is a twin of what it was before.  The local
variables of a block have types that come from the old nodes, so this goes on from each
statement to the next one.
-/

namespace Gloss

open Gloss.Tree Script NominalType

variable {word : String} {home : NodeRef → Prop} {isOpen isOpenLater : NodeRef → Bool}

namespace Script

theorem twin_reportConflict (level : List (Symbol Descriptor)) (symbol : Symbol Descriptor)
    (node : NodeRef) :
    Twin home (fun _ => True) (reportConflict level symbol node : Script isOpen Unit)
      (reportConflict level symbol node : Script isOpenLater Unit) := by
  unfold reportConflict
  split
  · exact twin_report _ _
  · exact .of_pure trivial

theorem twin_localType (declaration : Property) {type : Option NominalType}
    (comes : ∀ known ∈ type, known.From home) :
    Twin home (NominalType.From home) (localType declaration type : Script isOpen NominalType)
      (localType declaration type : Script isOpenLater NominalType) := by
  cases type with
  | some known => exact .of_pure (comes known rfl)
  | none => exact (twin_report _ _).bind fun _ _ => .of_pure from_error

end Script

namespace Surroundings.Resembles

variable {first second : Surroundings} (resembles : first.Resembles word home second)

include resembles

theorem sameApart_classifiers : first.classifiers.SameApart word second.classifiers :=
  fun _ isOther => resembles.classifiers_eq isOther

theorem from_classifiers : first.classifiers.From home := by
  intro name symbol found
  exact resembles.from_of_mem_lookup (List.mem_of_mem_head? found)

/-! ### Local variables -/

theorem writtenType? {type : Option TypeRef}
    (avoids : ∀ written ∈ type, (Node.type written).Avoids word) :
    Twin home (fun known => ∀ type ∈ known, type.From home) (first.writtenType? type)
      (second.writtenType? type) := by
  cases type with
  | none => exact .of_pure (by simp)
  | some written =>
      have same := resembles.sameApart_classifiers
      have avoidsWritten := avoids written rfl
      rw [Surroundings.writtenType?, Surroundings.writtenType?,
        ← TypeRef.remarks_of_avoids same written avoidsWritten,
        ← TypeRef.denote_of_avoids same written avoidsWritten]
      refine Twin.bind (.of_tellAll (written.shows_remarks resembles.from_classifiers)) fun _ _ =>
        .of_pure ?_
      rintro type ⟨⟩
      exact written.from_denote resembles.from_classifiers

theorem checkInitializer (declared : Option NominalType) {initializer : Option Expr}
    (avoids : ∀ value ∈ initializer, value.node.Avoids word) :
    Twin home (fun known => ∀ type ∈ known, type.From home)
      (first.checkInitializer declared initializer)
      (second.checkInitializer declared initializer) := by
  cases initializer with
  | none => exact .of_pure (by simp)
  | some value =>
      refine (infer resembles value (avoids value rfl)).bind fun type comes => ?_
      have inferred : ∀ known ∈ some type, known.From home := by simpa using comes
      cases declared with
      | none => exact .of_pure inferred
      | some expected => exact (twin_expect _ _ _).bind fun _ _ => .of_pure inferred

theorem describeLocal {declaration : Property}
    (avoids : (Node.property declaration).Avoids word) :
    Twin home (Descriptor.From home) (first.describeLocal declaration)
      (second.describeLocal declaration) := by
  have avoidsInitializer := Property.avoids_initializer avoids
  refine (resembles.writtenType? (Property.avoids_type avoids)).bind fun declared comes => ?_
  refine (resembles.checkInitializer declared avoidsInitializer).bind fun inferred comesToo => ?_
  refine (twin_localType declaration ?_).bind fun type comesType => .of_pure comesType
  intro known isKnown
  rcases Option.or_eq_some_iff.mp isKnown with isDeclared | ⟨-, isInferred⟩
  · exact comes known isDeclared
  · exact comesToo known isInferred

omit resembles in
/-- The statements of a block: each of them may see the local variables before it. -/
theorem checkStatements (resembles : first.Resembles word home second)
    {statements : List Statement} (avoids : ∀ step ∈ statements, step.node.Avoids word)
    {block : List (Symbol Descriptor)} (comes : ∀ symbol ∈ block, symbol.descriptor.From home) :
    Twin home (fun _ => True) (first.checkStatements block statements)
      (second.checkStatements block statements) := by
  induction statements generalizing block with
  | nil => exact .of_pure trivial
  | cons step rest ih =>
      obtain ⟨avoidsFirst, avoidsRest⟩ := List.forall_mem_cons.mp avoids
      have inBlock := resembles.inside comes
      cases step with
      | expression value =>
          exact (infer inBlock value avoidsFirst).bind fun _ _ => ih avoidsRest comes
      | «variable» declaration =>
          refine (inBlock.describeLocal avoidsFirst).bind fun descriptor comesLocal => ?_
          refine (twin_reportConflict _ _ _).bind fun _ _ => ?_
          refine Twin.bind (.of_tell comesLocal.shownOpen?) fun _ _ => ih avoidsRest ?_
          exact List.forall_mem_append.mpr ⟨comes, List.forall_mem_singleton.mpr comesLocal⟩

/-! ### Bodies -/

theorem check {value : Expr} (avoids : value.node.Avoids word) (expected : NominalType) :
    Twin home (fun _ => True) (first.check value expected) (second.check value expected) :=
  (infer resembles value avoids).bind fun _ _ => twin_expect _ _ _

theorem checkFunction {declared : Function} (avoids : (Node.function declared).Avoids word)
    {descriptor : FunctionDescriptor} (comes : (Descriptor.function descriptor).From home) :
    Twin home (fun _ => True) (first.checkFunction declared descriptor)
      (second.checkFunction declared descriptor) := by
  have avoidsBody := Function.avoids_body avoids
  refine (resembles.returnType comes).bind fun returned _ => ?_
  cases body : declared.body with
  | block steps =>
      rw [body] at avoidsBody
      refine resembles.checkStatements (fun step isStep => ?_) (List.forall_mem_nil _)
      have isChild : step.node ∈ (Node.block steps).children := by
        simpa [Node.children, Node.parts, Part.children] using ⟨step, isStep, rfl⟩
      exact avoidsBody.child isChild
  | expression value =>
      rw [body] at avoidsBody
      dsimp only
      split
      · exact resembles.check avoidsBody returned
      · exact .of_pure trivial

theorem checkProperty {declared : Property} (avoids : (Node.property declared).Avoids word)
    {holder : VariableDescriptor} (comes : (Descriptor.variable holder).From home) :
    Twin home (fun _ => True) (first.checkProperty declared holder)
      (second.checkProperty declared holder) := by
  refine (resembles.variableType comes).bind fun type _ => ?_
  cases initialized : declared.initializer with
  | none => exact .of_pure trivial
  | some value =>
      dsimp only
      split
      · exact resembles.check (Property.avoids_initializer avoids value initialized) type
      · exact .of_pure trivial

/-- The check of a member. -/
theorem checkMember {site other : Site} (same : site.SameApart word other)
    (avoids : site.member.node.Avoids word) (comes : site.From home) :
    Twin home (fun _ => True) (first.checkMember site) (second.checkMember other) := by
  have introduced := comes.introduction
  obtain ⟨member, owner, classifiers, levels⟩ := site
  obtain ⟨_, _, others, _⟩ := other
  obtain ⟨rfl, rfl, sameClassifiers, -⟩ := same
  cases member with
  | function declared =>
      have described : declared.describe owner classifiers = declared.describe owner others :=
        Function.describe_of_avoids avoids sameClassifiers owner
      change Twin home _ _ (second.checkFunction declared (declared.describe owner others))
      rw [← described]
      exact resembles.checkFunction avoids introduced
  | property declared =>
      have described : declared.describe owner classifiers = declared.describe owner others :=
        Property.describe_of_avoids avoids sameClassifiers owner
      change Twin home _ _
        (second.checkProperty declared (.property (declared.describe owner others)))
      rw [← described]
      exact resembles.checkProperty avoids introduced

end Surroundings.Resembles

end Gloss

/-! ### Old members and the new declaration -/

namespace Gloss

open Gloss.Tree ResolutionState

/-- What a declaration at the top of a file declares. -/
def Tree.TopLevel.name : TopLevel → String
  | .class declared => declared.name
  | .member declared => declared.name

/-- A declaration has nothing to do with the declarations before it: these do not use its name,
and its nodes are not among those where they are at home. -/
structure Tree.TopLevel.Unrelated (home : NodeRef → Prop) (contents : List TopLevel)
    (added : TopLevel) : Prop where
  within : ∀ declared ∈ contents, declared.node.Within home
  avoids : ∀ declared ∈ contents, declared.node.Avoids added.name
  apart : ∀ node ∈ added.node.subtree, ¬ home node.ref

/-- Symbols that are named by the word are not seen under other names. -/
theorem SameApart.append_named {word : String} {first second named : List (Symbol Descriptor)}
    (same : SameApart word first second) (isNamed : ∀ symbol ∈ named, symbol.name = word) :
    SameApart word first (second ++ named) := by
  intro name isOther
  have nothing : (named.filter fun symbol => symbol.name = name) = [] := by
    refine List.filter_eq_nil_iff.mpr fun symbol isSymbol => ?_
    rw [isNamed symbol isSymbol, decide_eq_true_eq]
    exact isOther.symm
  rw [List.filter_append, nothing, List.append_nil, same name isOther]

namespace Tree.TopLevel

variable {home : NodeRef → Prop} {contents : List TopLevel} {added : TopLevel}
  {classifiers : Classifiers}

/-! ### Listings -/

theorem classes_append (first second : List TopLevel) :
    classes (first ++ second) = classes first ++ classes second := by
  induction first with
  | nil => rfl
  | cons declared rest ih =>
      rw [List.cons_append, classes_cons, ih, classes_cons declared rest, List.append_assoc]

theorem classSymbols_append (first second : List TopLevel) :
    classSymbols (first ++ second) = classSymbols first ++ classSymbols second := by
  rw [classSymbols, classes_append, List.map_append]
  rfl

theorem classRemarks_append (first second : List TopLevel) (level : List (Symbol Descriptor)) :
    classRemarks level (first ++ second) =
      classRemarks level first ++ classRemarks (level ++ classSymbols first) second := by
  induction first generalizing level with
  | nil =>
      rw [classSymbols, classes, List.map_nil, List.append_nil]
      rfl
  | cons declared rest ih =>
      cases declared with
      | member declaration => exact ih level
      | «class» declaration =>
          rw [List.cons_append, classRemarks, ih, classRemarks, List.append_assoc,
            List.append_assoc]
          rfl

theorem contentRemarks_append (first second : List TopLevel) (level : List (Symbol Descriptor)) :
    contentRemarks classifiers level (first ++ second) =
      contentRemarks classifiers level first ++
        contentRemarks classifiers (level ++ first.flatMap (symbols classifiers)) second := by
  induction first generalizing level with
  | nil =>
      rw [List.flatMap_nil, List.append_nil]
      rfl
  | cons declared rest ih =>
      cases declared with
      | member declaration =>
          rw [List.cons_append, contentRemarks, ih, contentRemarks, List.append_assoc,
            List.append_assoc]
          rfl
      | «class» declaration =>
          rw [List.cons_append, contentRemarks, ih, contentRemarks, List.append_assoc]
          rfl

theorem name_of_mem_classSymbols :
    ∀ symbol ∈ classSymbols [added], symbol.name = added.name := by
  cases added with
  | member declaration => exact List.forall_mem_nil _
  | «class» declaration => exact List.forall_mem_singleton.mpr rfl

theorem name_of_mem_symbols : ∀ symbol ∈ added.symbols classifiers, symbol.name = added.name := by
  cases added with
  | «class» declaration => exact List.forall_mem_nil _
  | member declaration =>
      refine List.forall_mem_singleton.mpr ?_
      cases declaration <;> rfl

theorem mem_subtree_of_mem_members {member : Member} (isMember : member ∈ added.members) :
    member.node ∈ added.node.subtree := by
  cases added with
  | member declaration =>
      cases List.mem_singleton.mp isMember
      exact Node.mem_subtree_self _
  | «class» declaration =>
      refine Node.mem_subtree_of_child ?_ (Node.mem_subtree_self _)
      simpa [node, Node.children, Node.parts, Part.children] using
        .inr (.inr ⟨member, isMember, rfl⟩)

/-! ### Heads -/

theorem sameApart_classSymbols (contents : List TopLevel) (added : TopLevel) :
    SameApart added.name (classSymbols contents) (classSymbols (contents ++ [added])) := by
  rw [classSymbols_append]
  exact (SameApart.refl _ _).append_named name_of_mem_classSymbols

theorem sameApart_classifiersOf (contents : List TopLevel) (added : TopLevel) :
    (classifiersOf contents).SameApart added.name (classifiersOf (contents ++ [added])) :=
  Classifiers.SameApart.inside (fun _ _ => rfl) (sameApart_classSymbols contents added)

section Unrelated

variable (unrelated : Unrelated home contents added)

include unrelated

theorem Unrelated.sameApart_level :
    SameApart added.name (level contents) (level (contents ++ [added])) := by
  have symbols : contents.flatMap (symbols (classifiersOf contents)) =
      contents.flatMap (symbols (classifiersOf (contents ++ [added]))) :=
    List.flatMap_congr fun declared isDeclared =>
      symbols_of_avoids (sameApart_classifiersOf contents added)
        (unrelated.avoids declared isDeclared)
  rw [level, level, symbols, List.flatMap_append, ← List.append_assoc]
  refine ((sameApart_classSymbols contents added).append (.refl _ _)).append_named ?_
  rw [List.flatMap_singleton]
  exact name_of_mem_symbols

/-- What was written down about the heads of the old declarations still is. -/
theorem Unrelated.remarks_sublist :
    (remarks contents).Sublist (remarks (contents ++ [added])) := by
  have content := contentRemarks_of_avoids (sameApart_classifiersOf contents added) unrelated.avoids
    (sameApart_classSymbols contents added)
  rw [remarks, remarks, classRemarks_append, contentRemarks_append, content]
  exact (List.sublist_append_left _ _).append (List.sublist_append_left _ _)

theorem Unrelated.sites_sameApart :
    List.Forall₂ (Site.SameApart added.name) (sitesOf contents)
      (contents.flatMap (sites (classifiersOf (contents ++ [added])))) :=
  sites_of_avoids (sameApart_classifiersOf contents added) unrelated.avoids

theorem Unrelated.from_site {site : Site} (isSite : site ∈ sitesOf contents) :
    site.From home :=
  from_sites unrelated.within (from_classifiersOf unrelated.within) site isSite

theorem Unrelated.avoids_site {site : Site} (isSite : site ∈ sitesOf contents) :
    site.member.node.Avoids added.name := by
  obtain ⟨declared, isDeclared, isSite⟩ := List.mem_flatMap.mp isSite
  have isMember : site.member ∈ declared.members := by
    rw [← declared.map_member_sites (classifiersOf contents)]
    exact List.mem_map_of_mem isSite
  intro below isBelow
  exact unrelated.avoids declared isDeclared below
    (declared.node.subtree_subset (mem_subtree_of_mem_members isMember) isBelow)

end Unrelated

theorem sitesOf_append (contents : List TopLevel) (added : TopLevel) :
    sitesOf (contents ++ [added]) =
      contents.flatMap (sites (classifiersOf (contents ++ [added]))) ++
        added.sites (classifiersOf (contents ++ [added])) := by
  rw [sitesOf, List.flatMap_append, List.flatMap_singleton]

end Tree.TopLevel

/-! ### Two states -/

namespace ResolutionState

variable {home : NodeRef → Prop} {contents : List TopLevel} {added : TopLevel}
  {base other : ResolutionState}

/-- The types of members that leave them open are put off. -/
theorem Laid.isOpenType_iff (laid : base.Laid contents) {node : NodeRef} :
    base.isOpenType node = true ↔
      ∃ member ∈ contents.flatMap TopLevel.members,
        member.node.ref = node ∧ member.openBody?.isSome := by
  rw [← TopLevel.map_member_sitesOf]
  constructor
  · intro isOpen
    obtain ⟨deferred, found⟩ := Option.isSome_iff_exists.mp isOpen
    obtain ⟨site, isSite, same, isBody, -⟩ := laid.exists_site found
    exact ⟨site.member, List.mem_map_of_mem isSite, same, Option.isSome_iff_exists.mpr ⟨_, isBody⟩⟩
  · rintro ⟨member, isMember, rfl, isOpen⟩
    obtain ⟨site, isSite, rfl⟩ := List.mem_map.mp isMember
    exact laid.isOpenType isSite isOpen

/-- A file is declared in two states, in one of them with an unrelated declaration at its end. -/
structure Extended (home : NodeRef → Prop) (contents : List TopLevel) (added : TopLevel)
    (base other : ResolutionState) : Prop where
  unrelated : added.Unrelated home contents
  laid : base.Laid contents
  laidLater : other.Laid (contents ++ [added])

namespace Extended

variable (extended : Extended home contents added base other)

include extended

theorem isOpenType_eq {node : NodeRef} (isHome : home node) :
    base.isOpenType node = other.isOpenType node := by
  rw [Bool.eq_iff_iff, extended.laid.isOpenType_iff, extended.laidLater.isOpenType_iff]
  rw [List.flatMap_append, List.flatMap_singleton]
  constructor
  · rintro ⟨member, isMember, isOpen⟩
    exact ⟨member, List.mem_append_left _ isMember, isOpen⟩
  · rintro ⟨member, isMember, rfl, isOpen⟩
    refine ⟨member, (List.mem_append.mp isMember).resolve_right fun isNew => ?_, rfl, isOpen⟩
    exact extended.unrelated.apart _ (TopLevel.mem_subtree_of_mem_members isNew) isHome

theorem class?_eq {constructor : TypeConstructor}
    (isHome : ∀ node ∈ constructor.declaration?, home node) :
    base.class? constructor = other.class? constructor := by
  cases origin : constructor.origin with
  | declared node =>
      have ownHome : home node := isHome node (by rw [TypeConstructor.declaration?, origin]; rfl)
      simp only [class?, origin]
      rcases extended.laid.get?_classes constructor with
        ⟨declaration, isClass, rfl, found⟩ | ⟨noClass, found⟩
      · have isClassLater : declaration ∈ TopLevel.classes (contents ++ [added]) := by
          rw [TopLevel.classes_append]
          exact List.mem_append_left _ isClass
        rw [found, extended.laidLater.entries declaration isClassLater,
          Class.entry_of_avoids (extended.unrelated.avoids _ (TopLevel.mem_classes.mp isClass))
            (TopLevel.sameApart_classifiersOf contents added)]
      · rw [found]
        symm
        refine extended.laidLater.noClass constructor fun declaration isClass same => ?_
        rw [TopLevel.classes_append] at isClass
        refine noClass declaration ((List.mem_append.mp isClass).resolve_right fun isNew => ?_) same
        have isAdded := List.mem_singleton.mp (TopLevel.mem_classes.mp isNew)
        have sameNode : (Node.class declaration).ref = node :=
          Origin.declared.inj ((congrArg TypeConstructor.origin same).trans origin)
        refine extended.unrelated.apart _ (Node.mem_subtree_self _) ?_
        rw [← isAdded]
        exact sameNode ▸ ownHome
  | _ => simp only [class?, origin]

/-- From the place of an old member the same is seen under all other names. -/
theorem resembles_view {site later : Site} (isSite : site ∈ TopLevel.sitesOf contents)
    (same : site.SameApart added.name later) (own : NodeRef) :
    (base.view contents site own).Resembles added.name home
      (other.view (contents ++ [added]) later own) where
  levels := by
    change List.Forall₂ _ (site.levels ++ _) (later.levels ++ _)
    rw [same.levels]
    refine List.rel_append (List.forall₂_same.mpr fun level _ => .refl _ level) ?_
    exact .cons extended.unrelated.sameApart_level (.cons (.refl _ _) .nil)
  class? _ isHome := extended.class?_eq isHome
  isOpen _ isHome := extended.isOpenType_eq isHome
  own := Eq.refl own
  symbols := by
    have within := extended.unrelated.within
    refine List.forall_mem_append.mpr ⟨(extended.unrelated.from_site isSite).levels, ?_⟩
    exact List.forall_mem_cons.mpr ⟨TopLevel.from_level within,
      List.forall_mem_singleton.mpr from_librarySymbols⟩
  members _ _ found := extended.laid.from_members extended.unrelated.within found

/-- An old member is still there. -/
theorem exists_later {site : Site} (isSite : site ∈ TopLevel.sitesOf contents) :
    ∃ later ∈ TopLevel.sitesOf (contents ++ [added]), site.SameApart added.name later := by
  have sites := extended.unrelated.sites_sameApart
  rw [TopLevel.sitesOf_append]
  obtain ⟨index, isInside, rfl⟩ := List.getElem_of_mem isSite
  have isInsideLater := isInside
  rw [sites.length_eq] at isInsideLater
  exact ⟨_, List.mem_append_left _ (List.getElem_mem isInsideLater),
    sites.get isInside isInsideLater⟩

/-- Bodies that were put off have twins. -/
theorem mirrors : base.Mirrors home other := by
  have counterpart {node : NodeRef} {deferred : Deferred}
      (found : base.deferred.get? node = some deferred) :
      ∃ put, other.deferred.get? node = some put ∧ put.name = deferred.name ∧
        Script.Twin home (NominalType.From home)
          ((base.around deferred.scope node).infer deferred.body)
          ((other.around put.scope node).infer put.body) := by
    obtain ⟨site, isSite, rfl, isOpen, reaches⟩ := extended.laid.exists_site found
    obtain ⟨later, isLater, same⟩ := extended.exists_later isSite
    obtain ⟨scope, -, -, put⟩ := extended.laid.placed site isSite
    obtain ⟨scopeLater, -, reachesLater, putLater⟩ := extended.laidLater.placed later isLater
    rw [← same.member, isOpen] at putLater
    rw [isOpen, found] at put
    have sameName : site.member.name = deferred.name :=
      (congrArg Deferred.name (Option.some.inj put)).symm
    refine ⟨_, putLater, sameName, ?_⟩
    rw [extended.laid.around_eq reaches, extended.laidLater.around_eq reachesLater]
    refine Surroundings.Resembles.infer (extended.resembles_view isSite same _) _ ?_
    exact Member.avoids_openBody (extended.unrelated.avoids_site isSite) isOpen
  constructor
  · intro node deferred found
    obtain ⟨put, foundLater, sameName, -⟩ := counterpart found
    exact ⟨put, foundLater, sameName⟩
  · intro node script isBody
    obtain ⟨deferred, found, rfl⟩ := Option.map_eq_some_iff.mp isBody
    obtain ⟨put, foundLater, -, twin⟩ := counterpart found
    exact ⟨_, congrArg (Option.map _) foundLater, twin⟩

/-- The checks of the old members have twins. -/
theorem twin_checkScript {sites laterSites : List Site}
    (same : List.Forall₂ (Site.SameApart added.name) sites laterSites)
    (areSites : ∀ site ∈ sites, site ∈ TopLevel.sitesOf contents)
    (areLater : ∀ later ∈ laterSites, later ∈ TopLevel.sitesOf (contents ++ [added])) :
    Script.Twin home (fun _ => True) (base.checkScript sites) (other.checkScript laterSites) := by
  induction same with
  | nil => exact .of_pure trivial
  | @cons site later rest laterRest sameFirst _ ih =>
      obtain ⟨isSite, areRest⟩ := List.forall_mem_cons.mp areSites
      obtain ⟨isLater, areLaterRest⟩ := List.forall_mem_cons.mp areLater
      have checked := (extended.resembles_view isSite sameFirst noDeclaration).checkMember sameFirst
        (extended.unrelated.avoids_site isSite) (extended.unrelated.from_site isSite)
      rw [← extended.laid.aroundSite_eq isSite, ← extended.laidLater.aroundSite_eq isLater]
        at checked
      exact checked.bind fun _ _ => ih areRest areLaterRest

end Extended

end ResolutionState

/-! ### What is written down in addition -/

/-- What a slot of a tree is filled with is declared or used in it. -/
theorem Node.exists_of_mem_filled {node : Node} {slot : Slot} {filled : NodeRef}
    (isFilled : filled ∈ node.filled slot) : ∃ below ∈ node.subtree, below.ref = filled := by
  obtain ⟨below, isBelow, same⟩ := List.mem_map.mp (Multiset.mem_coe.mp isFilled)
  exact ⟨below, List.mem_of_mem_filter isBelow, same⟩

/-- Of the remarks in a longer listing those that are left over fill the slots that are left. -/
theorem Remark.filled_of_perm_append {remarks extra whole : List Remark}
    {first second : Slot → Multiset NodeRef} (perm : whole.Perm (remarks ++ extra))
    (isFirst : filled remarks = first) (isWhole : filled whole = first + second) :
    filled extra = second := by
  rw [filled_perm perm, filled_append, isFirst] at isWhole
  exact add_left_cancel isWhole

namespace ResolutionState

variable {home : NodeRef → Prop} {contents : List TopLevel} {added : TopLevel}
  {base other after later : ResolutionState}

theorem checkScript_append (base : ResolutionState) (first second : List Site) :
    base.checkScript (first ++ second) =
      base.checkScript first >>= fun _ => base.checkScript second := by
  induction first with
  | nil => rfl
  | cons site rest ih =>
      rw [List.cons_append, checkScript, ih, checkScript, bind_assoc]

/-- Only bodies that were put off are demanded. -/
theorem Demanded.isOpenType {nodes : List NodeRef} {remarks : List Remark}
    (demanded : base.Demanded nodes remarks) : ∀ node ∈ nodes, base.isOpenType node = true := by
  induction demanded with
  | nil => exact List.forall_mem_nil _
  | body isBody _ _ ih =>
      obtain ⟨deferred, found, -⟩ := Option.map_eq_some_iff.mp isBody
      exact List.forall_mem_cons.mpr ⟨Option.isSome_iff_exists.mpr ⟨deferred, found⟩, ih⟩
  | recursive name node _ ih => exact ih

/-- Whether or not an unrelated declaration is added, the same is written down about the old
nodes. -/
structure Preserved (home : NodeRef → Prop) (added : TopLevel) (after later : ResolutionState)
    (total laterTotal : List Remark) : Prop where
  sublist : total.Sublist laterTotal
  shows : ∀ remark ∈ total, remark.Shows home
  known : ∀ node, home node → after.inferred.get? node = later.inferred.get? node
  extra : ∃ extra, laterTotal.Perm (total ++ extra) ∧ Remark.filled extra ≤ added.node.filled

namespace Extended

variable (extended : Extended home contents added base other)

include extended

/-- What the heads say in addition is about the new declaration. -/
theorem exists_heads :
    ∃ heads, (TopLevel.remarks (contents ++ [added])).Perm (TopLevel.remarks contents ++ heads) ∧
      Remark.filled heads = added.headFilled + added.contentFilled := by
  obtain ⟨heads, perm⟩ := extended.unrelated.remarks_sublist.exists_perm_append
  refine ⟨heads, perm, Remark.filled_of_perm_append perm (TopLevel.filled_remarks contents) ?_⟩
  rw [TopLevel.filled_remarks, List.map_append, List.map_append, List.sum_append, List.sum_append,
    List.map_singleton, List.map_singleton, List.sum_singleton, List.sum_singleton]
  exact add_add_add_comm _ _ _ _

/-- Once all old types are known, the checks of the new members infer types of new members only. -/
theorem filled_checks_le {known laterKnown : InferredTypes} {remarks : List Remark}
    (enacts : other.Enacts []
      (other.checkScript (added.sites (TopLevel.classifiersOf (contents ++ [added])))) known
        remarks () laterKnown)
    (settled : ∀ node, base.isOpenType node = true → node ∈ known.keys) :
    Remark.filled remarks ≤ (added.members.map Member.bodyFilled).sum := by
  have areSites : ∀ site ∈ added.sites (TopLevel.classifiersOf (contents ++ [added])),
      site ∈ TopLevel.sitesOf (contents ++ [added]) := by
    intro site isSite
    rw [TopLevel.sitesOf_append]
    exact List.mem_append_right _ isSite
  have permits : other.PermitsMembers (contents ++ [added]) fun _ => True :=
    other.permitsMembers_of_forall _ fun _ _ => ⟨fun _ _ => trivial, fun _ _ _ _ _ => trivial⟩
  obtain ⟨replies, own, others, trail, course, perm⟩ := enacts.exists_course
  obtain ⟨nodes, demanded, distinct, areNew⟩ := course.exists_demanded
  have filledOwn := (extended.laidLater.keeps_checkScript tolerant_true.toLenient permits areSites
    own () trail.runs).1
  have filledOthers := (extended.laidLater.holds_demanded tolerant_true permits demanded).1
  have included : nodes ⊆ (added.sites (TopLevel.classifiersOf (contents ++ [added]))).map
      fun site => site.member.node.ref := by
    intro node isNode
    obtain ⟨member, isMember, rfl, isOpen⟩ :=
      extended.laidLater.isOpenType_iff.mp (demanded.isOpenType node isNode)
    rw [List.flatMap_append, List.flatMap_singleton] at isMember
    rcases List.mem_append.mp isMember with isOld | isAdded
    · have wasOpen := extended.laid.isOpenType_iff.mpr ⟨member, isOld, rfl, isOpen⟩
      exact absurd (settled _ wasOpen) (areNew _ isNode).2.1
    · rw [← added.map_member_sites (TopLevel.classifiersOf (contents ++ [added]))] at isAdded
      obtain ⟨site, isSite, rfl⟩ := List.mem_map.mp isAdded
      exact List.mem_map_of_mem isSite
  have bodies := extended.laidLater.filled_bodies_le areSites distinct included
  rw [← added.map_member_sites (TopLevel.classifiersOf (contents ++ [added])), List.map_map,
    Remark.filled_perm perm, Remark.filled_append, filledOwn, filledOthers]
  exact bodies

/-- The old members are checked as they were without the new declaration, and then the new ones. -/
theorem exists_more {written writtenLater : List Remark} {known laterKnown : InferredTypes}
    (enacts : base.Enacts [] (base.checkScript (TopLevel.sitesOf contents)) base.inferred written ()
      known)
    (enactsLater : other.Enacts [] (other.checkScript (TopLevel.sitesOf (contents ++ [added])))
      other.inferred writtenLater () laterKnown) :
    ∃ more, writtenLater = written ++ more ∧ (∀ remark ∈ written, remark.Shows home) ∧
      other.Enacts []
        (other.checkScript (added.sites (TopLevel.classifiersOf (contents ++ [added])))) known more
          () laterKnown := by
  have areLater : ∀ site ∈
      contents.flatMap (TopLevel.sites (TopLevel.classifiersOf (contents ++ [added]))),
        site ∈ TopLevel.sitesOf (contents ++ [added]) := by
    intro site isSite
    rw [TopLevel.sitesOf_append]
    exact List.mem_append_left _ isSite
  have nothing : KnownFrom home base.inferred := by
    intro node type isKnown
    rw [extended.laid.inferred] at isKnown
    cases isKnown
  obtain ⟨twin, -, -, shows⟩ := enacts.twin extended.mirrors
    (extended.twin_checkScript extended.unrelated.sites_sameApart (fun _ => id) areLater) nothing
  rw [extended.laid.inferred, ← extended.laidLater.inferred] at twin
  rw [TopLevel.sitesOf_append, checkScript_append] at enactsLater
  obtain ⟨_, _, earlier, more, first, goesOn, rfl⟩ := enactsLater.exists_of_bind
  obtain ⟨rfl, -, rfl⟩ := first.unique twin
  exact ⟨more, rfl, shows, goesOn⟩

/-- Of the old nodes the same types are known in the end. -/
theorem get?_inferred_eq {known : InferredTypes} (continues : other.Continues later)
    (keeps : ∀ node type, known.get? node = some type → later.inferred.get? node = some type)
    (settled : ∀ node, base.isOpenType node = true → known.get? node ≠ none) {node : NodeRef}
    (isHome : home node) : known.get? node = later.inferred.get? node := by
  cases isKnown : known.get? node with
  | some type => exact (keeps node type isKnown).symm
  | none =>
      symm
      refine Option.eq_none_iff_forall_ne_some.mpr fun type isKnownLater => ?_
      have isOpen := continues.inferred node (Option.isSome_iff_exists.mpr ⟨type, isKnownLater⟩)
      exact settled node ((extended.isOpenType_eq isHome).trans isOpen) isKnown

theorem exists_preserved
    (enacted : base.Enacted [] (base.checkScript (TopLevel.sitesOf contents)) base () after)
    (enactedLater : other.Enacted []
      (other.checkScript (TopLevel.sitesOf (contents ++ [added]))) other () later)
    (continues : other.Continues later)
    (settled : ∀ node, base.isOpenType node = true → after.inferred.get? node ≠ none) :
    ∃ total laterTotal, Unfolds contents base after total ∧
      Unfolds (contents ++ [added]) other later laterTotal ∧
        Preserved home added after later total laterTotal := by
  obtain ⟨written, enacts, journal⟩ := enacted
  obtain ⟨writtenLater, enactsLater, journalLater⟩ := enactedLater
  obtain ⟨more, rfl, shows, goesOn⟩ := extended.exists_more enacts enactsLater
  obtain ⟨heads, permHeads, filledHeads⟩ := extended.exists_heads
  have filledMore := extended.filled_checks_le goesOn fun node isOpen =>
    not_not.mp fun unknown => settled node isOpen (Table.get?_eq_none_iff.mpr unknown)
  refine ⟨_, _, extended.laid.unfolds_of_enacts enacts journal,
    extended.laidLater.unfolds_of_enacts enactsLater journalLater, ?_⟩
  exact
    { sublist := extended.unrelated.remarks_sublist.append (List.sublist_append_left _ _)
      shows := List.forall_mem_append.mpr
        ⟨TopLevel.shows_remarks extended.unrelated.within, shows⟩
      known := fun _ =>
        extended.get?_inferred_eq continues (fun _ _ => goesOn.get?_of_known) settled
      extra := by
        refine ⟨heads ++ more, ?_, ?_⟩
        · refine (permHeads.append_right _).trans ?_
          rw [List.append_assoc, List.append_assoc]
          exact (List.perm_append_comm_assoc _ _ _).append_left _
        · rw [Remark.filled_append, filledHeads, added.filled_eq]
          exact fun slot => add_le_add_right (filledMore slot) _ }

end Extended

end ResolutionState

end Gloss
