import Gloss.Proofs.Order.Slots
import Gloss.Proofs.Order.Views

/-!
# Going through the members

When a file is declared its members are checked one after the other.  Together the
checks play one script, whatever is declared in their bodies on the way.
-/

namespace Gloss

open Resolver Gloss.Tree ResolutionState

/-! ### What the members are declared as -/

namespace Tree

variable {classifiers : Classifiers} {level : List (Symbol Descriptor)}

/-- A member among others is declared on some level. -/
theorem Member.exists_subset_remarksOfAll {owner : Option ClassDescriptor} {members : List Member}
    {member : Member} (isMember : member ∈ members) :
    ∃ around, member.remarks owner classifiers around ⊆
      Member.remarksOfAll owner classifiers level members := by
  induction members generalizing level with
  | nil => cases isMember
  | cons first rest ih =>
      rcases List.mem_cons.mp isMember with rfl | inRest
      · exact ⟨level, List.subset_append_left _ _⟩
      · obtain ⟨around, included⟩ := ih inRest
        exact ⟨around, List.Subset.trans included (List.subset_append_right _ _)⟩

namespace TopLevel

/-- Every member of a file is declared on some level. -/
theorem exists_subset_contentRemarks {contents : List TopLevel} {site : Site}
    (isSite : site ∈ contents.flatMap (sites classifiers)) :
    ∃ around, site.member.remarks site.owner site.classifiers around ⊆
      contentRemarks classifiers level contents := by
  induction contents generalizing level with
  | nil => cases isSite
  | cons first rest ih =>
      rw [List.flatMap_cons, List.mem_append] at isSite
      cases first with
      | «class» declaration =>
          rcases isSite with isFirst | inRest
          · obtain ⟨member, isMember, rfl⟩ := List.mem_map.mp isFirst
            obtain ⟨around, included⟩ := Member.exists_subset_remarksOfAll isMember
            exact ⟨around, List.Subset.trans included (List.Subset.trans
              (List.subset_append_right _ _) (List.subset_append_left _ _))⟩
          · obtain ⟨around, included⟩ := ih inRest
            exact ⟨around, List.Subset.trans included (List.subset_append_right _ _)⟩
      | member declaration =>
          rcases isSite with isFirst | inRest
          · cases List.mem_singleton.mp isFirst
            exact ⟨level, List.subset_append_left _ _⟩
          · obtain ⟨around, included⟩ := ih inRest
            exact ⟨around, List.Subset.trans included (List.subset_append_right _ _)⟩

/-- What the head of a member writes down is written down for the file. -/
theorem exists_subset_remarks {contents : List TopLevel} {site : Site}
    (isSite : site ∈ sitesOf contents) :
    ∃ around, site.member.remarks site.owner site.classifiers around ⊆ remarks contents := by
  obtain ⟨around, included⟩ := exists_subset_contentRemarks isSite
  exact ⟨around, List.Subset.trans included (List.subset_append_right _ _)⟩

/-- A member is declared at its own node. -/
theorem declared_mem_remarks {contents : List TopLevel} {site : Site}
    (isSite : site ∈ sitesOf contents) :
    .declared site.member.node.ref site.introduction.symbol.descriptor ∈ remarks contents := by
  have sameNode : site.introduction.node = site.member.node.ref := by
    rw [Site.introduction]
    cases site.member <;> rfl
  obtain ⟨around, included⟩ := exists_subset_remarks isSite
  refine sameNode ▸ included (List.mem_append_right _ ?_)
  exact List.mem_append_right _ (List.mem_singleton_self _)

theorem filled_remarks (contents : List TopLevel) :
    Remark.filled (remarks contents) =
      (contents.map headFilled).sum + (contents.map contentFilled).sum := by
  rw [remarks, Remark.filled_append, filled_classRemarks, filled_contentRemarks]

/-- Declarations fill their heads, and their bodies are filled later. -/
theorem sum_filled (contents : List TopLevel) :
    (contents.map fun declared => declared.node.filled).sum =
      Remark.filled (remarks contents) +
        ((contents.flatMap members).map Member.bodyFilled).sum := by
  rw [filled_remarks, sum_map_members, ← List.sum_map_add, ← List.sum_map_add]
  exact congrArg List.sum (List.map_congr_left fun declared _ => declared.filled_eq)

end TopLevel

end Tree

namespace ResolutionState

variable {contents : List TopLevel} {base state : ResolutionState} {site : Site}

/-- Members are declared once the file is. -/
theorem Laid.get?_declarations (laid : base.Laid contents)
    (distinct : TopLevel.Distinct contents) (isSite : site ∈ TopLevel.sitesOf contents) :
    base.declarations.get? site.member.node.ref = some site.introduction.symbol.descriptor := by
  have once : (Remark.nodes .declaration (TopLevel.remarks contents)).Nodup := by
    rw [TopLevel.Distinct, TopLevel.sum_filled] at distinct
    exact Multiset.coe_nodup.mp (Multiset.nodup_of_le (Multiset.le_add_right _ _) distinct)
  have known := congrArg Journal.declarations laid.journal
  change base.declarations = _ at known
  rw [known, Journal.get?_declarations_iff once]
  exact TopLevel.declared_mem_remarks isSite

/-! ### The script of all checks -/

end ResolutionState

/-- The check of a member, for the type of no declaration. -/
def Surroundings.checkMember (around : Surroundings) (site : Site) :
    Script around.isOpen Unit :=
  match site.member with
  | .function declared =>
      around.checkFunction declared (declared.describe site.owner site.classifiers)
  | .property declared =>
      around.checkProperty declared (.property (declared.describe site.owner site.classifiers))

/-- The node of no declaration. -/
def noDeclaration : NodeRef := ⟨.file, ⟨0, 0⟩⟩

namespace ResolutionState

variable {contents : List TopLevel} {base state : ResolutionState} {site : Site}
  {sites : List Site}

/-- What is seen where the body of a member is checked. -/
def aroundSite (base : ResolutionState) (site : Site) : Surroundings :=
  base.around ((base.scopeOf? site.member).getD fileScope) noDeclaration

/-- The check of a member that lies at a site. -/
def siteScript (base : ResolutionState) (site : Site) : Script base.isOpenType Unit :=
  (base.aroundSite site).checkMember site

/-- The checks of members one after the other. -/
def checkScript (base : ResolutionState) : List Site → Script base.isOpenType Unit
  | [] => return ()
  | site :: rest => do
      base.siteScript site
      checkScript base rest

theorem Laid.aroundSite_eq (laid : base.Laid contents)
    (isSite : site ∈ TopLevel.sitesOf contents) :
    base.aroundSite site = base.view contents site noDeclaration := by
  obtain ⟨scope, isScope, reaches, -⟩ := laid.placed site isSite
  rw [aroundSite, isScope]
  exact laid.around_eq reaches noDeclaration

theorem Laid.get?_deferred_noDeclaration (laid : base.Laid contents) :
    base.deferred.get? noDeclaration = none := by
  refine laid.notDeferred noDeclaration fun site _ same => ?_
  have kind := congrArg NodeRef.kind same
  revert kind
  cases site.member <;> exact nofun

/-- Members can be checked as long as they are declared. -/
theorem Laid.readyMember (laid : base.Laid contents) (isSite : site ∈ TopLevel.sitesOf contents)
    (continues : base.Continues state)
    (found : state.declarations.get? site.member.node.ref =
      some site.introduction.symbol.descriptor) : state.ReadyMember site.member := by
  obtain ⟨scope, isScope, -, -⟩ := laid.placed site isSite
  obtain ⟨member, owner, classifiers, levels⟩ := site
  cases member with
  | function declared =>
      refine ⟨⟨_, found⟩, ?_⟩
      rw [continues.functionScopes, show base.functionScopes.get? _ = _ from isScope]
      rfl
  | property declared =>
      refine ⟨⟨_, found⟩, ?_⟩
      rw [continues.initializerScopes, show base.initializerScopes.get? _ = _ from isScope]
      rfl

/-- Only bodies that decide no type are checked. -/
theorem Site.isOwn_of_checkedBody? (isChecked : site.member.checkedBody?.isSome) (own : NodeRef) :
    site.IsOwn own := by
  intro function isFunction isOpen
  rw [isFunction] at isChecked
  cases written : function.returnType <;> cases body : function.body <;>
    simp [Tree.Member.checkedBody?, Function.describe, describeReturnType, written, body]
      at isChecked isOpen

/-- Checking a member plays its script. -/
theorem Laid.played_checkMember (laid : base.Laid contents)
    (isSite : site ∈ TopLevel.sitesOf contents) (continues : base.Continues state)
    (found : state.declarations.get? site.member.node.ref =
      some site.introduction.symbol.descriptor) :
    base.Played (base.siteScript site) state () ((checkMembers [site.member]).run state).2 ∧
      base.Continues ((checkMembers [site.member]).run state).2 := by
  obtain ⟨scope, isScope, reaches, -⟩ := laid.placed site isSite
  have owned (isChecked : site.member.checkedBody?.isSome) :
      (base.around scope noDeclaration).Owned := by
    rw [laid.around_eq reaches]
    exact laid.owned_view isSite (Site.isOwn_of_checkedBody? isChecked noDeclaration)
  have seen : (base.scopeOf? site.member).getD fileScope = scope := by
    rw [isScope]
    rfl
  unfold siteScript aroundSite
  rw [seen]
  obtain ⟨member, owner, classifiers, levels⟩ := site
  cases member with
  | function declared =>
      exact played_checkFunction laid.postpones laid.get?_deferred_noDeclaration continues declared
        found isScope reaches.inside owned
  | property declared =>
      exact played_checkProperty laid.postpones laid.get?_deferred_noDeclaration continues declared
        found isScope reaches.inside owned

end ResolutionState

/-! ### All checks -/

section Checks

variable {contents : List TopLevel} {base state : ResolutionState} {sites : List Site}

theorem checkMembers_cons (first : Member) (rest : List Member) :
    checkMembers (first :: rest) = checkMembers [first] >>= fun _ => checkMembers rest := by
  cases first <;> rfl

theorem checkMembers_append (first second : List Member) :
    checkMembers (first ++ second) = checkMembers first >>= fun _ => checkMembers second := by
  induction first with
  | nil => rfl
  | cons member rest ih =>
      rw [List.cons_append, checkMembers_cons, ih, checkMembers_cons member rest, bind_assoc]

theorem checkContents_eq (contents : List TopLevel) :
    checkContents contents = checkMembers (contents.flatMap TopLevel.members) := by
  induction contents with
  | nil => rfl
  | cons first rest ih =>
      rw [checkContents_cons, ih, List.flatMap_cons, checkMembers_append]

/-- Checking the members of a file plays their scripts one after the other. -/
theorem takes_checkSites (laid : base.Laid contents) (continues : base.Continues state)
    (inFile : ∀ site ∈ sites, site ∈ TopLevel.sitesOf contents)
    (found : ∀ site ∈ sites, state.declarations.get? site.member.node.ref =
      some site.introduction.symbol.descriptor) :
    Takes state (checkMembers (sites.map Site.member))
      (sites.map fun site => Node.declarationsOf? site.member.checkedBody?).sum 0
      (sites.map fun site => Node.referencesOf? site.member.checkedBody?).sum
      fun _ after =>
        base.Played (base.checkScript sites) state () after ∧ base.Continues after := by
  induction sites generalizing state with
  | nil => exact .of_pure ⟨.of_scopes state state.scopes continues, continues⟩
  | cons site rest ih =>
      obtain ⟨isSite, restInFile⟩ := List.forall_mem_cons.mp inFile
      obtain ⟨foundFirst, foundRest⟩ := List.forall_mem_cons.mp found
      have ready : state.ReadyMember site.member :=
        laid.readyMember isSite continues foundFirst
      have takesFirst : Takes state (checkMembers [site.member])
          (Node.declarationsOf? site.member.checkedBody?) 0
          (Node.referencesOf? site.member.checkedBody?) fun _ after =>
            base.Played (base.siteScript site) state () after ∧ base.Continues after := by
        intro grounded distinct
        have takes := takes_checkMembers [site.member] (List.forall_mem_singleton.mpr ready)
        rw [List.map_singleton, List.sum_singleton, List.map_singleton, List.sum_singleton] at takes
        exact ⟨(takes grounded distinct).1, laid.played_checkMember isSite continues foundFirst⟩
      rw [List.map_cons, checkMembers_cons, List.map_cons, List.sum_cons, List.map_cons,
        List.sum_cons]
      apply Takes.cast _ rfl (zero_add 0) rfl
      apply takesFirst.bind
      rintro _ middle advances ⟨played, continuesMiddle⟩
      have foundMiddle : ∀ other ∈ rest, middle.declarations.get? other.member.node.ref =
          some other.introduction.symbol.descriptor :=
        fun other inRest => advances.keeps.declarations _ _ (foundRest other inRest)
      exact Takes.weaken (ih continuesMiddle restInFile foundMiddle)
        fun _ _ ⟨later, continuesLater⟩ => ⟨played.bind later, continuesLater⟩

end Checks

end Gloss
