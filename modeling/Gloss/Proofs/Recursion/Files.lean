import Gloss.Proofs.Order.Views
import Gloss.Proofs.Order.Courses
import Gloss.Proofs.Recursion.Questions
import Gloss.Proofs.References.Diagnostics
import Gloss.Proofs.Typing.Recording

/-!
# Open types in files

Every name that can be seen in a file means a declaration of the file or of the library.
Where the type of the declaration is left open, it is that of a member of the file.

While a file is resolved the bodies that decide the types of members are inferred.  All
that is written down for this stays, so the references in a body and the questions that it
asked can be compared when everything is resolved.
-/

namespace Gloss

open Gloss.Tree ResolutionState

namespace Tree.Member

variable {owner : Option ClassDescriptor} {classifiers : Classifiers}

theorem name_introduction (member : Member) :
    (member.introduction owner classifiers).symbol.name = member.name := by
  cases member <;> rfl

theorem name_descriptor_introduction (member : Member) :
    (member.introduction owner classifiers).symbol.descriptor.name = member.name := by
  cases member <;> rfl

theorem declaration_introduction (member : Member) :
    (member.introduction owner classifiers).symbol.descriptor.declaration =
      some member.node.ref := by
  cases member <;> rfl

/-- A member with a body or an initializer that decides its type leaves its type open. -/
theorem leavesOpen_introduction {member : Member} (isOpen : member.openBody?.isSome) :
    (member.introduction owner classifiers).symbol.descriptor.LeavesOpen := by
  cases member with
  | function declared =>
      change Resolver.describeReturnType _ declared = none
      revert isOpen
      cases written : declared.returnType <;> cases body : declared.body <;>
        simp [openBody?, Resolver.describeReturnType, written, body]
  | property declared =>
      change declared.describeType _ = none
      revert isOpen
      cases written : declared.type <;> cases initialized : declared.initializer <;>
        simp [openBody?, Property.describeType, written, initialized]

end Tree.Member

namespace Visible

variable {contents : List TopLevel} {site : Site} {symbol : Symbol Descriptor}

/-- A symbol stands for a declaration, and one that stands for a value for a variable. -/
theorem declarative (visible : Visible contents site symbol) :
    symbol.descriptor.original = symbol.descriptor ∧
      (symbol.kind.isValue = true → ∃ holder, symbol.descriptor = .variable holder) := by
  cases visible with
  | @member other isOther =>
      obtain ⟨declared, owner, classifiers, levels⟩ := other
      cases declared with
      | function declared => exact ⟨rfl, nofun⟩
      | property declared => exact ⟨rfl, fun _ => ⟨_, rfl⟩⟩
  | property declared =>
      obtain ⟨binding, -, rfl⟩ := Option.map_eq_some_iff.mp declared
      exact ⟨rfl, fun _ => ⟨_, rfl⟩⟩
  | constructorParameter | valueParameter => exact ⟨rfl, fun _ => ⟨_, rfl⟩⟩
  | typeParameter | «class» => exact ⟨rfl, nofun⟩
  | library provided =>
      refine ⟨(Library.undeclared_descriptors _
        (mem_library_of_mem_librarySymbols provided)).1, fun isValue => ?_⟩
      rcases List.mem_append.mp provided with isClass | isFunction
      · obtain ⟨entry, -, rfl⟩ := List.mem_map.mp isClass
        cases isValue
      · obtain ⟨function, -, rfl⟩ := List.mem_map.mp isFunction
        cases isValue

/-- A symbol whose type is left open stands for a member of the file. -/
theorem exists_site (visible : Visible contents site symbol)
    (leavesOpen : symbol.descriptor.LeavesOpen) {node : NodeRef}
    (declared : symbol.descriptor.declaration = some node) :
    ∃ other ∈ TopLevel.sitesOf contents, other.member.node.ref = node ∧
      symbol = other.introduction.symbol := by
  cases visible with
  | @member other isOther =>
      refine ⟨other, isOther, ?_, rfl⟩
      exact Option.some.inj (other.member.declaration_introduction.symm.trans declared)
  | property isProperty =>
      obtain ⟨binding, -, rfl⟩ := Option.map_eq_some_iff.mp isProperty
      cases leavesOpen
  | library provided =>
      rw [(Library.undeclared_descriptors _ (mem_library_of_mem_librarySymbols provided)).2]
        at declared
      cases declared
  | constructorParameter | typeParameter | valueParameter | «class» => cases leavesOpen

end Visible

namespace ResolutionState

variable {contents : List TopLevel} {base : ResolutionState} {site : Site} {own : NodeRef}
  {word : String} {descriptor : Descriptor}

/-- What a name can mean is what some symbol says, under its own name. -/
theorem Laid.exists_visible (laid : base.Laid contents)
    (isSite : site ∈ TopLevel.sitesOf contents)
    (offers : (base.view contents site own).Offers word descriptor) :
    (∃ symbol, Visible contents site symbol ∧ symbol.descriptor = descriptor ∧
      (symbol.name = word ∨ descriptor.name = word)) ∨
      descriptor ∈ Library.descriptors ∧ descriptor.name = word := by
  cases offers with
  | @symbol level symbol isLevel isSymbol =>
      exact .inl ⟨symbol, .of_mem isSite level isLevel symbol isSymbol, rfl, .inl rfl⟩
  | @member constructor entry member found isMember =>
      rcases laid.declared_or_provided found isMember with
        ⟨_, isClass, introduction, isIntroduced, rfl⟩ | ⟨provided, isClass, isMember⟩
      · exact .inl ⟨introduction.symbol, .of_mem_memberIntroductions isClass isIntroduced, rfl,
          .inr rfl⟩
      · exact .inr ⟨Library.mem_descriptors_of_mem_members isClass isMember, rfl⟩
  | universal isMember =>
      have isClass : Library.anyClass ∈ Library.classes := List.mem_cons_self
      exact .inr ⟨Library.mem_descriptors_of_mem_members isClass isMember, rfl⟩

/-- The names that are seen in the body of a member mean declarations. -/
theorem Laid.declarative_view (laid : base.Laid contents)
    (isSite : site ∈ TopLevel.sitesOf contents) (isOwn : site.IsOwn own) :
    (base.view contents site own).Declarative where
  owned := laid.owned_view isSite isOwn
  offered word descriptor offers := by
    rcases laid.exists_visible isSite offers with ⟨symbol, visible, rfl, -⟩ | ⟨provided, -⟩
    · exact visible.declarative.1
    · exact (Library.undeclared_descriptors descriptor provided).1
  values level isLevel symbol isSymbol :=
    (Visible.of_mem isSite level isLevel symbol isSymbol).declarative.2

/-- A name that can mean a declaration with an open type is the name of that declaration. -/
theorem Laid.exists_site_of_concerns (laid : base.Laid contents)
    (isSite : site ∈ TopLevel.sitesOf contents) {node : NodeRef}
    (concerns : (base.view contents site own).Concerns word node) :
    ∃ other ∈ TopLevel.sitesOf contents, other.member.node.ref = node ∧
      other.member.name = word := by
  obtain ⟨descriptor, offers, leavesOpen, declared⟩ := concerns
  rcases laid.exists_visible isSite offers with ⟨symbol, visible, rfl, named⟩ | ⟨provided, -⟩
  · obtain ⟨other, isOther, same, rfl⟩ := visible.exists_site leavesOpen declared
    refine ⟨other, isOther, same, ?_⟩
    rcases named with rfl | rfl
    · exact other.member.name_introduction.symm
    · exact other.member.name_descriptor_introduction.symm
  · rw [(Library.undeclared_descriptors descriptor provided).2] at declared
    cases declared

end ResolutionState

/-! ### Reports -/

namespace Remark

variable {reference : NodeRef} {remarks : List Remark}

theorem plain_problem {found : Diagnostic} (other : found.problem.isRecursion = false) :
    (problem found).Plain := by
  rintro _ name ⟨⟩ isRecursive
  rw [isRecursive] at other
  cases other

theorem plain_of_noProblem {remark : Remark} (noProblem : remark.problem? = none) :
    remark.Plain := by
  rintro found name rfl
  cases noProblem

theorem Answers.plain (answers : Answers reference remarks) : ∀ remark ∈ remarks, remark.Plain := by
  have missing {found : Problem} (isMissing : found.isMissing = true) :
      found.isRecursion = false := by
    cases found <;> first | rfl | cases isMissing
  have ambiguity {found : Problem} (isAmbiguity : found.isAmbiguity = true) :
      found.isRecursion = false := by
    cases found <;> first | rfl | cases isAmbiguity
  have meaning (meant : Meaning Descriptor) : (Remark.meaning reference meant).Plain :=
    plain_of_noProblem rfl
  cases answers with
  | target => simp [meaning]
  | misused target isOther => simp [meaning, plain_problem, isOther.2.2]
  | unresolved isMissing | inapplicable isMissing =>
      simp [meaning, plain_problem, missing isMissing]
  | ambiguous candidates isAmbiguity => simp [meaning, plain_problem, ambiguity isAmbiguity]

theorem lenient_plain : Lenient fun remarks => ∀ remark ∈ remarks, remark.Plain where
  nil := List.forall_mem_nil _
  append plain later := List.forall_mem_append.mpr ⟨plain, later⟩
  perm perm plain remark isWritten := plain remark (perm.mem_iff.mpr isWritten)
  aside remark isAside := by
    refine List.forall_mem_singleton.mpr ?_
    cases remark with
    | problem found => exact plain_problem isAside.2.2
    | _ => exact plain_of_noProblem rfl
  answers _ answers := answers.plain

/-- A reference has one meaning only. -/
theorem eq_of_meaning_mem (distinct : (nodes .meaning remarks).Nodup)
    {meant other : Meaning Descriptor}
    (isWritten : .meaning reference meant ∈ remarks)
    (otherWritten : .meaning reference other ∈ remarks) : meant = other := by
  have found := (Journal.lookupIn_meaning?_iff distinct).mpr isWritten
  have otherFound := (Journal.lookupIn_meaning?_iff distinct).mpr otherWritten
  exact Option.some.inj (found.symm.trans otherFound)

end Remark

namespace ResolutionState

variable {contents : List TopLevel} {base after : ResolutionState} {total : List Remark}
  {site : Site} {body : Expr} {node : NodeRef}

theorem permitsMembers_plain (base : ResolutionState) (contents : List TopLevel) :
    base.PermitsMembers contents fun remarks => ∀ remark ∈ remarks, remark.Plain :=
  base.permitsMembers_of_forall _ fun around _ =>
    ⟨fun name _ => (around.answers_valueRemarks name).plain, fun _ _ _ _ answers => answers.plain⟩

namespace Unfolds

variable (unfolds : Unfolds contents base after total)

include unfolds

/-- Only where questions take their course can a declaration be found to depend on itself. -/
theorem exists_course :
    ∃ replies remarks, base.Course [] replies .empty remarks after.inferred ∧ remarks ⊆ total ∧
      ∀ remark ∈ total, ¬ remark.Plain → remark ∈ remarks := by
  obtain ⟨replies, own, remarks, trail, course, perm⟩ := unfolds.course
  refine ⟨replies, remarks, course, ?_, fun remark isWritten notPlain => ?_⟩
  · intro remark isWritten
    exact perm.mem_iff.mpr (List.mem_append_right _ (List.mem_append_right _ isWritten))
  · have keeps := unfolds.laid.keeps_checkScript Remark.lenient_plain
      (base.permitsMembers_plain contents) (fun _ => id) own () trail.runs
    rcases List.mem_append.mp (perm.mem_iff.mp isWritten) with isHead | isLater
    · exact absurd (TopLevel.holds_remarks Remark.lenient_plain contents remark isHead) notPlain
    · exact (List.mem_append.mp isLater).resolve_left fun isOwn =>
        notPlain (keeps.2 remark isOwn)

/-- A declaration that is found to depend on itself asks for its own type in some steps. -/
theorem transGen_asks {name : String} (isReported : recursion name node ∈ total) :
    Relation.TransGen base.Asks node node := by
  obtain ⟨replies, remarks, course, -, isCourse⟩ := unfolds.exists_course
  refine course.transGen_asks ?_ (List.forall_mem_nil _)
    (isCourse _ isReported fun plain => plain _ name rfl rfl)
  intro other script asked own type isBody trail
  exact (unfolds.laid.keeps_body Remark.lenient_plain (base.permitsMembers_plain contents) isBody
    _ _ trail.runs).2

end Unfolds

/-! ### Bodies -/

/-- The body of an open member is inferred from what is seen there. -/
theorem Laid.trail_infer (laid : base.Laid contents) (isSite : site ∈ TopLevel.sitesOf contents)
    (isOpen : site.member.openBody? = some body) {script : Script base.isOpenType NominalType}
    (isBody : base.body? site.member.node.ref = some script) {asked : Replies} {own : List Remark}
    {type : NominalType} (trail : script.Trail asked own type) :
    ((base.view contents site site.member.node.ref).infer body).Trail asked own type := by
  obtain ⟨scope, -, reaches, put⟩ := laid.placed site isSite
  obtain ⟨deferred, found, rfl⟩ := Option.map_eq_some_iff.mp isBody
  rw [put, isOpen] at found
  cases found
  rw [← laid.around_eq reaches]
  exact trail

/-- An open type was asked for just by names that can mean it. -/
theorem Laid.accounts (laid : base.Laid contents) (isSite : site ∈ TopLevel.sitesOf contents)
    (isOpen : site.member.openBody? = some body) {script : Script base.isOpenType NominalType}
    (isBody : base.body? site.member.node.ref = some script) {asked : Replies} {own : List Remark}
    {type : NominalType} (trail : script.Trail asked own type) :
    (base.view contents site site.member.node.ref).Accounts body.node.Mentions [] asked own :=
  Surroundings.accountable_infer (laid.declarative_view isSite site.isOwn_ref) body (fun _ => id)
    asked own type (laid.trail_infer isSite isOpen isBody trail)

/-- The type of an open member is put off. -/
theorem Laid.isOpenType (laid : base.Laid contents) (isSite : site ∈ TopLevel.sitesOf contents)
    (isOpen : site.member.openBody?.isSome) : base.isOpenType site.member.node.ref = true := by
  obtain ⟨scope, -, -, put⟩ := laid.placed site isSite
  rw [ResolutionState.isOpenType, put, Option.isSome_map]
  exact isOpen

/-- Whatever the body of an open member asks for, it mentions by name. -/
theorem Laid.exists_site_of_asks (laid : base.Laid contents) {other : NodeRef}
    (asks : base.Asks node other) :
    ∃ site ∈ TopLevel.sitesOf contents, site.member.node.ref = node ∧
      ∃ body, site.member.openBody? = some body ∧ ∃ used ∈ TopLevel.sitesOf contents,
        used.member.node.ref = other ∧ used.member.openBody?.isSome ∧
          body.node.Mentions used.member.name := by
  obtain ⟨script, asked, own, type, isBody, trail, reply, isReply, rfl⟩ := asks
  obtain ⟨deferred, found, -⟩ := Option.map_eq_some_iff.mp isBody
  obtain ⟨site, isSite, rfl, isOpen, -⟩ := laid.exists_site found
  obtain ⟨word, mentions, concerns⟩ :=
    (laid.accounts isSite isOpen isBody trail).asked _ (List.mem_map_of_mem isReply)
  obtain ⟨used, isUsed, same, rfl⟩ := laid.exists_site_of_concerns isSite concerns
  refine ⟨site, isSite, rfl, deferred.body, isOpen, used, isUsed, same, ?_, mentions⟩
  obtain ⟨scope, -, -, put⟩ := laid.placed used isUsed
  have putOff := trail.asks_isOpen reply isReply
  rwa [ResolutionState.isOpenType, ← same, put, Option.isSome_map] at putOff

/-- What the inference of an open body writes down about the references in it. -/
theorem Laid.exists_meaning (laid : base.Laid contents) (isSite : site ∈ TopLevel.sitesOf contents)
    (isOpen : site.member.openBody? = some body) {script : Script base.isOpenType NominalType}
    (isBody : base.body? site.member.node.ref = some script) {asked : Replies} {own : List Remark}
    {type : NominalType} (trail : script.Trail asked own type) {below : Node}
    (isBelow : below ∈ body.node.subtree) (isReference : below.kind.isReference = true) :
    ∃ meant, .meaning below.ref meant ∈ own := by
  have permits : base.PermitsMembers contents fun _ => True :=
    base.permitsMembers_of_forall _ fun _ _ => ⟨fun _ _ => trivial, fun _ _ _ _ _ => trivial⟩
  obtain ⟨filled, -⟩ := laid.keeps_body tolerant_true.toLenient permits isBody _ _ trail.runs
  rw [laid.openFilled_eq isSite, isOpen] at filled
  have isFilled : below.ref ∈ Remark.nodes .meaning own := by
    rw [← Multiset.mem_coe]
    change _ ∈ Remark.filled own .meaning
    rw [filled]
    exact Multiset.mem_coe.mpr (List.mem_map_of_mem (List.mem_filter.mpr ⟨isBelow, isReference⟩))
  obtain ⟨remark, isWritten, isAbout⟩ := List.mem_filterMap.mp isFilled
  cases remark with
  | meaning reference meant =>
      cases isAbout
      exact ⟨meant, isWritten⟩
  | _ => cases isAbout

namespace Unfolds

variable (unfolds : Unfolds contents base after total)

include unfolds

/-- What is known of an open member in the end is what the inference of its body came to. -/
theorem exists_runs (isSite : site ∈ TopLevel.sitesOf contents)
    (isOpen : site.member.openBody? = some body) {type : NominalType}
    (known : after.inferred.get? site.member.node.ref = some type) :
    ∃ own, ((base.view contents site site.member.node.ref).infer body).Runs own type ∧
      own ⊆ total := by
  obtain ⟨replies, remarks, course, within, -⟩ := unfolds.exists_course
  obtain ⟨asked, script, own, isBody, trail, included⟩ :=
    course.infers_of_idle rfl List.not_mem_nil known
  exact ⟨own, (unfolds.laid.trail_infer isSite isOpen isBody trail).runs,
    List.Subset.trans included within⟩

/-- Unless an open member is reported, it became known after each open member that a
reference in its body means. -/
theorem reported_or_idxOf_lt (once : TopLevel.FillsOnce contents)
    (isSite : site ∈ TopLevel.sitesOf contents) (isOpen : site.member.openBody? = some body)
    (known : site.member.node.ref ∈ after.inferred.keys) {other : Site}
    (isOther : other ∈ TopLevel.sitesOf contents) (otherOpen : other.member.openBody?.isSome)
    {below : Node} (isBelow : below ∈ body.node.subtree)
    (isReference : below.kind.isReference = true) {target : Descriptor}
    (hasTarget : .meaning below.ref (.target target) ∈ total)
    (means : target.original = other.introduction.symbol.descriptor) :
    (∃ name, recursion name site.member.node.ref ∈ total) ∨
      after.inferred.keys.idxOf other.member.node.ref <
        after.inferred.keys.idxOf site.member.node.ref := by
  obtain ⟨replies, remarks, course, within, -⟩ := unfolds.exists_course
  refine (course.reported_or_infers List.not_mem_nil known).imp
    (fun ⟨name, isReported⟩ => ⟨name, within isReported⟩) ?_
  rintro ⟨asked, type, ⟨script, own, isBody, trail, included⟩, earlier⟩
  obtain ⟨meant, isWritten⟩ :=
    unfolds.laid.exists_meaning isSite isOpen isBody trail isBelow isReference
  have same := Remark.eq_of_meaning_mem (unfolds.nodup_total once .meaning)
    (within (included isWritten)) hasTarget
  -- The inference that gave the reference its target asked for the type of that target.
  have heeds := (unfolds.laid.accounts isSite isOpen isBody trail).heeded _ isWritten target
    (by rw [same]; rfl)
  rw [means] at heeds
  have isAsked := heeds (other.member.leavesOpen_introduction otherOpen) _
    other.member.declaration_introduction (unfolds.laid.isOpenType isOther otherOpen)
  obtain ⟨reply, isReply, isOther⟩ := List.mem_map.mp isAsked
  exact isOther ▸ earlier reply isReply

end Unfolds

end ResolutionState

end Gloss
