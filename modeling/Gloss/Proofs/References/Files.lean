import Gloss.Proofs.Order
import Gloss.Proofs.References.Walks
import Gloss.Proofs.Resolution.Outcomes

/-!
# References in files

What is written down while a file is resolved are the remarks on the heads of its
declarations, those of one run of each check, and those of one run of each body whose
type was asked for.  So what answers keep to is kept to in the whole file, and no slot is
filled twice.
-/

namespace Gloss

open Gloss.Tree ResolutionState

/-! ### Heads -/

section Heads

variable {holds : List Remark → Prop} (lenient : Remark.Lenient holds)

include lenient

namespace Introduction

theorem holds_clash (introduction : Introduction) (level : List (Symbol Descriptor)) :
    holds (introduction.clash level) := by
  unfold clash
  split
  · exact lenient.aside (.problem _) ⟨rfl, rfl, rfl⟩
  · exact lenient.nil

theorem holds_declared (introduction : Introduction) : holds [introduction.declared] :=
  lenient.aside _ trivial

theorem holds_remarksOfAll (introductions : List Introduction) (level : List (Symbol Descriptor)) :
    holds (remarksOfAll level introductions) := by
  induction introductions generalizing level with
  | nil => exact lenient.nil
  | cons first rest ih =>
      exact lenient.append (first.holds_clash lenient level)
        (lenient.append (first.holds_declared lenient) (ih _))

end Introduction

namespace Tree

theorem holds_parameterRemarks (classifiers : Classifiers) (function : FunctionDescriptor)
    (described : List (ValueParameter × ParameterDescriptor)) (level : List (Symbol Descriptor)) :
    holds (parameterRemarks classifiers function level described) := by
  induction described generalizing level with
  | nil => exact lenient.nil
  | cons first rest ih =>
      exact lenient.append (first.1.type.holds_remarks lenient classifiers)
        (lenient.append ((parameterIntroduction function first).holds_clash lenient level)
          (lenient.append ((parameterIntroduction function first).holds_declared lenient) (ih _)))

theorem Property.holds_missingType (property : Property) : holds property.missingType := by
  unfold missingType
  split
  · exact lenient.aside (.problem _) ⟨rfl, rfl, rfl⟩
  · exact lenient.nil

namespace Member

variable (owner : Option ClassDescriptor) (classifiers : Classifiers)

theorem holds_headRemarks (member : Member) : holds (member.headRemarks owner classifiers) := by
  cases member with
  | function declared =>
      exact lenient.append (Introduction.holds_remarksOfAll lenient _ _)
        (lenient.append (holds_parameterRemarks lenient _ _ _ _)
          (TypeRef.holds_remarksOf? lenient _ _))
  | property declared =>
      exact lenient.append (TypeRef.holds_remarksOf? lenient _ _)
        (declared.holds_missingType lenient)

theorem holds_remarks (level : List (Symbol Descriptor)) (member : Member) :
    holds (member.remarks owner classifiers level) :=
  lenient.append (member.holds_headRemarks lenient owner classifiers)
    (lenient.append (Introduction.holds_clash lenient _ _) (Introduction.holds_declared lenient _))

theorem holds_remarksOfAll (members : List Member) (level : List (Symbol Descriptor)) :
    holds (remarksOfAll owner classifiers level members) := by
  induction members generalizing level with
  | nil => exact lenient.nil
  | cons first rest ih =>
      exact lenient.append (first.holds_remarks lenient owner classifiers level) (ih _)

end Member

namespace ConstructorParameter

variable (owner : ClassDescriptor) (classifiers : Classifiers)

theorem holds_clashes (introductions : List Introduction) (level : List (Symbol Descriptor)) :
    holds (introductions.flatMap (Introduction.clash level)) := by
  induction introductions with
  | nil => exact lenient.nil
  | cons first rest ih => exact lenient.append (first.holds_clash lenient level) ih

theorem holds_remarks (parameter : ConstructorParameter) (index : Nat)
    (constructor members : List (Symbol Descriptor)) :
    holds (parameter.remarks owner classifiers index constructor members) :=
  lenient.append (parameter.type.holds_remarks lenient classifiers)
    (lenient.append (Introduction.holds_clash lenient _ _)
      (lenient.append (holds_clashes lenient _ _) (Introduction.holds_declared lenient _)))

theorem holds_remarksOfAll (parameters : List ConstructorParameter) (index : Nat)
    (constructor members : List (Symbol Descriptor)) :
    holds (remarksOfAll owner classifiers constructor members index parameters) := by
  induction parameters generalizing index constructor members with
  | nil => exact lenient.nil
  | cons first rest ih =>
      exact lenient.append
        (first.holds_remarks lenient owner classifiers index constructor members) (ih _ _ _)

end ConstructorParameter

namespace TopLevel

theorem holds_classRemarks (contents : List TopLevel) (level : List (Symbol Descriptor)) :
    holds (classRemarks level contents) := by
  induction contents generalizing level with
  | nil => exact lenient.nil
  | cons first rest ih =>
      cases first with
      | member declaration => exact ih _
      | «class» declaration =>
          have head := lenient.append
            (Introduction.holds_remarksOfAll lenient declaration.header [])
            (lenient.append (declaration.introduction.holds_clash lenient level)
              (declaration.introduction.holds_declared lenient))
          exact lenient.append head (ih _)

theorem holds_contentRemarks (classifiers : Classifiers) (contents : List TopLevel)
    (level : List (Symbol Descriptor)) : holds (contentRemarks classifiers level contents) := by
  induction contents generalizing level with
  | nil => exact lenient.nil
  | cons first rest ih =>
      cases first with
      | member declaration =>
          exact lenient.append (declaration.holds_remarks lenient none classifiers level) (ih _)
      | «class» declaration =>
          have content := lenient.append
            (ConstructorParameter.holds_remarksOfAll lenient declaration.describe
              (declaration.inner classifiers) declaration.constructorParameters 0 [] [])
            (Member.holds_remarksOfAll lenient (some declaration.describe)
              (declaration.inner classifiers) declaration.members
              ((declaration.properties classifiers).map Introduction.symbol))
          exact lenient.append content (ih _)

/-- What is written down about the heads of declarations are answers and asides. -/
theorem holds_remarks (contents : List TopLevel) : holds (remarks contents) :=
  lenient.append (holds_classRemarks lenient contents []) (holds_contentRemarks lenient _ contents _)

end TopLevel

end Tree

end Heads

/-! ### Bodies -/

theorem Surroundings.keeps_checkMember {around : Surroundings} {holds : List Remark → Prop}
    (lenient : Remark.Lenient holds) {site : Site} {above : List Node}
    (permits : around.PermitsBody holds above site.member) :
    (around.checkMember site).Keeps (Node.filledOf? site.member.checkedBody?) holds := by
  obtain ⟨member, owner, classifiers, levels⟩ := site
  cases member with
  | function declared => exact keeps_checkFunction lenient _ permits
  | property declared => exact keeps_checkProperty lenient _ permits

namespace ResolutionState

variable {contents : List TopLevel} {base after : ResolutionState} {holds : List Remark → Prop}

/-- What is permitted in the bodies of all members, whatever type is inferred from them. -/
def PermitsMembers (base : ResolutionState) (contents : List TopLevel)
    (holds : List Remark → Prop) : Prop :=
  ∀ site ∈ TopLevel.sitesOf contents, ∃ above, ∀ own,
    (base.view contents site own).PermitsBody holds above site.member

section Lenient

variable (laid : base.Laid contents) (lenient : Remark.Lenient holds)
  (permits : base.PermitsMembers contents holds)

include laid lenient permits

theorem Laid.keeps_checkScript {sites : List Site}
    (inFile : ∀ site ∈ sites, site ∈ TopLevel.sitesOf contents) :
    (base.checkScript sites).Keeps
      (sites.map fun site => Node.filledOf? site.member.checkedBody?).sum holds := by
  induction sites with
  | nil => exact .of_pure lenient _
  | cons site rest ih =>
      obtain ⟨isSite, restInFile⟩ := List.forall_mem_cons.mp inFile
      obtain ⟨above, permitsBody⟩ := permits site isSite
      have keeps := Surroundings.keeps_checkMember lenient (permitsBody noDeclaration)
      rw [← laid.aroundSite_eq isSite] at keeps
      exact keeps.bind lenient fun _ => ih restInFile

theorem Laid.keeps_body {node : NodeRef} {script : Script base.isOpenType NominalType}
    (isBody : base.body? node = some script) : script.Keeps (base.openFilled node) holds := by
  obtain ⟨deferred, found, rfl⟩ := Option.map_eq_some_iff.mp isBody
  obtain ⟨site, isSite, rfl, isOpen, reaches⟩ := laid.exists_site found
  obtain ⟨above, permitsBody⟩ := permits site isSite
  have keeps := Surroundings.keeps_openBody lenient (permitsBody site.member.node.ref) isOpen
  rw [← laid.around_eq reaches] at keeps
  rw [openFilled, found]
  exact keeps

end Lenient

/-- What is written down for demands is permitted, and fills slots of the bodies that were
put off. -/
theorem Laid.holds_demanded (laid : base.Laid contents) (tolerant : Remark.Tolerant holds)
    (permits : base.PermitsMembers contents holds) {nodes : List NodeRef} {remarks : List Remark}
    (demanded : base.Demanded nodes remarks) :
    Remark.filled remarks = (nodes.map base.openFilled).sum ∧ holds remarks := by
  have lenient := tolerant.toLenient
  induction demanded with
  | nil => exact ⟨rfl, lenient.nil⟩
  | body isBody runs _ ih =>
      obtain ⟨filled, held⟩ := laid.keeps_body lenient permits isBody _ _ runs
      rw [Remark.filled_append, filled, ih.1]
      exact ⟨rfl, lenient.append held ih.2⟩
  | recursive name node _ ih =>
      rw [← List.singleton_append, Remark.filled_append, recursion, Remark.filled_problem, zero_add,
        ih.1]
      exact ⟨rfl, lenient.append (tolerant.recursive name node) ih.2⟩

/-- The bodies that were asked for belong to members of the file. -/
theorem Laid.demanded_subset (laid : base.Laid contents) {nodes : List NodeRef}
    {remarks : List Remark} (demanded : base.Demanded nodes remarks) :
    nodes ⊆ (TopLevel.sitesOf contents).map fun site => site.member.node.ref := by
  induction demanded with
  | nil => exact List.nil_subset _
  | body isBody _ _ ih =>
      obtain ⟨deferred, found, -⟩ := Option.map_eq_some_iff.mp isBody
      obtain ⟨site, isSite, same, -⟩ := laid.exists_site found
      exact List.cons_subset.mpr ⟨List.mem_map.mpr ⟨site, isSite, same⟩, ih⟩
  | recursive name node _ ih => exact ih

theorem tolerant_true : Remark.Tolerant fun _ => True where
  nil := trivial
  append _ _ := trivial
  perm _ _ := trivial
  aside _ _ := trivial
  answers _ _ := trivial
  recursive _ _ := trivial

/-- Everything is permitted where nothing is asked of what is written down. -/
theorem permitsMembers_of_forall (base : ResolutionState) (contents : List TopLevel)
    (permitted : ∀ around : Surroundings, ∀ occurrence, around.Permits holds occurrence) :
    base.PermitsMembers contents holds := by
  intro site _
  refine ⟨[], fun own => ?_⟩
  cases site.member with
  | property declared => exact fun _ _ _ _ => permitted _ _
  | function declared =>
      cases body : declared.body with
      | expression value =>
          simp only [Surroundings.PermitsBody, body]
          exact fun _ _ => permitted _ _
      | block steps =>
          simp only [Surroundings.PermitsBody, body]
          exact ⟨fun _ _ => True, trivial, fun _ _ _ => permitted _ _, fun _ _ => trivial,
            fun _ => trivial⟩

/-- How a file is resolved: its checks go along one of their trails, and their questions take
their course.  All that is written down comes from the heads of declarations, from the checks
or from that course. -/
structure Unfolds (contents : List TopLevel) (base after : ResolutionState)
    (total : List Remark) : Prop where
  laid : base.Laid contents
  journal : after.journal = Journal.empty.remarkAll total
  course : ∃ replies own remarks,
    (base.checkScript (TopLevel.sitesOf contents)).Trail replies own () ∧
      base.Course [] replies .empty remarks after.inferred ∧
        total.Perm (TopLevel.remarks contents ++ (own ++ remarks))

/-- The remarks on the heads are written down first, and then what the checks write down. -/
theorem Laid.unfolds_of_enacts (laid : base.Laid contents) {written : List Remark}
    (enacts : base.Enacts [] (base.checkScript (TopLevel.sitesOf contents)) base.inferred written ()
      after.inferred)
    (journal : after.journal = base.journal.remarkAll written) :
    Unfolds contents base after (TopLevel.remarks contents ++ written) := by
  obtain ⟨replies, own, remarks, trail, course, perm⟩ := enacts.exists_course
  refine ⟨laid, ?_, replies, own, remarks, trail, laid.inferred ▸ course, perm.append_left _⟩
  rw [journal, Journal.remarkAll_append, ← laid.journal]

theorem exists_unfolds (file : File) (once : TopLevel.FillsOnce file.declarations) :
    ∃ base total,
      Unfolds file.declarations base ((Resolver.resolveFile file).run .initial).2 total := by
  obtain ⟨base, laid, played, -⟩ := exists_played file once
  obtain ⟨written, enacts, journal⟩ := played.enacted
  exact ⟨base, _, laid.unfolds_of_enacts enacts journal⟩

namespace Unfolds

variable {total : List Remark} (unfolds : Unfolds contents base after total)

include unfolds

/-- What is reported are the problems that were written down. -/
theorem diagnostics : after.diagnostics = total.filterMap Remark.problem? :=
  (congrArg Journal.diagnostics unfolds.journal).trans (Journal.diagnostics_remarkAll _ _)

/-- Everything is kept to that is permitted in the bodies of the file. -/
theorem holds_total (tolerant : Remark.Tolerant holds)
    (permits : base.PermitsMembers contents holds) :
    holds total := by
  have lenient := tolerant.toLenient
  obtain ⟨replies, own, remarks, trail, course, perm⟩ := unfolds.course
  obtain ⟨nodes, demanded, -⟩ := course.exists_demanded
  have heldOwn :=
    (unfolds.laid.keeps_checkScript lenient permits (fun _ => id) own () trail.runs).2
  have heldDemanded := (unfolds.laid.holds_demanded tolerant permits demanded).2
  exact lenient.perm perm.symm
    (lenient.append (TopLevel.holds_remarks lenient _) (lenient.append heldOwn heldDemanded))

/-- No slot is filled twice. -/
theorem nodup_total (once : TopLevel.FillsOnce contents) (slot : Slot) :
    (Remark.nodes slot total).Nodup := by
  obtain ⟨replies, own, remarks, trail, course, perm⟩ := unfolds.course
  obtain ⟨nodes, demanded, distinct, -⟩ := course.exists_demanded
  have permits : base.PermitsMembers contents fun _ => True :=
    base.permitsMembers_of_forall _ fun _ _ => ⟨fun _ _ => trivial, fun _ _ _ _ _ => trivial⟩
  have filledOwn := (unfolds.laid.keeps_checkScript tolerant_true.toLenient permits (fun _ => id)
    own () trail.runs).1
  have filledDemanded := (unfolds.laid.holds_demanded tolerant_true permits demanded).1
  refine unfolds.laid.nodup_of_filled once distinct (unfolds.laid.demanded_subset demanded) ?_ slot
  rw [Remark.filled_perm perm, Remark.filled_append, Remark.filled_append, filledOwn,
    filledDemanded, add_assoc]

end Unfolds

end ResolutionState

/-- Bindings hold at most one meaning of a reference. -/
theorem Bindings.Holds.unique {ν δ : Type} [DecidableEq ν] {bindings : Bindings ν δ}
    {reference : ν} {meaning other : Option (Meaning δ)} (holds : bindings.Holds reference meaning)
    (holdsOther : bindings.Holds reference other) : meaning = other := by
  ext entered
  cases entered with
  | target target => exact (holds.targets target).symm.trans (holdsOther.targets target)
  | ambiguous candidates =>
      exact (holds.ambiguous candidates).symm.trans (holdsOther.ambiguous candidates)
  | unresolved => exact holds.unresolved.symm.trans holdsOther.unresolved

/-- A file that can be read ends up with what was written down while it was resolved. -/
theorem Resolution.exists_written_of_read {name : String} {text : List Char}
    {resolution : Resolution} (readable : read name text = .ok resolution) :
    ∃ (base : ResolutionState) (total : List Remark),
      resolution.diagnostics = total.filterMap Remark.problem? ∧
        (∀ slot, (Remark.nodes slot total).Nodup) ∧
          (∀ reference, resolution.state.bindings.Holds reference
            (Table.lookupIn reference (total.filterMap Remark.meaning?))) ∧
            ∀ holds, Remark.Tolerant holds →
              base.PermitsMembers resolution.file.declarations holds → holds total := by
  obtain ⟨file, parsed, rfl⟩ := eq_ofFile_of_read readable
  have once := (Grammar.wellPlaced_of_read parsed).fillsOnce
  obtain ⟨base, total, unfolds⟩ := ResolutionState.exists_unfolds file once
  have bindings : (ofFile name text file).state.bindings =
      (Journal.empty.remarkAll total).bindings :=
    congrArg Journal.bindings unfolds.journal
  refine ⟨base, total, ?_, unfolds.nodup_total once, fun reference => ?_,
    fun holds => unfolds.holds_total⟩
  · exact unfolds.diagnostics
  · rw [bindings]
    exact Journal.holds_remarkAll (unfolds.nodup_total once .meaning) reference

end Gloss
