import Gloss.Check
import Gloss.Proofs.Absorption.Checks
import Gloss.Proofs.Confinement

/-!
# Names without meaning

In a file where nothing is reported, an expression is replaced by a name that nothing defines.
The type of the name is an error, which fits everywhere, and so do the types that come from it.
As long as the calls around it go to what they went to and decide type parameters as they did, no
mismatch is reported.
-/

namespace Gloss

open Gloss.Tree ResolutionState Script

/-! ### Members -/

/-- How the file of a comparison was resolved before, and the state in which it is declared now.
All members were checked, and answers came from the bodies of members. -/
structure Comparison.Covers (comparison : Comparison) (contents : List TopLevel)
    (other : ResolutionState) : Prop where
  laid : comparison.base.Laid contents
  laidNow : other.Laid (contents.map (TopLevel.replacing comparison.place comparison.unknown))
  inside : ∀ site ∈ TopLevel.sitesOf contents, comparison.inside site.member.node
  heads : ∀ remark ∈ TopLevel.remarks contents, comparison.before.written remark
  checks : ∃ remarks,
    (comparison.base.checkScript (TopLevel.sitesOf contents)).RunsIn comparison.before remarks ()
  settles : ∀ node type, comparison.before.answered node type →
    ∃ script remarks, comparison.base.body? node = some script ∧
      script.RunsIn comparison.before remarks type

namespace Comparison.Covers

variable {comparison : Comparison} {contents : List TopLevel} {other : ResolutionState}
  {site : Site} (covers : comparison.Covers contents other)

include covers

theorem sees_view (isSite : site ∈ TopLevel.sitesOf contents) (own : NodeRef) :
    comparison.Sees
      (other.view (contents.map (TopLevel.replacing comparison.place comparison.unknown))
        (site.replacing comparison.place comparison.unknown) own)
      (comparison.base.view contents site own) where
  levels := by
    rw [view, TopLevel.level_replacing]
    refine List.forall₂_same.mpr fun level isLevel => List.forall₂_same.mpr fun symbol isSymbol => ?_
    exact .same (Visible.of_mem isSite level isLevel symbol isSymbol).isPlain
  class? := covers.laid.class?_replacing covers.laidNow
  classBefore? := rfl
  isOpen := covers.laid.isOpenType_replacing covers.laidNow

theorem echoes_siteScript (isSite : site ∈ TopLevel.sitesOf contents) :
    (other.siteScript (site.replacing comparison.place comparison.unknown)).Echoes comparison
      (fun _ _ => True) (comparison.base.siteScript site) := by
  have echoes := Surroundings.echoes_checkMember (covers.sees_view isSite noDeclaration)
    (covers.inside site isSite)
  rw [← covers.laid.aroundSite_eq isSite,
    ← covers.laidNow.aroundSite_eq (TopLevel.mem_sitesOf_replacing contents isSite)] at echoes
  exact echoes

/-- The checks report no mismatch. -/
theorem echoes_checkScript {sites : List Site}
    (inFile : ∀ site ∈ sites, site ∈ TopLevel.sitesOf contents) :
    (other.checkScript
        (sites.map (Site.replacing comparison.place comparison.unknown))).Echoes comparison
      (fun _ _ => True) (comparison.base.checkScript sites) := by
  induction sites with
  | nil => exact .of_pure trivial
  | cons site rest ih =>
      obtain ⟨isSite, restInFile⟩ := List.forall_mem_cons.mp inFile
      exact (covers.echoes_siteScript isSite).bind fun _ _ _ => ih restInFile

/-- The body of an open member comes to a type that absorbs what it came to before. -/
theorem exists_echoes_body {node : NodeRef} {script : Script other.isOpenType NominalType}
    (isBody : other.body? node = some script) :
    ∃ site ∈ TopLevel.sitesOf contents, site.member.node.ref = node ∧
      site.member.openBody?.isSome ∧
        ∀ original, comparison.base.body? node = some original →
          script.Echoes comparison NominalType.Absorbs original := by
  obtain ⟨deferredNow, foundNow, rfl⟩ := Option.map_eq_some_iff.mp isBody
  obtain ⟨siteNow, isSiteNow, sameNode, isOpenNow, reachesNow⟩ := covers.laidNow.exists_site foundNow
  rw [TopLevel.sitesOf_replacing] at isSiteNow
  obtain ⟨site, isSite, rfl⟩ := List.mem_map.mp isSiteNow
  rw [Site.replacing, Member.ref_replacing] at sameNode
  rw [Site.replacing, Member.openBody?_replacing] at isOpenNow
  subst sameNode
  obtain ⟨body, isOpen, isReplaced⟩ := Option.map_eq_some_iff.mp isOpenNow
  refine ⟨site, isSite, rfl, Option.isSome_of_mem isOpen, fun original isOriginal => ?_⟩
  obtain ⟨scope, -, reaches, put⟩ := covers.laid.placed site isSite
  obtain ⟨deferred, found, rfl⟩ := Option.map_eq_some_iff.mp isOriginal
  rw [put, isOpen] at found
  cases found
  have insideBody := site.member.node.forall_mem_subtree comparison.child
    (covers.inside site isSite) body.node (Member.mem_subtree_of_openBody? isOpen)
  have echoes := Surroundings.echoes_infer (covers.sees_view isSite site.member.node.ref) body
    insideBody
  rw [isReplaced, ← covers.laid.around_eq reaches, ← covers.laidNow.around_eq reachesNow] at echoes
  exact echoes

end Comparison.Covers

/-! ### Answers -/

namespace Script

variable {isOpen : NodeRef → Bool} {α β : Type} {transcript : Transcript}

/-- What is asked for first was answered. -/
theorem RunsIn.answered_of_settle {around : Surroundings} {node : NodeRef}
    {next : NominalType → Script around.isOpen β} (isOpen : around.isOpen node = true)
    {remarks : List Remark} {value : β}
    (runs : (around.settle none (some node) >>= next).RunsIn transcript remarks value) :
    ∃ type, transcript.answered node type := by
  obtain ⟨type, _, _, runsFirst, -⟩ := runsIn_bind_iff.mp runs
  rw [Surroundings.settle, dif_pos isOpen] at runsFirst
  exact ⟨type, runsFirst.of_ask.2⟩

/-- What a script comes to when some types are known is what it comes to with these answers. -/
theorem RunsIn.of_outcome {script : Script isOpen α} {known : InferredTypes} {value : α}
    {remarks : List Remark} (outcome : script.outcome known = some (value, remarks))
    (answered : ∀ node type, known.get? node = some type → transcript.answered node type)
    (written : ∀ remark ∈ remarks, transcript.written remark) :
    script.RunsIn transcript remarks value := by
  induction script generalizing remarks with
  | done value =>
      cases outcome
      exact ⟨[], .done value, List.forall_mem_nil _, written⟩
  | write remark rest ih =>
      obtain ⟨⟨_, later⟩, isLater, same⟩ := Option.map_eq_some_iff.mp outcome
      cases same
      obtain ⟨writtenFirst, writtenLater⟩ := List.forall_mem_cons.mp written
      obtain ⟨replies, trail, areAnswered, -⟩ := ih isLater writtenLater
      exact ⟨replies, .write none trail, areAnswered, written⟩
  | ask node asked rest ih =>
      obtain ⟨type, isKnown, isLater⟩ := Option.bind_eq_some_iff.mp outcome
      obtain ⟨replies, trail, areAnswered, -⟩ := ih type isLater written
      exact ⟨_, .ask type trail,
        List.forall_mem_cons.mpr ⟨answered node type isKnown, areAnswered⟩, written⟩

end Script

namespace ResolutionState

variable {contents : List TopLevel} {base : ResolutionState} {site : Site} {sites : List Site}
  {transcript : Transcript} {remarks : List Remark}

/-- A check asks for the type of an open member. -/
theorem Laid.exists_answered_of_site (laid : base.Laid contents)
    (isSite : site ∈ TopLevel.sitesOf contents) (isOpen : site.member.openBody?.isSome)
    (runs : (base.siteScript site).RunsIn transcript remarks ()) :
    ∃ type, transcript.answered site.member.node.ref type := by
  have putOff := laid.isOpenType isSite isOpen
  have leavesOpen : site.introduction.symbol.descriptor.LeavesOpen :=
    Member.leavesOpen_introduction isOpen
  obtain ⟨member, owner, classifiers, levels⟩ := site
  cases member with
  | function declared =>
      have noType : (declared.describe owner classifiers).returnType = none := leavesOpen
      unfold siteScript at runs
      simp only [Surroundings.checkMember, Surroundings.checkFunction, Surroundings.returnType,
        noType] at runs
      exact runs.answered_of_settle putOff
  | property declared =>
      have noType : (declared.describe owner classifiers).type = none := leavesOpen
      unfold siteScript at runs
      simp only [Surroundings.checkMember, Surroundings.checkProperty, Surroundings.variableType,
        noType] at runs
      exact runs.answered_of_settle putOff

/-- Where all members are checked, the types of all open members were asked for. -/
theorem Laid.exists_answered (laid : base.Laid contents)
    (runs : (base.checkScript sites).RunsIn transcript remarks ())
    (inFile : ∀ site ∈ sites, site ∈ TopLevel.sitesOf contents) (isSite : site ∈ sites)
    (isOpen : site.member.openBody?.isSome) :
    ∃ type, transcript.answered site.member.node.ref type := by
  induction sites generalizing remarks with
  | nil => cases isSite
  | cons first rest ih =>
      obtain ⟨isFirst, restInFile⟩ := List.forall_mem_cons.mp inFile
      obtain ⟨_, _, _, runsFirst, runsRest, -⟩ := runsIn_bind_iff.mp runs
      rcases List.mem_cons.mp isSite with rfl | isLater
      · exact laid.exists_answered_of_site isFirst isOpen runsFirst
      · exact ih runsRest restInFile isLater

end ResolutionState

/-! ### Files -/

/-- All types that are known are answers that absorb those from before. -/
def Comparison.Knows (comparison : Comparison) (known : InferredTypes) : Prop :=
  ∀ node type, known.get? node = some type → comparison.now.answered node type

theorem Comparison.Knows.insert {comparison : Comparison} {known : InferredTypes} {entry : NodeRef}
    {value : NominalType} (knows : comparison.Knows known)
    (answered : comparison.now.answered entry value) :
    comparison.Knows (known.insert entry value) := by
  intro node type found
  rw [Table.get?_insert] at found
  split at found
  · next same =>
    cases found
    exact same ▸ answered
  · exact knows node type found

namespace Comparison.Covers

variable {comparison : Comparison} {contents : List TopLevel} {other : ResolutionState}
  (covers : comparison.Covers contents other)

include covers

/-- What the body of an open member comes to now is an answer that absorbs the one from before. -/
theorem answered_of_body {node : NodeRef} {script : Script other.isOpenType NominalType}
    (isBody : other.body? node = some script) {own : List Remark} {type : NominalType}
    (runs : script.RunsIn comparison.now own type) :
    comparison.now.answered node type ∧ ∀ remark ∈ own, remark.Quiet := by
  obtain ⟨site, isSite, rfl, isOpen, echoes⟩ := covers.exists_echoes_body isBody
  have absorbs (original : NominalType)
      (wasAnswered : comparison.before.answered site.member.node.ref original) :
      type.Absorbs original ∧ ∀ remark ∈ own, remark.Quiet := by
    obtain ⟨body, _, isOriginal, ran⟩ := covers.settles _ _ wasAnswered
    exact echoes body isOriginal _ _ ran _ _ runs
  obtain ⟨_, checked⟩ := covers.checks
  obtain ⟨original, wasAnswered⟩ := covers.laid.exists_answered checked (fun _ => id) isSite isOpen
  exact ⟨comparison.answered.mpr fun original wasAnswered => (absorbs original wasAnswered).1,
    (absorbs original wasAnswered).2⟩

/-- By induction on the course of the questions: the bodies that are inferred meanwhile ask for
types that absorb those from before, and so they come to such types themselves. -/
theorem quiet_of_course {active : List NodeRef} {replies : Replies} {known after : InferredTypes}
    {remarks : List Remark} (course : other.Course active replies known remarks after)
    (knows : comparison.Knows known)
    (written : ∀ remark ∈ remarks, comparison.now.written remark) :
    (∀ reply ∈ replies, comparison.now.answered reply.1 reply.2) ∧ comparison.Knows after ∧
      ∀ remark ∈ remarks, remark.Quiet := by
  induction course with
  | nil => exact ⟨List.forall_mem_nil _, knows, List.forall_mem_nil _⟩
  | known isKnown _ ih =>
      obtain ⟨answered, knowsLater, quiet⟩ := ih knows written
      exact ⟨List.forall_mem_cons.mpr ⟨knows _ _ isKnown, answered⟩, knowsLater, quiet⟩
  | @recursive _ node _ _ _ _ name _ _ _ ih =>
      have isError : comparison.now.answered node .error :=
        comparison.answered.mpr fun original _ => .of_isError rfl
      obtain ⟨answered, knowsLater, quiet⟩ :=
        ih (knows.insert isError) (List.forall_mem_cons.mp written).2
      exact ⟨List.forall_mem_cons.mpr ⟨isError, answered⟩, knowsLater,
        List.forall_mem_cons.mpr ⟨rfl, quiet⟩⟩
  | inferred _ _ isBody trail _ _ ihInner ih =>
      obtain ⟨writtenBody, writtenLater⟩ := List.forall_mem_append.mp written
      obtain ⟨writtenOwn, writtenInner⟩ := List.forall_mem_append.mp writtenBody
      obtain ⟨asked, knowsInner, quietInner⟩ := ihInner knows writtenInner
      obtain ⟨isNew, quietOwn⟩ := covers.answered_of_body isBody ⟨_, trail, asked, writtenOwn⟩
      obtain ⟨answered, knowsLater, quiet⟩ := ih (knowsInner.insert isNew) writtenLater
      exact ⟨List.forall_mem_cons.mpr ⟨isNew, answered⟩, knowsLater,
        List.forall_mem_append.mpr ⟨List.forall_mem_append.mpr ⟨quietOwn, quietInner⟩, quiet⟩⟩

/-- Of what is written down for the file now, nothing reports a mismatch. -/
theorem quiet_of_unfolds {after : ResolutionState} {total : List Remark}
    (unfolds : Unfolds
      (contents.map (TopLevel.replacing comparison.place comparison.unknown)) other after total)
    (written : ∀ remark ∈ total, comparison.now.written remark) :
    ∀ remark ∈ total, remark.Quiet := by
  obtain ⟨replies, own, remarks, trail, course, perm⟩ := unfolds.course
  have writtenAll remark (isRemark : remark ∈ _) := written remark (perm.mem_iff.mpr isRemark)
  obtain ⟨-, writtenRest⟩ := List.forall_mem_append.mp writtenAll
  obtain ⟨writtenOwn, writtenCourse⟩ := List.forall_mem_append.mp writtenRest
  obtain ⟨answered, -, quietCourse⟩ :=
    covers.quiet_of_course course (fun _ _ found => by cases found) writtenCourse
  obtain ⟨_, checked⟩ := covers.checks
  rw [TopLevel.sitesOf_replacing] at trail
  obtain ⟨-, quietOwn⟩ := covers.echoes_checkScript (fun _ => id) _ _ checked _ _
    ⟨replies, trail, answered, writtenOwn⟩
  have quietHeads : ∀ remark ∈ TopLevel.remarks
      (contents.map (TopLevel.replacing comparison.place comparison.unknown)), remark.Quiet := by
    rw [TopLevel.remarks_replacing]
    exact fun remark isHead => comparison.quiet_of_written (covers.heads remark isHead)
  intro remark isWritten
  rcases List.mem_append.mp (perm.mem_iff.mp isWritten) with isHead | isRest
  · exact quietHeads remark isHead
  · rcases List.mem_append.mp isRest with isOwn | isCourse
    · exact quietOwn remark isOwn
    · exact quietCourse remark isCourse

end Comparison.Covers

/-! ### Resolutions -/

namespace Resolution

/-- What is known of a file is what was written down while it was resolved. -/
structure Records (resolution : Resolution) (total : List Remark) : Prop where
  target : ∀ {reference target}, .meaning reference (.target target) ∈ total ↔
    resolution.target? reference = some target
  typed : ∀ {node type}, .typed node type ∈ total ↔ resolution.type? node = some type
  problem : ∀ {found}, .problem found ∈ total ↔ found ∈ resolution.diagnostics

variable {name : String} {text : List Char} {resolution : Resolution} {base : ResolutionState}
  {contents : List TopLevel} {total : List Remark}

theorem records_of_unfolds (unfolds : Unfolds contents base resolution.state total)
    (once : TopLevel.FillsOnce contents) : resolution.Records total where
  target := by
    intro reference target
    rw [← Journal.get?_targets_iff (unfolds.nodup_total once .meaning), ← unfolds.journal]
    rfl
  typed := by
    intro node type
    rw [← Journal.get?_types_iff (unfolds.nodup_total once .type), ← unfolds.journal]
    rfl
  problem := by
    intro found
    rw [Resolution.diagnostics, unfolds.diagnostics, List.mem_filterMap]
    constructor
    · exact fun isWritten => ⟨_, isWritten, rfl⟩
    · rintro ⟨remark, isWritten, isProblem⟩
      cases remark with
      | problem reported =>
          cases isProblem
          exact isWritten
      | _ => cases isProblem

/-- A reference with a target is a node of the file. -/
theorem exists_node_of_target? (readable : read name text = .ok resolution) {reference : NodeRef}
    {target : Descriptor} (hasTarget : resolution.target? reference = some target) :
    ∃ node ∈ resolution.file.nodes, node.ref = reference := by
  obtain ⟨placed, completes⟩ := completes_of_read readable
  obtain ⟨meaning, holds, known, -⟩ := completes.exists_holds placed.nodup_references reference
  have isReference : reference ∈ resolution.file.references :=
    known.mp (by rw [(holds.targets target).mp hasTarget]; rfl)
  obtain ⟨found, inDeclarations, -, same⟩ := File.mem_references_iff.mp isReference
  exact ⟨found, File.mem_nodes_of_mem_declarationNodes inDeclarations, same⟩

theorem mem_nodes_of_mem_children (resolution : Resolution) (node : Node)
    (inFile : node ∈ resolution.file.nodes) (below : Node) (isChild : below ∈ node.children) :
    below ∈ resolution.file.nodes :=
  File.mem_nodes_of_mem_subtree inFile (Node.mem_subtree_of_child isChild below.mem_subtree_self)

/-- The types of expressions, errors where none are known. -/
def typesOf (resolution : Resolution) (expressions : List Expr) : List NominalType :=
  expressions.map fun expression => (resolution.type? expression.node.ref).getD .error

theorem typesOf_eq {expressions : List Expr} {types : List NominalType}
    (areTyped : List.Forall₂ (fun expression type =>
      resolution.type? expression.node.ref = some type) expressions types) :
    resolution.typesOf expressions = types := by
  induction areTyped with
  | nil => rfl
  | cons isTyped _ ih => rw [typesOf, List.map_cons, isTyped, ← typesOf, ih, Option.getD_some]

/-- A call by name at a node decides the type parameters of a class for the same types, with a
name in the place of an expression of the file. -/
def DecidesAlike (before now : Resolution) (place : NodeRef) (unknown : String) : Node → Prop
  | .expression (.call _ (.name callee) arguments) =>
      match now.target? callee.node.ref, before.target? callee.node.ref with
      | some (.class owner), some (.class _) =>
          (before.state.constructorSignature owner).inferred
              (now.typesOf (Expr.replacingAll place unknown arguments)) =
            (before.state.constructorSignature owner).inferred (before.typesOf arguments)
      | _, _ => True
  | _ => True

instance (before now : Resolution) (place : NodeRef) (unknown : String) (node : Node) :
    Decidable (before.DecidesAlike now place unknown node) := by
  unfold DecidesAlike
  split
  · split <;> infer_instance
  · infer_instance

/-- The references of a file go on as before with a name in the place of an expression: the name
has no target, any other reference loses its target or means what it meant, and type parameters
are decided for the same types. -/
structure Retains (before now : Resolution) (place : NodeRef) (unknown : String) : Prop where
  undefined : now.target? ⟨.name, place.span⟩ = none
  keeps : ∀ node ∈ before.file.nodes, ∀ means ∈ now.target? node.ref,
    ∀ meant ∈ before.target? node.ref, means.Keeps meant
  decides : ∀ node ∈ before.file.nodes, before.DecidesAlike now place unknown node

instance (before now : Resolution) (place : NodeRef) (unknown : String) :
    Decidable (before.Retains now place unknown) :=
  decidable_of_iff
    (now.target? ⟨.name, place.span⟩ = none ∧
      (∀ node ∈ before.file.nodes, ∀ means ∈ now.target? node.ref,
        ∀ meant ∈ before.target? node.ref, means.Keeps meant) ∧
      ∀ node ∈ before.file.nodes, before.DecidesAlike now place unknown node)
    ⟨fun ⟨undefined, keeps, decides⟩ => ⟨undefined, keeps, decides⟩,
      fun retains => ⟨retains.undefined, retains.keeps, retains.decides⟩⟩

namespace Finishes

variable {settlements : List Settlement} {later : List Remark} {now : Resolution} {place : NodeRef}
  {unknown : String} (finishes : resolution.Finishes base settlements total)
  (readable : read name text = .ok resolution) (records : now.Records later)
  (retains : resolution.Retains now place unknown)

include finishes records retains

omit finishes in
theorem undefined_of_retains (target : Descriptor) :
    .meaning ⟨.name, place.span⟩ (.target target) ∉ later := by
  intro isWritten
  have hasTarget := records.target.mp isWritten
  rw [retains.undefined] at hasTarget
  cases hasTarget

include readable in
theorem keeps_of_retains {reference : NodeRef} {means meant : Descriptor}
    (isWritten : .meaning reference (.target means) ∈ later)
    (wasWritten : .meaning reference (.target meant) ∈ total) : means.Keeps meant := by
  have hadTarget := finishes.target.mp wasWritten
  obtain ⟨node, inFile, rfl⟩ := exists_node_of_target? readable hadTarget
  exact retains.keeps node inFile means (records.target.mp isWritten) meant hadTarget

theorem inferred_eq_of_retains {span : Span} {callee : SimpleName} {arguments : List Expr}
    {types originals : List NominalType} {owner : ClassDescriptor}
    (inFile : (Expr.call span (.name callee) arguments).node ∈ resolution.file.nodes)
    (isWritten : .meaning callee.node.ref (.target (.class owner)) ∈ later)
    (wasWritten : .meaning callee.node.ref (.target (.class owner)) ∈ total)
    (areTyped : List.Forall₂ (fun (argument : Expr) type => .typed argument.node.ref type ∈ later)
      (Expr.replacingAll place unknown arguments) types)
    (wereTyped : List.Forall₂ (fun (argument : Expr) type => .typed argument.node.ref type ∈ total)
      arguments originals) :
    (base.constructorSignature owner).inferred types =
      (base.constructorSignature owner).inferred originals := by
  have decides := retains.decides _ inFile
  simp only [Expr.node, DecidesAlike, records.target.mp isWritten, finishes.target.mp wasWritten]
    at decides
  rw [typesOf_eq (areTyped.imp fun _ _ isTyped => records.typed.mp isTyped),
    typesOf_eq (wereTyped.imp fun _ _ wasTyped => finishes.typed.mp wasTyped)] at decides
  rw [finishes.constructorSignature_eq]
  exact decides

/-- A file in which nothing is reported beside the file with a name in the place of an expression. -/
def comparison : Comparison where
  base
  plain _ _ found := finishes.laid.isPlain_of_class? found
  before := { answered node type := resolution.state.inferred.get? node = some type
              written := (· ∈ total) }
  now := { answered node type := ∀ original, resolution.state.inferred.get? node = some original →
             type.Absorbs original
           written := (· ∈ later) }
  place
  unknown
  inside := (· ∈ resolution.file.nodes)
  child := mem_nodes_of_mem_children resolution
  noProblem := finishes.noProblem
  answered := .rfl
  undefined := undefined_of_retains records retains
  keeps _ _ _ := finishes.keeps_of_retains readable records retains
  decides _ _ _ _ _ _ inFile isWritten wasWritten :=
    finishes.inferred_eq_of_retains records retains inFile isWritten wasWritten

/-- All members were checked, and each type that was settled comes from the body of a member. -/
theorem covers {other after : ResolutionState}
    (unfolds : Unfolds (resolution.file.replacing place unknown).declarations other after later) :
    (finishes.comparison readable records retains).Covers resolution.file.declarations other := by
  have written remark (isRemark : remark ∈ _) : remark ∈ total :=
    finishes.perm.mem_iff.mpr isRemark
  obtain ⟨writtenRest, writtenSettled⟩ := List.forall_mem_append.mp written
  obtain ⟨writtenHeads, writtenChecks⟩ := List.forall_mem_append.mp writtenRest
  refine ⟨finishes.laid, unfolds.laid, fun _ isSite => File.member_mem_nodes isSite, writtenHeads,
    ⟨_, .of_outcome (outcome_checkScript_iff.mpr ⟨finishes.finished.checks, rfl⟩)
      (fun _ _ isKnown => isKnown) writtenChecks⟩, fun node type isKnown => ?_⟩
  have entered : resolution.state.inferred.get? node = some type := isKnown
  rw [finishes.finished.inferred] at entered
  obtain ⟨settlement, isSettlement, same⟩ := List.mem_map.mp (Table.mem_of_lookupIn entered)
  obtain ⟨script, isBody, outcome⟩ :=
    finishes.finished.sound.outcome_of_mem List.nodup_nil isSettlement
  cases same
  refine ⟨script, settlement.remarks, isBody, .of_outcome outcome (fun other type isOther => ?_)
    fun remark isRemark =>
      writtenSettled remark (List.mem_flatMap.mpr ⟨settlement, isSettlement, isRemark⟩)⟩
  change resolution.state.inferred.get? other = some type
  rw [finishes.finished.inferred]
  exact isOther

end Finishes

/-- One name without meaning makes no types mismatch: an expression of a file without problems is
replaced by a name that nothing defines, and other references go on as they did. -/
theorem no_mismatch_of_retains (readable : read name text = .ok resolution)
    (clean : resolution.diagnostics = []) (other : List Char) (place : NodeRef) (unknown : String)
    (retains : resolution.Retains (ofFile name other (resolution.file.replacing place unknown))
      place unknown) :
    ∀ found ∈ (ofFile name other (resolution.file.replacing place unknown)).diagnostics,
      found.problem.label ≠ "type-mismatch" ∧ found.problem.label ≠ "argument-mismatch" := by
  obtain ⟨base, settlements, total, finishes⟩ := exists_finishes_of_read readable clean
  have once : TopLevel.FillsOnce (resolution.file.replacing place unknown).declarations :=
    (completes_of_read readable).1.fillsOnce_replacing place unknown
  obtain ⟨later, written, unfolds⟩ := exists_unfolds (resolution.file.replacing place unknown) once
  have records : (ofFile name other (resolution.file.replacing place unknown)).Records written :=
    records_of_unfolds unfolds once
  have quiet := (finishes.covers readable records retains unfolds).quiet_of_unfolds unfolds
    fun remark isWritten => isWritten
  intro found isReported
  have notMismatch : found.problem.isMismatch = false :=
    quiet (.problem found) (records.problem.mpr isReported)
  rw [Problem.isMismatch, Bool.or_eq_false_iff, decide_eq_false_iff_not,
    decide_eq_false_iff_not] at notMismatch
  exact notMismatch.symm

/-- An argument inside the argument of a constructor: what the call between them returns is known
all the same, and so is what the box holds. -/
theorem no_mismatch_of_retains_argument :
    ∃ resolution,
      read "sample" "class Box<T>(val v: T)\nval a: Int = Box(f(1)).v\nfun f(x: Int) = x + 1".toList =
          .ok resolution ∧
        resolution.diagnostics = [] ∧
          ∃ now, now = ofFile "sample"
              "class Box<T>(val v: T)\nval a: Int = Box(f(b)).v\nfun f(x: Int) = x + 1".toList
                (resolution.file.replacing ⟨.integer, ⟨42, 43⟩⟩ "b") ∧
            resolution.Retains now ⟨.integer, ⟨42, 43⟩⟩ "b" ∧
              now.diagnostics.map (fun found => found.problem.label) = ["unresolved-reference"] ∧
                ∀ found ∈ now.diagnostics, found.problem.label ≠ "type-mismatch" ∧
                  found.problem.label ≠ "argument-mismatch" := by
  have computed : ∃ resolution,
      read "sample" "class Box<T>(val v: T)\nval a: Int = Box(f(1)).v\nfun f(x: Int) = x + 1".toList =
          .ok resolution ∧
        resolution.diagnostics = [] ∧
          resolution.Retains
            (ofFile "sample"
              "class Box<T>(val v: T)\nval a: Int = Box(f(b)).v\nfun f(x: Int) = x + 1".toList
                (resolution.file.replacing ⟨.integer, ⟨42, 43⟩⟩ "b"))
            ⟨.integer, ⟨42, 43⟩⟩ "b" ∧
              (ofFile "sample"
                "class Box<T>(val v: T)\nval a: Int = Box(f(b)).v\nfun f(x: Int) = x + 1".toList
                  (resolution.file.replacing ⟨.integer, ⟨42, 43⟩⟩ "b")).diagnostics.map
                (fun found => found.problem.label) = ["unresolved-reference"] := by
    apply exists_of_read
    decide +kernel
  obtain ⟨resolution, readable, clean, retains, reported⟩ := computed
  exact ⟨resolution, readable, clean, _, rfl, retains, reported,
    no_mismatch_of_retains readable clean _ _ _ retains⟩

/-- Where other types decide a type parameter this does not hold: an unknown name as the argument of
a generic function leaves it undecided, which is a type mismatch beside the unresolved reference. -/
theorem not_absorbs_of_generic_call :
    ∃ known unknown, read "sample" "val a: Int = identity(1)".toList = .ok known ∧
      known.diagnostics = [] ∧
        read "sample" "val a: Int = identity(b)".toList = .ok unknown ∧
          unknown.diagnostics.map (fun found => found.problem.label) =
            ["unresolved-reference", "type-mismatch"] := by
  have computed :
      (match read "sample" "val a: Int = identity(1)".toList,
          read "sample" "val a: Int = identity(b)".toList with
        | .ok known, .ok unknown =>
            known.diagnostics = [] &&
              unknown.diagnostics.map (fun found => found.problem.label) =
                ["unresolved-reference", "type-mismatch"]
        | _, _ => false) = true := by
    decide +kernel
  cases readKnown : read "sample" "val a: Int = identity(1)".toList with
  | error fault =>
      rw [readKnown] at computed
      cases computed
  | ok known =>
      cases readUnknown : read "sample" "val a: Int = identity(b)".toList with
      | error fault =>
          rw [readKnown, readUnknown] at computed
          cases computed
      | ok unknown =>
          simp only [readKnown, readUnknown, Bool.and_eq_true, decide_eq_true_eq] at computed
          exact ⟨known, unknown, rfl, computed.1, rfl, computed.2⟩

end Resolution

end Gloss
