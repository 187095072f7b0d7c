import Gloss.Proofs.Order.Rounds

/-!
# The same in any order

Scripts that are alike come to the same values.  So what the checks of a file have
settled in one order of its declarations answers all demands in another order too, and
in the end the same types are known and the same remarks were written down.
-/

namespace Gloss

open Gloss.Tree ResolutionState

/-! ### Outcomes -/

namespace Script

variable {isOpen isOpenLater : NodeRef → Bool} {α β : Type}

/-- An outcome depends on what is known only. -/
theorem outcome_congr {known more : InferredTypes}
    (same : ∀ node, known.get? node = more.get? node) (script : Script isOpen α) :
    script.outcome known = script.outcome more := by
  induction script with
  | done value => rfl
  | write remark rest ih => rw [outcome, outcome, ih]
  | ask node asked rest ih =>
      rw [outcome, outcome, same]
      exact congrArg _ (funext ih)

/-- What a script writes down once the types are known. -/
def remarks (script : Script isOpen α) (known : InferredTypes) : List Remark :=
  ((script.outcome known).map Prod.snd).getD []

theorem remarks_congr {known more : InferredTypes}
    (same : ∀ node, known.get? node = more.get? node) (script : Script isOpen α) :
    script.remarks known = script.remarks more := by
  rw [remarks, outcome_congr same, remarks]

theorem remarks_of_outcome {script : Script isOpen α} {known : InferredTypes} {value : α}
    {written : List Remark} (outcome : script.outcome known = some (value, written)) :
    script.remarks known = written := by
  rw [remarks, outcome]
  rfl

variable {nodes : Slot → Multiset NodeRef} {accept : α → β → Prop} {script : Script isOpen α}
  {other : Script isOpenLater β}

theorem Alike.exists_outcome (alike : Alike nodes accept script other) {known : InferredTypes}
    {value : α} {written : List Remark} (outcome : script.outcome known = some (value, written)) :
    ∃ another others, other.outcome known = some (another, others) ∧ accept value another ∧
      List.Forall₂ Remark.Alike written others ∧ Remark.filled written = nodes := by
  have related := alike known
  rw [outcome] at related
  revert related
  generalize other.outcome known = found
  intro related
  cases related with
  | some related => exact ⟨_, _, rfl, related.1, related.2.1, funext related.2.2⟩

end Script

/-! ### Settlements -/

theorem Remark.Alike.plain {one other : Remark} (alike : one.Alike other) (plain : one.Plain) :
    other.Plain := by
  cases alike with
  | refl => exact plain
  | ambiguous => rintro found name ⟨⟩

theorem Remark.forall_plain {remarks others : List Remark}
    (alike : List.Forall₂ Remark.Alike remarks others)
    (plain : ∀ remark ∈ remarks, remark.Plain) : ∀ remark ∈ others, remark.Plain := by
  induction alike with
  | nil => exact List.forall_mem_nil _
  | cons first _ ih =>
      obtain ⟨plainFirst, plainRest⟩ := List.forall_mem_cons.mp plain
      exact List.forall_mem_cons.mpr ⟨first.plain plainFirst, ih plainRest⟩

section Sound

variable {isOpen : NodeRef → Bool} {body? : NodeRef → Option (Script isOpen NominalType)}
  {known : List (NodeRef × NominalType)} {settlements : List Settlement}

/-- Each declaration is settled once. -/
theorem Sound.once (sound : Sound body? known settlements) :
    (known.map Prod.fst).Nodup →
      (known.map Prod.fst ++ settlements.map Settlement.node).Nodup := by
  induction sound with
  | nil known => simp
  | @cons known settlement later script isBody outcome new _ ih =>
      intro once
      have onceMore : ((known ++ [settlement.entry]).map Prod.fst).Nodup := by
        rw [List.map_append, List.map_singleton]
        exact List.nodup_append.mpr ⟨once, List.nodup_singleton _, fun node inKnown other isNew =>
          by rw [List.mem_singleton.mp isNew]; rintro rfl; exact new inKnown⟩
      have all := ih onceMore
      rwa [List.map_append, List.append_assoc] at all

/-- What a settlement says comes out, given all types that are settled. -/
theorem Sound.outcome_of_mem (sound : Sound body? known settlements)
    (once : (known.map Prod.fst).Nodup) {settlement : Settlement}
    (isSettlement : settlement ∈ settlements) :
    ∃ script, body? settlement.node = some script ∧
      script.outcome ⟨known ++ settlements.map Settlement.entry⟩ =
        some (settlement.type, settlement.remarks) := by
  induction sound with
  | nil known => cases isSettlement
  | @cons known first later script isBody outcome new sound ih =>
      rcases List.mem_cons.mp isSettlement with rfl | inRest
      · refine ⟨script, isBody, Script.outcome_mono (fun node type isKnown => ?_) outcome⟩
        rw [Table.get?] at isKnown ⊢
        rw [Table.lookupIn_append, isKnown]
        rfl
      · have onceMore : ((known ++ [first.entry]).map Prod.fst).Nodup := by
          have all := (Sound.cons isBody outcome new sound).once once
          rw [List.map_append]
          refine all.sublist (List.Sublist.append_left ?_ _)
          exact List.singleton_sublist.mpr List.mem_cons_self
        obtain ⟨other, isOther, found⟩ := ih onceMore inRest
        refine ⟨other, isOther, ?_⟩
        rwa [List.append_assoc] at found

end Sound

namespace ResolutionState

variable {first second : List TopLevel} {base other : ResolutionState}

/-- What is settled in one order could be settled in the other. -/
theorem Reordered.exists_sound (reordered : Reordered first second base other)
    {known : List (NodeRef × NominalType)} {settlements : List Settlement}
    (sound : Sound base.body? known settlements) :
    ∃ others, Sound other.body? known others ∧
      others.map Settlement.entry = settlements.map Settlement.entry ∧
        ((∀ settlement ∈ settlements, ∀ remark ∈ settlement.remarks, remark.Plain) →
          ∀ settlement ∈ others, ∀ remark ∈ settlement.remarks, remark.Plain) := by
  induction sound with
  | nil known => exact ⟨[], .nil known, rfl, fun _ => List.forall_mem_nil _⟩
  | @cons known settlement later script isBody outcome new _ ih =>
      obtain ⟨others, soundOthers, entries, plain⟩ := ih
      obtain ⟨counterpart, isCounterpart, alike⟩ := reordered.alike_body? isBody
      obtain ⟨_, remarks, found, rfl, alikeRemarks, -⟩ := alike.exists_outcome outcome
      refine ⟨⟨settlement.node, settlement.type, remarks⟩ :: others,
        .cons isCounterpart found new soundOthers, ?_, fun allPlain => ?_⟩
      · rw [List.map_cons, entries]
        rfl
      · obtain ⟨plainFirst, plainRest⟩ := List.forall_mem_cons.mp allPlain
        exact List.forall_mem_cons.mpr
          ⟨Remark.forall_plain alikeRemarks plainFirst, plain plainRest⟩

end ResolutionState

/-! ### Checks -/

section Checks

variable {contents : List TopLevel} {base : ResolutionState} {known : InferredTypes}
  {sites : List Site}

/-- Together the checks write down what each of them writes down. -/
theorem outcome_checkScript_iff {remarks : List Remark} :
    (base.checkScript sites).outcome known = some ((), remarks) ↔
      (∀ site ∈ sites, ((base.siteScript site).outcome known).isSome) ∧
        remarks = sites.flatMap fun site => (base.siteScript site).remarks known := by
  induction sites generalizing remarks with
  | nil =>
      constructor
      · intro written
        cases written
        exact ⟨List.forall_mem_nil _, rfl⟩
      · rintro ⟨-, rfl⟩
        rfl
  | cons site rest ih =>
      rw [checkScript, Script.outcome_bind, Option.bind_eq_some_iff]
      constructor
      · rintro ⟨⟨_, written⟩, isFirst, isLater⟩
        obtain ⟨⟨_, later⟩, isRest, same⟩ := Option.map_eq_some_iff.mp isLater
        cases same
        obtain ⟨all, rfl⟩ := ih.mp isRest
        refine ⟨List.forall_mem_cons.mpr ⟨by rw [isFirst]; rfl, all⟩, ?_⟩
        rw [List.flatMap_cons, Script.remarks_of_outcome isFirst]
      · rintro ⟨all, rfl⟩
        obtain ⟨isSome, allRest⟩ := List.forall_mem_cons.mp all
        obtain ⟨⟨_, written⟩, isFirst⟩ := Option.isSome_iff_exists.mp isSome
        refine ⟨((), written), isFirst, ?_⟩
        rw [ih.mpr ⟨allRest, rfl⟩, List.flatMap_cons, Script.remarks_of_outcome isFirst]
        rfl

end Checks

theorem Surroundings.Alike.checkMember {first second : Surroundings} (alike : first.Alike second)
    (site : Site) :
    Script.Alike (Node.filledOf? site.member.checkedBody?) (fun _ _ => True)
      (first.checkMember site) (second.checkMember site) := by
  obtain ⟨member, owner, classifiers, levels⟩ := site
  cases member with
  | function declared => exact alike.checkFunction declared _
  | property declared => exact alike.checkProperty declared _

namespace ResolutionState

variable {first second : List TopLevel} {base other after afterOther : ResolutionState}

/-- The checks of a member are alike. -/
theorem Reordered.alike_siteScript (reordered : Reordered first second base other) {site : Site}
    (isSite : site ∈ TopLevel.sitesOf first) :
    Script.Alike (Node.filledOf? site.member.checkedBody?) (fun _ _ => True)
      (base.siteScript site) (other.siteScript site) := by
  have alike := (reordered.alike_view site noDeclaration).checkMember site
  rw [← reordered.laid.aroundSite_eq isSite,
    ← reordered.laidOther.aroundSite_eq (reordered.mem_sites_iff.mp isSite)] at alike
  exact alike

/-! ### Declarations that depend on themselves -/

theorem plain_of_not_isRecursive {journal : Journal} {remarks : List Remark}
    (written : after.journal = journal.remarkAll remarks) (notRecursive : ¬ after.IsRecursive) :
    ∀ remark ∈ remarks, remark.Plain := by
  rintro remark isWritten found name rfl recursive
  refine notRecursive ⟨found, ?_, name, recursive⟩
  have diagnostics := congrArg Journal.diagnostics written
  rw [Journal.diagnostics_remarkAll] at diagnostics
  change after.diagnostics = _ at diagnostics
  rw [diagnostics]
  exact List.mem_append_right _ (List.mem_filterMap.mpr ⟨_, isWritten, rfl⟩)

theorem not_isRecursive_of_plain {remarks : List Remark}
    (written : base.journal = Journal.empty.remarkAll remarks)
    (plain : ∀ remark ∈ remarks, remark.Plain) : ¬ base.IsRecursive := by
  rintro ⟨found, isReported, name, recursive⟩
  have diagnostics := congrArg Journal.diagnostics written
  rw [Journal.diagnostics_remarkAll] at diagnostics
  change base.diagnostics = _ at diagnostics
  rw [diagnostics] at isReported
  obtain ⟨remark, isWritten, isFound⟩ := List.mem_filterMap.mp isReported
  cases remark with
  | problem reported =>
      cases isFound
      exact plain _ isWritten found name rfl recursive
  | _ => cases isFound

theorem Laid.continues {contents : List TopLevel} (laid : base.Laid contents) :
    base.Continues base where
  size := le_rfl
  levels := fun _ _ => rfl
  classes := rfl
  functionScopes := rfl
  initializerScopes := rfl
  deferred := rfl
  inferred := by
    rw [laid.inferred]
    exact fun _ known => by cases known

/-- Before the members are checked no type is settled. -/
theorem Laid.tame {contents : List TopLevel} (laid : base.Laid contents)
    (notRecursive : ¬ base.IsRecursive) (all : List (NodeRef × NominalType)) :
    base.Tame all [] base where
  continues := laid.continues
  awaits := List.forall_mem_nil _
  within := by
    rw [laid.inferred]
    exact fun _ _ known => by cases known
  notRecursive := notRecursive

/-! ### What the checks leave -/

/-- All members are checked, and no declaration depends on itself: some types were
settled, and everything is written down that the checks and the settlements say. -/
structure Finished (contents : List TopLevel) (base after : ResolutionState)
    (settlements : List Settlement) : Prop where
  sound : Sound base.body? [] settlements
  inferred : after.inferred = ⟨settlements.map Settlement.entry⟩
  checks : ∀ site ∈ TopLevel.sitesOf contents,
    ((base.siteScript site).outcome after.inferred).isSome
  written : ∃ total, after.journal = Journal.empty.remarkAll total ∧
    total.Perm (TopLevel.remarks contents ++
      ((TopLevel.sitesOf contents).flatMap fun site =>
          (base.siteScript site).remarks after.inferred) ++
        settlements.flatMap Settlement.remarks)

theorem Laid.exists_finished {contents : List TopLevel} (laid : base.Laid contents)
    (played : base.Played (base.checkScript (TopLevel.sitesOf contents)) base () after)
    (notRecursive : ¬ after.IsRecursive) :
    ∃ settlements, Finished contents base after settlements := by
  obtain ⟨remarks, outcome, settlements, sound, entries, total, journal, perm⟩ :=
    played.gains notRecursive
  rw [laid.inferred] at sound entries
  obtain ⟨checks, rfl⟩ := outcome_checkScript_iff.mp outcome
  refine ⟨settlements, sound, congrArg Table.mk entries, checks,
    TopLevel.remarks contents ++ total, ?_, ?_⟩
  · rw [journal, laid.journal, Journal.remarkAll_append]
  · rw [List.append_assoc]
    exact perm.append_left _

namespace Finished

variable {settlements others : List Settlement}

theorem plain {contents : List TopLevel} (finished : Finished contents base after settlements)
    (notRecursive : ¬ after.IsRecursive) :
    (∀ remark ∈ TopLevel.remarks contents, remark.Plain) ∧
      (∀ site ∈ TopLevel.sitesOf contents,
        ∀ remark ∈ (base.siteScript site).remarks after.inferred, remark.Plain) ∧
        ∀ settlement ∈ settlements, ∀ remark ∈ settlement.remarks, remark.Plain := by
  obtain ⟨total, journal, perm⟩ := finished.written
  have plainTotal := plain_of_not_isRecursive journal notRecursive
  have plainAll remark (isWritten : remark ∈ _) := plainTotal remark (perm.mem_iff.mpr isWritten)
  obtain ⟨plainRest, plainSettled⟩ := List.forall_mem_append.mp plainAll
  obtain ⟨plainDeclared, plainChecked⟩ := List.forall_mem_append.mp plainRest
  exact ⟨plainDeclared,
    fun site isSite remark isWritten =>
      plainChecked remark (List.mem_flatMap.mpr ⟨site, isSite, isWritten⟩),
    fun settlement isSettlement remark isWritten =>
      plainSettled remark (List.mem_flatMap.mpr ⟨settlement, isSettlement, isWritten⟩)⟩

end Finished

/-- The checks of a member come to something in both orders. -/
theorem Reordered.exists_outcome (reordered : Reordered first second base other) {site : Site}
    (isSite : site ∈ TopLevel.sitesOf first) {known : InferredTypes}
    (isSome : ((base.siteScript site).outcome known).isSome) :
    ((other.siteScript site).outcome known).isSome ∧
      List.Forall₂ Remark.Alike ((base.siteScript site).remarks known)
        ((other.siteScript site).remarks known) ∧
        Remark.filled ((base.siteScript site).remarks known) =
          Node.filledOf? site.member.checkedBody? := by
  obtain ⟨⟨value, written⟩, outcome⟩ := Option.isSome_iff_exists.mp isSome
  obtain ⟨another, others, found, -, alike, filled⟩ :=
    (reordered.alike_siteScript isSite).exists_outcome outcome
  rw [found, Script.remarks_of_outcome outcome, Script.remarks_of_outcome found]
  exact ⟨rfl, alike, filled⟩

/-- If nothing depends on itself in one order, nothing does in the other, and no other
types come out. -/
theorem Reordered.follows (reordered : Reordered first second base other)
    (played : base.Played (base.checkScript (TopLevel.sitesOf first)) base () after)
    (playedOther : other.Played (other.checkScript (TopLevel.sitesOf second)) other () afterOther)
    (notRecursive : ¬ after.IsRecursive) :
    ¬ afterOther.IsRecursive ∧ ∀ node type, afterOther.inferred.get? node = some type →
      after.inferred.get? node = some type := by
  obtain ⟨settlements, finished⟩ := reordered.laid.exists_finished played notRecursive
  obtain ⟨plainDeclared, plainChecked, plainSettled⟩ := finished.plain notRecursive
  obtain ⟨others, soundOthers, sameEntries, plainOthers⟩ := reordered.exists_sound finished.sound
  -- The settlements of the first order are a certificate for the second one: a demand there
  -- can only come to what they say, however the demands are nested.
  have complies := complies_demand reordered.laidOther.postpones soundOthers
    (plainOthers plainSettled)
  rw [sameEntries] at complies
  have checks : ∀ site ∈ TopLevel.sitesOf second,
      ((other.siteScript site).outcome after.inferred).isSome ∧
        ∀ remark ∈ (other.siteScript site).remarks after.inferred, remark.Plain := by
    intro site isSite
    have inFirst := reordered.mem_sites_iff.mpr isSite
    obtain ⟨isSome, alike, -⟩ := reordered.exists_outcome inFirst (finished.checks site inFirst)
    exact ⟨isSome, Remark.forall_plain alike (plainChecked site inFirst)⟩
  have outcome := outcome_checkScript_iff.mpr
    ⟨fun site isSite => (checks site isSite).1, rfl⟩
  rw [finished.inferred] at outcome checks
  have notRecursiveBefore : ¬ other.IsRecursive := by
    refine not_isRecursive_of_plain reordered.laidOther.journal fun remark isWritten => ?_
    exact plainDeclared remark
      ((TopLevel.remarks_perm reordered.perm reordered.pairwise).mem_iff.mpr isWritten)
  have plain : ∀ remark ∈ (TopLevel.sitesOf second).flatMap fun site =>
      (other.siteScript site).remarks ⟨settlements.map Settlement.entry⟩, remark.Plain := by
    intro remark isWritten
    obtain ⟨site, isSite, isWritten⟩ := List.mem_flatMap.mp isWritten
    exact (checks site isSite).2 remark isWritten
  obtain ⟨-, tame⟩ := playedOther.complies _ _ () complies outcome plain
    (reordered.laidOther.tame notRecursiveBefore _)
  refine ⟨tame.notRecursive, fun node type known => ?_⟩
  rw [finished.inferred]
  exact tame.within node type known

end ResolutionState

end Gloss
