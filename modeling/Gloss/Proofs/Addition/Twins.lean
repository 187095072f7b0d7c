import Gloss.Proofs.Addition.Origins
import Gloss.Proofs.Order.Enactments

/-!
# Twin scripts

Two scripts about different files are twins if they do the same step by step, whatever types they
are told, as long as these come from the nodes of one of the files.  If all open types of this
file have twin bodies in the other one, an enactment of a script is one of its twin as well: the
same is written down in the same order, and the same is known in the end.
-/

namespace Gloss

open Script

namespace Remark

/-- All types that are shown with a remark, though they are open, are those of some nodes. -/
def Shows (home : NodeRef → Prop) : Remark → Prop
  | .meaning _ (.target target) => ∀ node ∈ target.shownOpen?, home node
  | .meaning _ (.ambiguous candidates) =>
      ∀ candidate ∈ candidates, ∀ node ∈ candidate.shownOpen?, home node
  | .declared _ descriptor => ∀ node ∈ descriptor.shownOpen?, home node
  | .meaning _ .unresolved | .typed _ _ | .problem _ | .arity _ => True

end Remark

namespace Script

variable {isOpen isOpenLater : NodeRef → Bool} {home : NodeRef → Prop} {α β : Type}
  {accept : α → Prop} {acceptLast : β → Prop}

/-- Two scripts that do the same and come to the same, which is accepted. -/
inductive Twin (home : NodeRef → Prop) (accept : α → Prop) :
    Script isOpen α → Script isOpenLater α → Prop
  | done {value : α} (accepted : accept value) : Twin home accept (done value) (done value)
  | write {remark : Option NominalType → Remark} {rest : Script isOpen α}
      {other : Script isOpenLater α} (shows : ∀ shown, (remark shown).Shows home)
      (later : Twin home accept rest other) :
      Twin home accept (write remark rest) (write remark other)
  | ask {node : NodeRef} {asked : isOpen node = true} {askedLater : isOpenLater node = true}
      {next : NominalType → Script isOpen α} {other : NominalType → Script isOpenLater α}
      (later : ∀ type, type.From home → Twin home accept (next type) (other type)) :
      Twin home accept (ask node asked next) (ask node askedLater other)

namespace Twin

variable {script : Script isOpen α} {other : Script isOpenLater α} {next : α → Script isOpen β}
  {otherNext : α → Script isOpenLater β}

theorem of_pure {value : α} (accepted : accept value) :
    Twin home accept (pure value : Script isOpen α) (pure value : Script isOpenLater α) :=
  .done accepted

theorem bind (twin : Twin home accept script other)
    (goesOn : ∀ value, accept value → Twin home acceptLast (next value) (otherNext value)) :
    Twin home acceptLast (script >>= next) (other >>= otherNext) := by
  change Twin home acceptLast (script.bind next) (other.bind otherNext)
  induction twin with
  | done accepted => exact goesOn _ accepted
  | write shows _ ih => exact .write shows ih
  | ask _ ih => exact .ask ih

theorem of_ask {node : NodeRef} (asked : isOpen node = true)
    (askedLater : isOpenLater node = true) :
    Twin home (NominalType.From home) (Script.ask node asked .done)
      (Script.ask node askedLater .done) :=
  .ask fun _ comes => .done comes

theorem of_write {remark : Option NominalType → Remark}
    (shows : ∀ shown, (remark shown).Shows home) :
    Twin home (fun _ => True) (Script.write remark (.done ()) : Script isOpen Unit)
      (Script.write remark (.done ()) : Script isOpenLater Unit) :=
  .write shows (.done trivial)

theorem of_tell {remark : Remark} (shows : remark.Shows home) :
    Twin home (fun _ => True) (tell remark : Script isOpen Unit)
      (tell remark : Script isOpenLater Unit) :=
  of_write fun _ => shows

theorem of_tellAll {remarks : List Remark} (shows : ∀ remark ∈ remarks, remark.Shows home) :
    Twin home (fun _ => True) (tellAll remarks : Script isOpen Unit)
      (tellAll remarks : Script isOpenLater Unit) := by
  induction remarks with
  | nil => exact .done trivial
  | cons remark rest ih =>
      obtain ⟨showsFirst, showsRest⟩ := List.forall_mem_cons.mp shows
      exact .write (fun _ => showsFirst) (ih showsRest)

end Twin

end Script

namespace ResolutionState

/-- Every body that was put off in the one file was put off in the other one, for the same name
and with a twin script. -/
structure Mirrors (home : NodeRef → Prop) (base other : ResolutionState) : Prop where
  deferred : ∀ node deferred, base.deferred.get? node = some deferred →
    ∃ put, other.deferred.get? node = some put ∧ put.name = deferred.name
  bodies : ∀ node script, base.body? node = some script →
    ∃ counterpart, other.body? node = some counterpart ∧
      Script.Twin home (NominalType.From home) script counterpart

/-- All types that are known come from some nodes. -/
def KnownFrom (home : NodeRef → Prop) (known : InferredTypes) : Prop :=
  ∀ node type, known.get? node = some type → type.From home

variable {home : NodeRef → Prop} {base other : ResolutionState} {α : Type} {accept : α → Prop}
  {active : List NodeRef} {script : Script base.isOpenType α}
  {counterpart : Script other.isOpenType α}
  {known after : InferredTypes} {remarks : List Remark} {value : α}

theorem KnownFrom.insert (knownFrom : KnownFrom home known) (node : NodeRef) {type : NominalType}
    (comes : type.From home) : KnownFrom home (known.insert node type) := by
  intro other found isKnown
  rw [Table.get?_insert] at isKnown
  split at isKnown
  · cases isKnown
    exact comes
  · exact knownFrom other found isKnown

/-- What is carried out for a script is carried out for its twin in the other file. -/
theorem Enacts.twin (enacts : base.Enacts active script known remarks value after)
    (mirrors : base.Mirrors home other) (twins : Script.Twin home accept script counterpart)
    (knownFrom : KnownFrom home known) :
    other.Enacts active counterpart known remarks value after ∧ accept value ∧
      KnownFrom home after ∧ ∀ remark ∈ remarks, remark.Shows home := by
  induction enacts with
  | done active value known =>
      cases twins with
      | done accepted =>
          exact ⟨.done active value known, accepted, knownFrom, List.forall_mem_nil _⟩
  | write _ ih =>
      cases twins with
      | write shows twins =>
          obtain ⟨enacts, accepted, afterFrom, showsLater⟩ := ih twins knownFrom
          exact ⟨.write enacts, accepted, afterFrom,
            List.forall_mem_cons.mpr ⟨shows _, showsLater⟩⟩
  | known isKnown _ ih =>
      cases twins with
      | ask twins =>
          obtain ⟨enacts, others⟩ := ih (twins _ (knownFrom _ _ isKnown)) knownFrom
          exact ⟨.known isKnown enacts, others⟩
  | recursive unknown isActive found _ ih =>
      cases twins with
      | ask twins =>
          obtain ⟨put, foundOther, sameName⟩ := mirrors.deferred _ _ found
          obtain ⟨enacts, accepted, afterFrom, showsLater⟩ :=
            ih (twins _ NominalType.from_error) (knownFrom.insert _ NominalType.from_error)
          refine ⟨?_, accepted, afterFrom, List.forall_mem_cons.mpr ⟨trivial, showsLater⟩⟩
          rw [← sameName]
          exact .recursive unknown isActive foundOther enacts
  | inferred unknown isIdle isBody _ _ ihInner ih =>
      cases twins with
      | ask twins =>
          obtain ⟨body, isBodyOther, twinBody⟩ := mirrors.bodies _ _ isBody
          obtain ⟨inner, comes, middleFrom, showsInner⟩ := ihInner twinBody knownFrom
          obtain ⟨enacts, accepted, afterFrom, showsLater⟩ :=
            ih (twins _ comes) (middleFrom.insert _ comes)
          exact ⟨.inferred unknown isIdle isBodyOther inner enacts, accepted, afterFrom,
            List.forall_mem_append.mpr ⟨showsInner, showsLater⟩⟩

end ResolutionState

end Gloss
