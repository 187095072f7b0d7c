import Gloss.Proofs.Typing.Equality
import Gloss.Proofs.Typing.Hygiene

/-!
# Calls of generic members

In a file no type parameter belongs to a class and to one of its functions.  So a call of a member
comes to the same with new constructors for the type parameters of the functions, as long as the
type arguments of its receiver mention none of these.  Where they do, as in the body of such a
function, the receiver's are taken for those of the function that is called.
-/

namespace Gloss

open Gloss.Tree ResolutionState

/-! ### Type parameters of classes and of their functions -/

namespace Tree.TopLevel

variable {contents : List TopLevel} {declaration : Tree.Class} {function : Function}

theorem Distinct.nodup_of_mem (distinct : Distinct contents) {declared : TopLevel}
    (isDeclared : declared ∈ contents) : (declared.node.filled .declaration).Nodup := by
  induction contents with
  | nil => cases isDeclared
  | cons first rest ih =>
      obtain ⟨once, distinctRest, -⟩ := distinct_cons.mp distinct
      rcases List.mem_cons.mp isDeclared with rfl | inRest
      · exact once
      · exact ih distinctRest inRest

theorem mem_filled_typeParameter (parameter : TypeParameter) :
    (Node.typeParameter parameter).ref ∈ (Node.typeParameter parameter).filled .declaration := by
  rw [filled_typeParameter]
  exact Multiset.mem_singleton_self _

/-- A class and a function in it do not declare the same type parameter. -/
theorem Distinct.typeParameter_ne (distinct : Distinct contents)
    (isClass : declaration ∈ classes contents) (isMember : .function function ∈ declaration.members)
    {outer inner : TypeParameter} (isOuter : outer ∈ declaration.typeParameters)
    (isInner : inner ∈ function.typeParameters) :
    (Node.typeParameter outer).ref ≠ (Node.typeParameter inner).ref := by
  have once := distinct.nodup_of_mem (mem_classes.mp isClass)
  rw [filled_eq, Pi.add_apply, Pi.add_apply] at once
  have apart := Multiset.disjoint_of_nodup_add
    (Multiset.nodup_of_le (Multiset.le_add_right _ _) once)
  have inHead : (Node.typeParameter outer).ref ∈ declaration.headFilled .declaration :=
    Multiset.mem_add.mpr (.inl (mem_sum_map isOuter (mem_filled_typeParameter outer)))
  have inMember : (Node.typeParameter inner).ref ∈
      (Member.function function).headFilled .declaration :=
    Multiset.mem_add.mpr (.inl (Multiset.mem_add.mpr
      (.inl (mem_sum_map isInner (mem_filled_typeParameter inner)))))
  have inContent : (Node.typeParameter inner).ref ∈ declaration.contentFilled .declaration :=
    Multiset.mem_add.mpr (.inr (mem_sum_map isMember inMember))
  exact fun same => Multiset.disjoint_left.mp apart inHead (same ▸ inContent)

end Tree.TopLevel

namespace ResolutionState

variable {contents : List TopLevel} {base state : ResolutionState} {name : String}

/-- The type parameters of a member are told from classes, and from those of its class. -/
theorem Laid.unknowns_of_mem_members (laid : base.Laid contents)
    (distinct : TopLevel.Distinct contents) {constructor : TypeConstructor} {entry : ClassEntry}
    (found : base.class? constructor = some entry) {member : Descriptor}
    (isMember : member ∈ entry.members) :
    ∀ unknown ∈ member.unknowns, unknown.kind = .typeParameter ∧
      unknown ∉ entry.descriptor.typeParameters.map TypeParameterDescriptor.constructor := by
  unfold class? at found
  split at found
  · cases found
    cases isMember
  · have library : ∀ entry ∈ Library.classes, ∀ member ∈ entry.members,
        member.unknowns = [] := by decide
    intro unknown isUnknown
    rw [library entry (List.mem_of_find?_eq_some found) member isMember] at isUnknown
    cases isUnknown
  · rcases laid.get?_classes constructor with ⟨declaration, isClass, -, isEntry⟩ | ⟨-, none⟩
    · rw [isEntry] at found
      cases found
      obtain ⟨introduction, isIntroduced, rfl⟩ := List.mem_map.mp isMember
      rcases List.mem_append.mp isIntroduced with isProperty | isDeclared
      · obtain ⟨parameter, -, declared⟩ := List.mem_flatMap.mp isProperty
        obtain ⟨binding, -, rfl⟩ := Option.map_eq_some_iff.mp (Option.mem_toList.mp declared)
        exact List.forall_mem_nil _
      · obtain ⟨inner, isInner, rfl⟩ := List.mem_map.mp isDeclared
        cases inner with
        | property declared => exact List.forall_mem_nil _
        | function declared =>
            intro unknown isUnknown
            obtain ⟨described, isDescribed, rfl⟩ := List.mem_map.mp isUnknown
            obtain ⟨parameter, isParameter, rfl⟩ := List.mem_map.mp isDescribed
            refine ⟨rfl, fun isOuter => ?_⟩
            obtain ⟨described, isDescribed, same⟩ := List.mem_map.mp isOuter
            obtain ⟨outer, isOuter, rfl⟩ := List.mem_map.mp isDescribed
            have origins := congrArg TypeConstructor.origin same
            exact distinct.typeParameter_ne isClass isInner isOuter isParameter
              (Origin.declared.inj origins)
    · rw [none] at found
      cases found
  · cases found

/-- What the type parameters of a class stand for has nothing to do with type variables that are
none of them and that the receiver does not mention. -/
theorem spares_instancesIn {entry : ClassEntry} {receiver : NominalType}
    {unknowns : List TypeConstructor}
    (notKey : ∀ unknown ∈ unknowns,
      unknown ∉ entry.descriptor.typeParameters.map TypeParameterDescriptor.constructor)
    (notMentioned : ∀ argument ∈ receiver.arguments, ∀ constructor ∈ argument.constructors,
      constructor ∉ unknowns) : Signature.Spares (entry.instancesIn receiver) unknowns where
  notKey unknown isUnknown := by
    cases found : (entry.instancesIn receiver).get? unknown with
    | none => rfl
    | some type =>
        exact absurd (List.of_mem_zip (Table.mem_of_get?_ofList found)).1 (notKey unknown isUnknown)
  notMentioned _ type stands :=
    notMentioned type (List.of_mem_zip (Table.mem_of_get?_ofList stands)).2

/-- What a type has under a name are functions and properties.  Their type parameters are told
from what the type parameters of its class stand for, unless its arguments mention them. -/
theorem Laid.exists_run_membersOf (laid : base.Laid contents)
    (distinct : TopLevel.Distinct contents) (classes : state.classes = base.classes)
    (receiver : NominalType) (name : String) :
    ∃ members instances,
      (Resolver.membersOf receiver name).run state = pure ((members, instances), state) ∧
        ∀ member ∈ members,
          (Resolver.isFunction member = true ∨ (Resolver.asProperty? member).isSome) ∧
            (∀ unknown ∈ member.unknowns, unknown.kind = .typeParameter) ∧
              ((∀ argument ∈ receiver.arguments, ∀ constructor ∈ argument.constructors,
                constructor ∉ member.unknowns) → Signature.Spares instances member.unknowns) := by
  have library : ∀ member ∈ Library.anyClass.members,
      Resolver.isFunction member = true ∧ member.unknowns = [] := by decide
  have ofAny (instances : Substitution) (member : Descriptor)
      (isNamed : member ∈ Library.anyClass.membersNamed name) :
      (Resolver.isFunction member = true ∨ (Resolver.asProperty? member).isSome) ∧
        (∀ unknown ∈ member.unknowns, unknown.kind = .typeParameter) ∧
          ((∀ argument ∈ receiver.arguments, ∀ constructor ∈ argument.constructors,
            constructor ∉ member.unknowns) → Signature.Spares instances member.unknowns) := by
    obtain ⟨isFunction, noUnknowns⟩ := library member (List.mem_of_mem_filter isNamed)
    rw [noUnknowns]
    exact ⟨.inl isFunction, List.forall_mem_nil _, fun _ =>
      ⟨List.forall_mem_nil _, fun _ _ _ _ _ => List.not_mem_nil⟩⟩
  have same : state.class? receiver.constructor = base.class? receiver.constructor := by
    rw [class?, class?, classes]
  cases found : state.class? receiver.constructor with
  | none => exact ⟨_, _, Resolver.run_membersOf_of_noClass found name, ofAny _⟩
  | some entry =>
      refine ⟨_, _, Resolver.run_membersOf_of_class found name, fun member isMember => ?_⟩
      split at isMember
      · exact ofAny _ member isMember
      · have inClass := List.mem_of_mem_filter isMember
        have isOwn := laid.unknowns_of_mem_members distinct (same ▸ found) inClass
        exact ⟨laid.isFunction_or_isProperty (same ▸ found) inClass,
          fun unknown isUnknown => (isOwn unknown isUnknown).1,
          spares_instancesIn fun unknown isUnknown => (isOwn unknown isUnknown).2⟩

end ResolutionState

/-! ### Candidates -/

namespace Signature

/-- The signatures of some candidates, each with the type that a function returns, as they are
seen in the receiver. -/
def judged (receiver : Substitution) (typed : List (Descriptor × NominalType)) : List Signature :=
  typed.map fun one => (one.1.declaredSignature one.2).seenThrough receiver

/-- The signatures of some candidates as they are seen in the receiver, once the type parameters
of each have been given new constructors. -/
def judgedAfresh {inSight : List TypeConstructor}
    (freshening : (candidate : Descriptor) → Freshening candidate.unknowns inSight)
    (receiver : Substitution) (typed : List (Descriptor × NominalType)) : List Signature :=
  typed.map fun one =>
    ((one.1.declaredSignature one.2).rename (freshening one.1).fresh).seenThrough receiver

/-- Where the receiver spares the type parameters of all candidates, these can be given new
constructors. -/
theorem restored_judged {inSight : List TypeConstructor} {receiver : Substitution}
    {typed : List (Descriptor × NominalType)} {arguments : List NominalType}
    (freshening : (candidate : Descriptor) → Freshening candidate.unknowns inSight)
    (proper : ∀ one ∈ typed, ∀ unknown ∈ one.1.unknowns, unknown.kind = .typeParameter)
    (spares : ∀ one ∈ typed, Spares receiver one.1.unknowns)
    (seen : ∀ one ∈ typed, (one.1.declaredSignature one.2).inSight receiver arguments ⊆ inSight) :
    List.Forall₂ (Signature.Restored (fun candidate => (freshening candidate).back) arguments)
      (judged receiver typed) (judgedAfresh freshening receiver typed) := by
  unfold judged judgedAfresh
  rw [List.forall₂_map_left_iff, List.forall₂_map_right_iff, List.forall₂_same]
  exact fun one isTyped => one.1.restored_seenThrough freshening (proper one isTyped)
    (spares one isTyped) (seen one isTyped)

end Signature

namespace Resolver

variable {members candidates : List Descriptor}

/-- Of a member, what is called is the function itself or the value of the property. -/
theorem exists_run_asCallable (demand : Demand) {member : Descriptor}
    (callable : isFunction member = true ∨ (asProperty? member).isSome) (before : ResolutionState) :
    ∃ called after, (asCallable demand member).run before = pure (called, after) ∧
      ∀ candidate ∈ called, (candidate = member ∧ isFunction candidate = true) ∨
        ∃ called type, candidate = .invoke called type := by
  cases member with
  | function | specialized =>
      refine ⟨_, before, rfl, fun candidate isCandidate => .inl ?_⟩
      cases isCandidate
      exact ⟨rfl, rfl⟩
  | «variable» holder =>
      refine ⟨_, _, rfl, fun candidate isCandidate => .inr ?_⟩
      obtain ⟨_, -, rfl⟩ := Option.map_eq_some_iff.mp isCandidate
      exact ⟨_, _, rfl⟩
  | _ => simp [isFunction, asProperty?] at callable

/-- Among functions and properties, what can be called are the functions and the values of
properties. -/
theorem exists_run_callables (demand : Demand)
    (callable : ∀ member ∈ members, isFunction member = true ∨ (asProperty? member).isSome)
    (before : ResolutionState) :
    ∃ candidates after, (callables demand members).run before = pure (candidates, after) ∧
      ∀ candidate ∈ candidates, (candidate ∈ members ∧ isFunction candidate = true) ∨
        ∃ called type, candidate = .invoke called type := by
  induction members generalizing before with
  | nil => exact ⟨[], before, rfl, fun _ isCandidate => absurd isCandidate List.not_mem_nil⟩
  | cons member rest ih =>
      obtain ⟨isCallable, areCallable⟩ := List.forall_mem_cons.mp callable
      obtain ⟨called, middle, runsFirst, ofFirst⟩ := exists_run_asCallable demand isCallable before
      obtain ⟨candidates, after, runsRest, ofRest⟩ := ih areCallable middle
      refine ⟨called.toList ++ candidates, after, ?_, fun candidate isCandidate => ?_⟩
      · rw [callables, StateT.run_bind, runsFirst, pure_bind, StateT.run_bind, runsRest]
        rfl
      · rcases List.mem_append.mp isCandidate with isFirst | isLater
        · refine (ofFirst candidate (Option.mem_toList.mp isFirst)).imp_left ?_
          rintro ⟨rfl, function⟩
          exact ⟨List.mem_cons_self, function⟩
        · exact (ofRest candidate isLater).imp_left fun both =>
            ⟨List.mem_cons_of_mem _ both.1, both.2⟩

/-- Candidates other than classes are judged by what they declare, seen through what the type
parameters of the receiver's class stand for. -/
theorem exists_run_signatures (demand : Demand) (receiver : Substitution)
    (noClass : ∀ candidate ∈ candidates, ∀ descriptor, candidate ≠ .class descriptor)
    (before : ResolutionState) :
    ∃ (typed : List (Descriptor × NominalType)) (after : ResolutionState),
      typed.map Prod.fst = candidates ∧
      (signatures demand receiver candidates).run before =
        pure (Signature.judged receiver typed, after) := by
  have judges (candidate : Descriptor) (notClass : ∀ descriptor, candidate ≠ .class descriptor)
      (state : ResolutionState) : ∃ result after,
        (signature demand receiver candidate).run state =
          pure ((candidate.declaredSignature result).seenThrough receiver, after) := by
    cases candidate with
    | function declared =>
        let returned := (returnType demand declared).run state
        refine ⟨returned.1, returned.2, ?_⟩
        simp only [Descriptor.declaredSignature, Signature.seenThrough, List.map_map]
        rfl
    | «class» descriptor => exact absurd rfl (notClass descriptor)
    | _ => exact ⟨.error, state, rfl⟩
  induction candidates generalizing before with
  | nil => exact ⟨[], before, rfl, rfl⟩
  | cons candidate rest ih =>
      obtain ⟨notClass, areNone⟩ := List.forall_mem_cons.mp noClass
      obtain ⟨result, middle, runsFirst⟩ := judges candidate notClass before
      obtain ⟨typed, after, same, runsRest⟩ := ih areNone middle
      refine ⟨(candidate, result) :: typed, after, by rw [List.map_cons, same], ?_⟩
      rw [signatures, StateT.run_bind, runsFirst, pure_bind, StateT.run_bind, runsRest]
      rfl

variable {name : String} {text : List Char} {resolution : Resolution} {receiver : NominalType}

/-- In every state of a file, a call of a member comes to the choice among the functions and the
callable properties of the receiver.  As long as its type arguments do not mention type parameters
of these functions, the same candidates accept the arguments, and the same is chosen with the same
result, when these type parameters are given new constructors first, whatever the arguments
mention. -/
theorem member_call_restored (readable : Resolution.read name text = .ok resolution)
    (demand : Demand) (before : ResolutionState)
    (classes : before.classes = resolution.state.classes) (sound : receiver.isError = false)
    (selector : SimpleName) (arguments : List NominalType) :
    ∃ members instances candidates middle typed after result,
      (membersOf receiver selector.text).run before = pure ((members, instances), before) ∧
        (callables demand members).run before = pure (candidates, middle) ∧
          typed.map Prod.fst = candidates ∧
            (signatures demand instances candidates).run middle =
              pure (Signature.judged instances typed, after) ∧
              result = CallResult.ofChoice after.inferred selector.text candidates.length arguments
                  (Choice.among (Signature.judged instances typed) arguments) ∧
                (resolveMemberCall demand receiver selector arguments).run before =
                  pure (result.type, after.remarkAll
                    (result.remarks selector.node.ref ++
                      [.typed selector.node.ref result.type])) ∧
                ((∀ member ∈ members, ∀ argument ∈ receiver.arguments,
                    ∀ constructor ∈ argument.constructors, constructor ∉ member.unknowns) →
                  ∀ inSight, (∀ one ∈ typed,
                      (one.1.declaredSignature one.2).inSight instances arguments ⊆ inSight) →
                    ∀ freshening : (candidate : Descriptor) →
                        Freshening candidate.unknowns inSight,
                      let back := fun candidate => (freshening candidate).back
                      let judged := Signature.judged instances typed
                      let afresh := Signature.judgedAfresh freshening instances typed
                      Choice.RestoresAll back (Choice.accepted judged arguments)
                          (Choice.accepted afresh arguments) ∧
                        Choice.Restored back (Choice.among judged arguments)
                          (Choice.among afresh arguments)) := by
  obtain ⟨file, parsed, rfl⟩ := Resolution.eq_ofFile_of_read readable
  have once := (Grammar.wellPlaced_of_read parsed).fillsOnce
  obtain ⟨base, laid, -, continues⟩ := exists_played file once
  obtain ⟨members, instances, looked, ofMembers⟩ :=
    laid.exists_run_membersOf once.distinct (classes.trans continues.classes) receiver selector.text
  obtain ⟨candidates, middle, called, ofCandidates⟩ :=
    exists_run_callables demand (fun member isMember => (ofMembers member isMember).1) before
  have noClass : ∀ candidate ∈ candidates, ∀ descriptor, candidate ≠ .class descriptor := by
    intro candidate isCandidate descriptor
    rcases ofCandidates candidate isCandidate with ⟨-, function⟩ | ⟨_, _, rfl⟩
    · rintro rfl
      cases function
    · intro isClass
      cases isClass
  obtain ⟨typed, after, same, judges⟩ := exists_run_signatures demand instances noClass middle
  refine ⟨members, instances, candidates, middle, typed, after, _, looked, called, same, judges,
    rfl, ?_, fun notMentioned inSight seen freshening => ?_⟩
  · have resolved := run_resolveCall judges selector.text arguments selector.node.ref
    rw [resolveMemberCall, if_neg (ne_true_of_eq_false sound), StateT.run_bind, looked, pure_bind,
      StateT.run_bind, called, pure_bind, StateT.run_bind, resolved, pure_bind, remarkAll_append]
    rfl
  · -- The value of a property has no type parameters, so only members matter.
    have ofTyped : ∀ one ∈ typed, (∀ unknown ∈ one.1.unknowns, unknown.kind = .typeParameter) ∧
        Signature.Spares instances one.1.unknowns := by
      intro one isTyped
      have isCandidate : one.1 ∈ candidates := same ▸ List.mem_map_of_mem isTyped
      rcases ofCandidates one.1 isCandidate with
        ⟨isMember, -⟩ | ⟨called, type, isInvoke⟩
      · obtain ⟨-, proper, spares⟩ := ofMembers one.1 isMember
        exact ⟨proper, spares (notMentioned one.1 isMember)⟩
      · rw [isInvoke]
        have none {unknown : TypeConstructor} : unknown ∉ (Descriptor.invoke called type).unknowns :=
          List.not_mem_nil
        exact ⟨fun _ isUnknown => absurd isUnknown none,
          fun _ isUnknown => absurd isUnknown none, fun _ _ _ _ _ => none⟩
    have restored := Signature.restored_judged freshening
      (fun one isTyped => (ofTyped one isTyped).1) (fun one isTyped => (ofTyped one isTyped).2) seen
    exact ⟨Choice.RestoresAll.accepted restored, Choice.among_restored restored⟩

/-- A function that puts something into a box is called in its own body, on a box of what the class
is about: its type parameter is among the arguments, and not in the receiver. -/
theorem member_call_restored_in_own_body :
    ∃ resolution receiver arguments members instances typed best other,
      Resolution.read "sample" ("class Box<T>(val v: T) \x7b\n" ++
          "fun <U> put(t: T, u: U): T = Box(v).put(t, u)\n\x7d").toList = .ok resolution ∧
        resolution.type? ⟨.call, ⟨54, 60⟩⟩ = some receiver ∧
          ([⟨.name, ⟨65, 66⟩⟩, ⟨.name, ⟨68, 69⟩⟩] : List NodeRef).mapM resolution.type? =
              some arguments ∧
            (membersOf receiver "put").run resolution.state =
                pure ((members, instances), resolution.state) ∧
              (∃ member ∈ members, ∃ argument ∈ arguments,
                argument.constructor ∈ member.unknowns) ∧
                typed.map Prod.fst = members ∧
                let inSight := typed.flatMap fun one =>
                  (one.1.declaredSignature one.2).inSight instances arguments
                let fresh (candidate : Descriptor) : Freshening candidate.unknowns inSight :=
                  .ofArity _ _
                Choice.among (Signature.judged instances typed) arguments = .chosen best ∧
                  Choice.among (Signature.judgedAfresh fresh instances typed) arguments =
                      .chosen other ∧
                    best.Restored (fresh best.candidate).back other := by
  have checked :
      ((Resolution.read "sample" ("class Box<T>(val v: T) \x7b\n" ++
          "fun <U> put(t: T, u: U): T = Box(v).put(t, u)\n\x7d").toList).toOption.any
        fun resolution => decide (∃ receiver ∈ resolution.type? ⟨.call, ⟨54, 60⟩⟩,
          ∃ arguments ∈
              ([⟨.name, ⟨65, 66⟩⟩, ⟨.name, ⟨68, 69⟩⟩] : List NodeRef).mapM resolution.type?,
            receiver.isError = false ∧
              let found := ((membersOf receiver "put").run resolution.state).1
              (∀ member ∈ found.1, isFunction member = true ∧
                ∀ argument ∈ receiver.arguments,
                  ∀ constructor ∈ argument.constructors, constructor ∉ member.unknowns) ∧
                (∃ member ∈ found.1, ∃ argument ∈ arguments,
                  argument.constructor ∈ member.unknowns) ∧
                  (match Choice.among ((signatures Resolver.demand found.2 found.1).run
                      resolution.state).1 arguments with
                    | .chosen _ => true
                    | _ => false) = true)) = true := by
    decide +kernel
  obtain ⟨resolution, readable, receiver, isReceiver, arguments, areArguments, sound, functions,
    mentioned, isChosen⟩ := Resolution.exists_of_read checked
  obtain ⟨members, instances, candidates, middle, typed, after, result, looked, called, same,
    judges, -, -, restores⟩ := member_call_restored readable Resolver.demand resolution.state rfl sound
      ⟨⟨61, 64⟩, "put"⟩ arguments
  have found : ((membersOf receiver "put").run resolution.state).1 = (members, instances) :=
    congrArg Prod.fst looked
  rw [found] at functions mentioned isChosen
  rw [callables_of_isFunction fun member isMember => (functions member isMember).1] at called
  obtain ⟨rfl, rfl⟩ : members = candidates ∧ resolution.state = middle := Prod.mk.inj called
  have judged : ((signatures Resolver.demand instances members).run resolution.state).1 =
      Signature.judged instances typed := congrArg Prod.fst judges
  obtain ⟨-, restored⟩ := restores (fun member isMember => (functions member isMember).2)
    (typed.flatMap fun one => (one.1.declaredSignature one.2).inSight instances arguments)
    (fun one isTyped _ inSight => List.mem_flatMap.mpr ⟨one, isTyped, inSight⟩)
    fun candidate => .ofArity candidate.unknowns _
  simp only [judged] at isChosen
  generalize isAfresh : Choice.among (Signature.judgedAfresh _ instances typed) arguments = afresh
    at restored
  generalize isJudged : Choice.among (Signature.judged instances typed) arguments = first
    at restored isChosen
  cases restored with
  | chosen restored =>
      exact ⟨resolution, receiver, arguments, members, instances, typed, _, _, readable, isReceiver,
        areArguments, looked, mentioned, same, isJudged, isAfresh, restored⟩
  | _ => cases isChosen

/-- A function that puts something into a box, called in its own body on a box of what it is about
itself: the number does not fit, as the type parameter of the receiver is taken for that of the
function that is called.  With a new constructor for the latter it fits. -/
theorem not_member_call_restored_of_captured :
    ∃ resolution receiver arguments members instances typed,
      Resolution.read "sample" ("class Box<T>(val v: T) \x7b\n" ++
          "fun <U> put(t: T, u: U): T \x7b\nval r = Box(u).put(u, 2)\n\x7d\n\x7d").toList =
          .ok resolution ∧
        resolution.type? ⟨.call, ⟨62, 68⟩⟩ = some receiver ∧
          ([⟨.name, ⟨73, 74⟩⟩, ⟨.integer, ⟨76, 77⟩⟩] : List NodeRef).mapM resolution.type? =
              some arguments ∧
            ((membersOf receiver "put").run resolution.state).1 = (members, instances) ∧
              typed.map Prod.fst = members ∧
                ((signatures Resolver.demand instances members).run resolution.state).1 =
                  Signature.judged instances typed ∧
                  let inSight := typed.flatMap fun one =>
                    (one.1.declaredSignature one.2).inSight instances arguments
                  let fresh (candidate : Descriptor) : Freshening candidate.unknowns inSight :=
                    .ofArity _ _
                  Choice.accepted (Signature.judged instances typed) arguments = [] ∧
                    (Choice.accepted (Signature.judgedAfresh fresh instances typed) arguments).map
                        Applicable.candidate = members ∧
                      members ≠ [] ∧
                      resolution.diagnostics.map (fun found => (found.problem.label, found.node)) =
                        [("argument-mismatch", ⟨.name, ⟨69, 72⟩⟩)] := by
  have checked :
      ((Resolution.read "sample" ("class Box<T>(val v: T) \x7b\n" ++
          "fun <U> put(t: T, u: U): T \x7b\nval r = Box(u).put(u, 2)\n\x7d\n\x7d").toList
        ).toOption.any fun resolution => decide (∃ receiver ∈ resolution.type? ⟨.call, ⟨62, 68⟩⟩,
          ∃ arguments ∈
              ([⟨.name, ⟨73, 74⟩⟩, ⟨.integer, ⟨76, 77⟩⟩] : List NodeRef).mapM resolution.type?,
            let found := ((membersOf receiver "put").run resolution.state).1
            let typed := found.1.map fun member =>
              (member, (member.resultType? resolution.state.inferred).getD .error)
            typed.map Prod.fst = found.1 ∧
              ((signatures Resolver.demand found.2 found.1).run resolution.state).1 =
                  Signature.judged found.2 typed ∧
                let inSight := typed.flatMap fun one =>
                  (one.1.declaredSignature one.2).inSight found.2 arguments
                let fresh (candidate : Descriptor) : Freshening candidate.unknowns inSight :=
                  .ofArity _ _
                Choice.accepted (Signature.judged found.2 typed) arguments = [] ∧
                  (Choice.accepted (Signature.judgedAfresh fresh found.2 typed) arguments).map
                      Applicable.candidate = found.1 ∧
                    found.1 ≠ [] ∧
                    resolution.diagnostics.map (fun found => (found.problem.label, found.node)) =
                      [("argument-mismatch", ⟨.name, ⟨69, 72⟩⟩)])) = true := by
    decide +kernel
  obtain ⟨resolution, readable, receiver, isReceiver, arguments, areArguments, rest⟩ :=
    Resolution.exists_of_read checked
  exact ⟨resolution, receiver, arguments, _, _, _, readable, isReceiver, areArguments, rfl, rest⟩

end Resolver

end Gloss
