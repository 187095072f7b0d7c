import Gloss.Proofs.Audit.Candidates
import Gloss.Proofs.Audit.Runs

/-!
# The audit of declaring

Declaring fills the slots of the heads and never lapses: a class is found again
when its members are declared.  The expressions that decide open types are put
off, each for its own declaration, and count from then on.
-/

namespace Gloss

namespace Tree

namespace Member

/-- The declaration whose type is put off when a member is declared, if any. -/
def opened (member : Member) : Multiset NodeRef :=
  if member.openBody?.isSome then {member.node.ref} else 0

theorem mem_opened {member : Member} (isOpen : member.openBody?.isSome) :
    member.node.ref ∈ member.opened := by
  rw [opened, if_pos isOpen]
  exact Multiset.mem_singleton_self _

/-- What declaring a member adds to a ledger. -/
def headTally (member : Member) : Tally :=
  .filling member.headFilled + (member.openBody?.map Expr.tally).getD 0

end Member

namespace TopLevel

/-- What declaring the members of a declaration adds to a ledger. -/
def contentTally (declared : TopLevel) : Tally :=
  (declared.constructorParameters.map fun parameter =>
    Tally.filling (Node.constructorParameter parameter).filled).sum +
      (declared.members.map Member.headTally).sum

theorem contentTally_member (member : Member) :
    (TopLevel.member member).contentTally = member.headTally := by
  simp [contentTally, constructorParameters]

end TopLevel

theorem TypeRef.tally?_eq (type : Option TypeRef) :
    tally? type = .filling (Node.filledOf? (type.map Node.type)) := by
  cases type <;> rfl

end Tree

namespace Audit

open ResolutionState

variable {promised : List NodeRef} {before : Ledger}

theorem carries_openScope (parent : Nat) (name kind : String) :
    Carries promised before (openScope parent name kind) (Resolver.openScope parent name kind) 0 0
      fun _ _ => True :=
  (Carries.of_arranges (arranges_openScope before.state parent name kind)).weaken
    fun _ _ _ _ => trivial

theorem carries_define (scope : Nat) {symbol : Symbol Descriptor} (node : NodeRef)
    (sound : symbol.Sound promised) :
    Carries promised before (define scope symbol node) (Resolver.define scope symbol node) 0 0
      fun _ _ => True :=
  (Carries.of_arranges (arranges_define before.state scope node sound)).weaken
    fun _ _ _ _ => trivial

theorem carries_addMember (owner : Option ClassDescriptor) {member : Descriptor}
    (sound : member.Sound promised) :
    Carries promised before (addMember owner member) (Resolver.addMember owner member) 0 0
      fun _ _ => True :=
  (Carries.of_arranges (arranges_addMember before.state owner sound)).weaken
    fun _ _ _ _ => trivial

theorem carries_resolveType (scope : Nat) (type : Tree.TypeRef) :
    Carries promised before (resolveType scope type) (Resolver.resolveType scope type) 0
      type.tally fun value _ => value.isSaturated = true :=
  Carries.of_mirrors fun firm => mirrors_resolveType firm scope type

theorem carries_resolveType? (scope : Nat) (type : Option Tree.TypeRef) :
    Carries promised before (resolveType? scope type) (Resolver.resolveType? scope type) 0
      (Tree.TypeRef.tally? type)
      fun value _ => value.isSome = type.isSome ∧ ∀ found ∈ value, found.isSaturated = true :=
  Carries.of_mirrors fun firm => mirrors_resolveType? firm scope type

theorem carries_declareTypeParameters (scope : Nat) (container : Option String)
    (parameters : List Tree.TypeParameter) :
    Carries promised before (declareTypeParameters scope container parameters)
      (Resolver.declareTypeParameters scope container parameters) 0
      (parameters.map fun parameter => Tally.filling (Node.typeParameter parameter).filled).sum
      fun value _ => ∀ described ∈ value, described.constructor.isPlain = true := by
  induction parameters generalizing before with
  | nil => exact .of_pure fun _ none => absurd none List.not_mem_nil
  | cons parameter rest ih =>
      rw [List.map_cons, List.sum_cons, filled_typeParameter]
      have sound : (Descriptor.typeParameter
          { name := parameter.name, declaration := some (Node.typeParameter parameter).ref, container
            constructor :=
              { origin := .declared (Node.typeParameter parameter).ref
                name := parameter.name, kind := .typeParameter } }).Sound promised :=
        ⟨rfl, fun leavesOpen => leavesOpen.elim⟩
      apply (carries_define scope _ ⟨sound, fun _ => rfl⟩).after
      intro _ _ _ _
      apply Carries.cast _ (zero_add 0) rfl
      apply (Carries.of_declare ⟨rfl, rfl⟩ sound).bind
      intro _ _ _ _
      apply ih.andThen
      intro later _ _ plain
      exact .of_pure (List.forall_mem_cons.mpr ⟨rfl, plain⟩)

theorem carries_declareClass (declaration : Tree.Class) :
    Carries promised before (declareClass declaration) (Resolver.declareClass declaration) 0
      (.filling declaration.headFilled) fun _ after => after.ReadyClass declaration := by
  rw [Tree.Class.headFilled, Tally.filling_add, Tally.filling_sum]
  apply (carries_openScope _ _ _).after
  intro header _ _ _
  apply Carries.cast _ (zero_add 0) rfl
  apply (carries_declareTypeParameters header _ _).bind
  intro typeParameters _ _ plain
  have sound : (Descriptor.class
      { name := declaration.name, declaration := some (Node.class declaration).ref
        constructor :=
          { origin := .declared (Node.class declaration).ref
            name := declaration.name, kind := .class }
        typeParameters }).Sound promised :=
    ⟨Bool.and_eq_true_iff.mpr ⟨rfl, List.all_eq_true.mpr plain⟩, fun leavesOpen => leavesOpen.elim⟩
  apply (carries_define _ _ ⟨sound, fun _ => rfl⟩).after
  intro _ _ _ _
  apply (Carries.of_declare ⟨rfl, rfl⟩ sound).andThen
  intro _ middle _ found
  apply (Carries.of_arranges (arranges_addClass _ _ _ _)).weaken
  intro _ _ _ ran
  cases ran
  exact ⟨⟨_, found⟩, Table.isSome_get?_insert_self _ _ _⟩

theorem carries_declareParameters (scope : Nat) (function : FunctionDescriptor)
    (pairs : List (Tree.ValueParameter × ParameterDescriptor))
    {parameters : List Tree.ValueParameter} (firsts : pairs.map Prod.fst = parameters)
    (described : ∀ pair ∈ pairs, pair.2.declaration = some (Node.valueParameter pair.1).ref ∧
      pair.2.type.isSaturated = true) :
    Carries promised before (declareParameters scope function pairs)
      (Resolver.declareParameters scope function pairs) 0
      (parameters.map fun parameter => Tally.filling (Node.valueParameter parameter).filled).sum
      fun _ _ => True := by
  subst firsts
  induction pairs generalizing before with
  | nil => exact .of_pure trivial
  | cons pair rest ih =>
      obtain ⟨parameter, describedAs⟩ := pair
      obtain ⟨⟨declared, saturated⟩, describedRest⟩ := List.forall_mem_cons.mp described
      rw [List.map_cons, List.map_cons, List.sum_cons, filled_valueParameter, Tally.filling_add,
        add_assoc]
      have sound : (Descriptor.variable
          (.parameter (.function function) describedAs)).Sound promised :=
        ⟨saturated, fun leavesOpen => leavesOpen.elim⟩
      apply Carries.cast _ (zero_add 0) rfl
      apply (carries_resolveType scope parameter.type).bind
      intro _ _ _ _
      apply (carries_define scope _
        ⟨sound, fun isClassifier => Bool.noConfusion isClassifier⟩).after
      intro _ _ _ _
      apply Carries.cast _ (zero_add 0) rfl
      have introduces : (Descriptor.variable
          (.parameter (.function function) describedAs)).Introduces
            (Node.valueParameter parameter).ref :=
        ⟨declared, .inl rfl⟩
      apply (Carries.of_declare introduces sound).bind
      intro _ _ _ _
      exact ih describedRest

/-- The descriptors of parameters belong to their nodes and have saturated types. -/
theorem described_of_mem_describeParameters {classifiers : Classifiers}
    (plain : classifiers.ArePlain) (parameters : List Tree.ValueParameter)
    {pair : Tree.ValueParameter × ParameterDescriptor}
    (member : pair ∈ parameters.zip (Resolver.describeParameters classifiers parameters)) :
    pair.2.declaration = some (Node.valueParameter pair.1).ref ∧
      pair.2.type.isSaturated = true := by
  obtain ⟨index, inRange, rfl⟩ := List.mem_iff_getElem.mp member
  simp [Resolver.describeParameters, Tree.TypeRef.isSaturated_denote plain]

theorem isSaturated_describeParameters {classifiers : Classifiers}
    (plain : classifiers.ArePlain) (parameters : List Tree.ValueParameter) :
    ∀ described ∈ Resolver.describeParameters classifiers parameters,
      described.type.isSaturated = true := by
  intro described isDescribed
  obtain ⟨index, inRange, rfl⟩ := List.mem_mapIdx.mp isDescribed
  exact Tree.TypeRef.isSaturated_denote plain _

/-- The return type is saturated as far as it is clear, and open only where an
expression decides it. -/
theorem isSaturated_describeReturnType {classifiers : Classifiers}
    (plain : classifiers.ArePlain) (function : Tree.Function) :
    (Resolver.describeReturnType classifiers function).all NominalType.isSaturated = true ∧
      (Resolver.describeReturnType classifiers function = none →
        (Tree.Member.function function).openBody?.isSome) := by
  cases returned : function.returnType <;> cases body : function.body <;>
    simp [Resolver.describeReturnType, Tree.Member.openBody?, returned, body,
      Tree.TypeRef.isSaturated_denote plain]
  rfl

/-- What is known of a function from its head is sound. -/
theorem sound_describedFunction {classifiers : Classifiers} (plain : classifiers.ArePlain)
    (function : Tree.Function)
    (kept : ∀ node ∈ (Tree.Member.function function).opened, node ∈ promised)
    (container : Option String) (typeParameters : List TypeParameterDescriptor) :
    (Descriptor.function
      { name := function.name, declaration := some (Node.function function).ref
        container, typeParameters
        parameters := Resolver.describeParameters classifiers function.parameters
        returnType := Resolver.describeReturnType classifiers function }).Sound promised := by
  obtain ⟨saturated, isOpen⟩ := isSaturated_describeReturnType plain function
  refine ⟨Bool.and_eq_true_iff.mpr ⟨?_, saturated⟩, fun leavesOpen => ⟨_, ?_, rfl⟩⟩
  · exact List.all_eq_true.mpr (isSaturated_describeParameters plain function.parameters)
  · exact kept _ (Tree.Member.mem_opened (isOpen leavesOpen))

/-- An expression that decides an open type is put off. -/
theorem carries_defer {member : Tree.Member} (node : NodeRef) (name : String) (body : Tree.Expr)
    (scope : Nat) (ready : before.state.ReadyMember member) :
    Carries promised before (defer node name body scope) (Resolver.defer node name body scope)
      {node} body.tally fun _ after => after.ReadyMember member := by
  intro firm faithful distinct
  obtain ⟨value, after, ran, same, carried, -⟩ :=
    Carries.of_defer node name body scope firm faithful distinct
  exact ⟨value, after, ran, same, carried, ready.retained carried.retains carried.firm⟩

theorem carries_declareFunction (scope : Nat) (owner : Option ClassDescriptor)
    (function : Tree.Function)
    (kept : ∀ node ∈ (Tree.Member.function function).opened, node ∈ promised) :
    Carries promised before (declareFunction scope owner function)
      (Resolver.declareFunction scope owner function) (Tree.Member.function function).opened
      (Tree.Member.function function).headTally
      fun _ after => after.ReadyMember (.function function) := by
  rw [Tree.Member.headTally, Tree.Member.headFilled]
  simp only [Tally.filling_add, Tally.filling_sum, ← Tree.TypeRef.tally?_eq, add_assoc]
  apply (carries_openScope _ _ _).after
  intro inner _ _ _
  apply Carries.cast _ (zero_add _) rfl
  apply (carries_declareTypeParameters inner none _).bind
  intro typeParameters opened _ _
  apply Carries.of_firm
  intro firm
  apply Carries.of_current
  have plain := firm.arePlain_classifiers inner
  have sound := sound_describedFunction plain function kept (owner.map ClassDescriptor.name)
    typeParameters
  have sameLength : function.parameters.length ≤
      (Resolver.describeParameters (opened.state.classifiers inner) function.parameters).length := by
    simp [Resolver.describeParameters]
  apply Carries.cast _ (zero_add _) rfl
  apply (carries_declareParameters inner _ _ (List.map_fst_zip sameLength)
    fun _ => described_of_mem_describeParameters plain function.parameters).bind
  intro _ _ _ _
  apply Carries.cast _ (zero_add _) rfl
  apply (carries_resolveType? inner function.returnType).bind
  intro _ _ _ _
  apply (carries_define scope _ ⟨sound, fun isClassifier => Bool.noConfusion isClassifier⟩).after
  intro _ _ _ _
  apply (carries_addMember owner sound).after
  intro _ _ _ _
  apply Carries.cast _ (zero_add _) rfl
  apply (Carries.of_declare ⟨rfl, rfl⟩ sound).bind
  intro _ _ _ found
  apply (Carries.of_arranges (arranges_functionScope _ _ inner)).after
  intro _ later _ ran
  have ready : later.state.ReadyMember (.function function) := by
    rw [← (Prod.mk.inj ran).2]
    exact ⟨⟨_, found⟩, Table.isSome_get?_insert_self _ _ _⟩
  cases returned : function.returnType with
  | some type =>
      simp only [Tree.Member.opened, Tree.Member.openBody?, returned]
      exact .of_pure ready
  | none =>
      cases body : function.body with
      | block block =>
          simp only [Tree.Member.opened, Tree.Member.openBody?, returned, body]
          exact .of_pure ready
      | expression value =>
          simp only [Tree.Member.opened, Tree.Member.openBody?, returned, body]
          exact carries_defer _ _ _ _ ready

theorem quiet_describePropertyType (property : Tree.Property) (written : Option NominalType) :
    (Resolver.describePropertyType property written).Quiet := by
  unfold Resolver.describePropertyType
  cases written with
  | some type => exact Resolver.quiet_pure _
  | none =>
      cases property.initializer with
      | some initializer => exact Resolver.quiet_pure _
      | none => exact (Resolver.quiet_report _ _).bind fun _ => Resolver.quiet_pure _

/-- The type of a property is open only where an initializer decides it. -/
theorem carries_describePropertyType (property : Tree.Property) {written : Option NominalType}
    (saturated : ∀ type ∈ written, type.isSaturated = true) :
    Carries promised before (follow (Resolver.describePropertyType property written))
      (Resolver.describePropertyType property written) 0 0
      fun type _ => type.all NominalType.isSaturated = true ∧
        (type = none → written = none ∧ property.initializer.isSome) := by
  refine Carries.of_mirrors fun _ =>
    .of_quiet (quiet_describePropertyType property written) fun state => ?_
  unfold Resolver.describePropertyType
  cases written with
  | some type => exact ⟨saturated type rfl, nofun⟩
  | none =>
      cases property.initializer with
      | some initializer => exact ⟨rfl, fun _ => ⟨rfl, rfl⟩⟩
      | none => exact ⟨rfl, nofun⟩

theorem carries_declareProperty (scope initializerScope : Nat) (owner : Option ClassDescriptor)
    (property : Tree.Property)
    (kept : ∀ node ∈ (Tree.Member.property property).opened, node ∈ promised) :
    Carries promised before (declareProperty scope initializerScope owner property)
      (Resolver.declareProperty scope initializerScope owner property)
      (Tree.Member.property property).opened (Tree.Member.property property).headTally
      fun _ after => after.ReadyMember (.property property) := by
  rw [Tree.Member.headTally, Tree.Member.headFilled, Tally.filling_add,
    ← Tree.TypeRef.tally?_eq, add_assoc]
  apply Carries.cast _ (zero_add _) rfl
  apply (carries_resolveType? scope property.type).bind
  intro written _ _ resolved
  apply (carries_describePropertyType property resolved.2).after
  intro type _ _ described
  have sound : (Descriptor.variable (.property
      { name := property.name, declaration := some (Node.property property).ref
        container := owner.map ClassDescriptor.name, type
        binding := property.binding })).Sound promised := by
    refine ⟨described.1, fun leavesOpen => ⟨_, ?_, rfl⟩⟩
    obtain ⟨notWritten, initialized⟩ := described.2 leavesOpen
    have untyped : property.type = none := by
      rw [← Option.isNone_iff_eq_none, ← Option.not_isSome, ← resolved.1, notWritten]
      rfl
    refine kept _ (Tree.Member.mem_opened ?_)
    simpa only [Tree.Member.openBody?, untyped] using initialized
  apply (carries_define scope _ ⟨sound, fun isClassifier => Bool.noConfusion isClassifier⟩).after
  intro _ _ _ _
  apply (carries_addMember owner sound).after
  intro _ _ _ _
  apply Carries.cast _ (zero_add _) rfl
  refine Carries.bind (Carries.of_declare ⟨rfl, .inl rfl⟩ sound) ?_
  intro _ _ _ found
  apply (Carries.of_arranges (arranges_initializerScope _ _ initializerScope)).after
  intro _ later _ ran
  have ready : later.state.ReadyMember (.property property) := by
    rw [← (Prod.mk.inj ran).2]
    exact ⟨⟨_, found⟩, Table.isSome_get?_insert_self _ _ _⟩
  cases typed : property.type with
  | some type =>
      simp only [Tree.Member.opened, Tree.Member.openBody?, typed]
      exact .of_pure ready
  | none =>
      cases initialized : property.initializer with
      | none =>
          simp only [Tree.Member.opened, Tree.Member.openBody?, typed, initialized]
          exact .of_pure ready
      | some value =>
          simp only [Tree.Member.opened, Tree.Member.openBody?, typed, initialized]
          exact carries_defer _ _ _ _ ready

theorem carries_declareMember (scope initializerScope : Nat) (owner : Option ClassDescriptor)
    (member : Tree.Member) (kept : ∀ node ∈ member.opened, node ∈ promised) :
    Carries promised before (declareMember scope initializerScope owner member)
      (Resolver.declareMember scope initializerScope owner member) member.opened member.headTally
      fun _ after => after.ReadyMember member := by
  cases member with
  | function function => exact carries_declareFunction scope owner function kept
  | property property => exact carries_declareProperty scope initializerScope owner property kept

theorem carries_declareMembers (scope initializerScope : Nat) (owner : ClassDescriptor)
    (members : List Tree.Member)
    (kept : ∀ member ∈ members, ∀ node ∈ member.opened, node ∈ promised) :
    Carries promised before (declareMembers scope initializerScope owner members)
      (Resolver.declareMembers scope initializerScope owner members)
      (members.map Tree.Member.opened).sum (members.map Tree.Member.headTally).sum
      fun _ after => ∀ member ∈ members, after.ReadyMember member := by
  induction members generalizing before with
  | nil => exact .of_pure fun _ none => absurd none List.not_mem_nil
  | cons member rest ih =>
      obtain ⟨keptFirst, keptRest⟩ := List.forall_mem_cons.mp kept
      simp only [List.map_cons, List.sum_cons]
      apply ((carries_declareMember scope initializerScope (some owner) member
        keptFirst).bindRetaining (fun _ _ retains firm ready => ready.retained retains firm)
          fun _ _ _ => ih keptRest).weaken
      exact fun _ _ _ ready => List.forall_mem_cons.mpr ready

/-- A constructor parameter is a parameter in the constructor, and a property
elsewhere if it has a binding. -/
theorem carries_declareConstructorParameters (header members constructor : Nat)
    (owner : ClassDescriptor) (index : Nat) (parameters : List Tree.ConstructorParameter) :
    Carries promised before
      (declareConstructorParameters header members constructor owner index parameters)
      (Resolver.declareConstructorParameters header members constructor owner index parameters) 0
      (parameters.map fun parameter =>
        Tally.filling (Node.constructorParameter parameter).filled).sum
      fun _ _ => True := by
  induction parameters generalizing before index with
  | nil => exact .of_pure trivial
  | cons parameter rest ih =>
      rw [List.map_cons, List.sum_cons, filled_constructorParameter, Tally.filling_add, add_assoc]
      apply Carries.cast _ (zero_add 0) rfl
      apply (carries_resolveType header parameter.type).bind
      intro type _ _ saturated
      apply (Carries.of_arranges (arranges_nameConstructorParameter _ constructor owner _
        saturated)).after
      intro _ _ _ _
      apply Carries.cast _ (zero_add 0) rfl
      cases bound : parameter.binding with
      | none =>
          refine Carries.bind (Carries.of_declare ⟨rfl, .inr rfl⟩
            ⟨saturated, fun leavesOpen => leavesOpen.elim⟩) ?_
          intro _ _ _ _
          exact ih (index + 1)
      | some binding =>
          have sound : (Descriptor.variable (.property
              { name := parameter.name
                declaration := some (Node.constructorParameter parameter).ref
                container := some owner.name, type := some type, binding })).Sound promised :=
            ⟨saturated, nofun⟩
          apply (carries_addMember (some owner) sound).after
          intro _ _ _ _
          apply (carries_define members _
            ⟨sound, fun isClassifier => Bool.noConfusion isClassifier⟩).after
          intro _ _ _ _
          refine Carries.bind (Carries.of_declare ⟨rfl, .inr rfl⟩ sound) ?_
          intro _ _ _ _
          exact ih (index + 1)

theorem carries_declareClassMembers (declaration : Tree.Class)
    (ready : before.state.ReadyClass declaration)
    (kept : ∀ member ∈ declaration.members, ∀ node ∈ member.opened, node ∈ promised) :
    Carries promised before (declareClassMembers declaration)
      (Resolver.declareClassMembers declaration)
      (declaration.members.map Tree.Member.opened).sum
      (Tree.TopLevel.class declaration).contentTally
      fun _ after => ∀ member ∈ declaration.members, after.ReadyMember member := by
  obtain ⟨⟨owner, found⟩, hasHeader⟩ := ready
  obtain ⟨header, foundHeader⟩ := Option.isSome_iff_exists.mp hasHeader
  apply Carries.of_get
  simp only [found, foundHeader]
  apply Carries.of_classAt found
  apply Carries.of_scopeAt foundHeader
  apply (carries_openScope _ _ _).after
  intro members _ _ _
  apply (carries_openScope _ _ _).after
  intro constructor _ _ _
  apply Carries.cast _ (zero_add _) rfl
  apply (carries_declareConstructorParameters header members constructor owner 0 _).bind
  intro _ _ _ _
  exact carries_declareMembers members constructor owner declaration.members kept

theorem carries_declareClasses (contents : List Tree.TopLevel) :
    Carries promised before (declareClasses contents) (Resolver.declareClasses contents) 0
      (contents.map fun declared => Tally.filling declared.headFilled).sum
      fun _ after => ∀ declaration, .class declaration ∈ contents →
        after.ReadyClass declaration := by
  induction contents generalizing before with
  | nil => exact .of_pure fun _ none => absurd none List.not_mem_nil
  | cons first rest ih =>
      rw [List.map_cons, List.sum_cons]
      cases first with
      | «class» declaration =>
          apply Carries.cast _ (zero_add 0) rfl
          apply ((carries_declareClass declaration).bindRetaining
            (fun _ _ retains firm ready => ready.retained retains firm) fun _ _ _ => ih).weaken
          intro _ after _ ready other inContents
          rcases List.mem_cons.mp inContents with same | inRest
          · cases same
            exact ready.1
          · exact ready.2 other inRest
      | member declared =>
          rw [Tree.TopLevel.headFilled, Tally.filling_zero, zero_add]
          apply ih.weaken
          intro _ after _ readyRest other inContents
          rcases List.mem_cons.mp inContents with same | inRest
          · cases same
          · exact readyRest other inRest

theorem carries_declareContents (contents : List Tree.TopLevel)
    (ready : ∀ declaration, .class declaration ∈ contents → before.state.ReadyClass declaration)
    (kept : ∀ member ∈ contents.flatMap Tree.TopLevel.members, ∀ node ∈ member.opened,
      node ∈ promised) :
    Carries promised before (declareContents contents) (Resolver.declareContents contents)
      ((contents.flatMap Tree.TopLevel.members).map Tree.Member.opened).sum
      (contents.map Tree.TopLevel.contentTally).sum
      fun _ after => ∀ member ∈ contents.flatMap Tree.TopLevel.members,
        after.ReadyMember member := by
  induction contents generalizing before with
  | nil => exact .of_pure fun _ none => absurd none List.not_mem_nil
  | cons first rest ih =>
      rw [List.flatMap_cons] at kept ⊢
      obtain ⟨keptFirst, keptRest⟩ := List.forall_mem_append.mp kept
      rw [List.map_cons, List.sum_cons, List.map_append, List.sum_append]
      have goesOn {opened : Multiset NodeRef} {tally : Tally} (middle : Ledger)
          (carried : Carried promised opened tally before middle) :
          Carries promised middle (declareContents rest) (Resolver.declareContents rest) _ _ _ :=
        Carries.of_firm fun firm => ih (fun other inRest =>
          (ready other (List.mem_cons_of_mem _ inRest)).retained carried.retains firm) keptRest
      cases first with
      | «class» declaration =>
          apply ((carries_declareClassMembers declaration (ready declaration List.mem_cons_self)
            keptFirst).bindRetaining (fun _ _ retains firm ready member inMembers =>
              (ready member inMembers).retained retains firm) fun _ => goesOn).weaken
          exact fun _ _ _ both => List.forall_mem_append.mpr both
      | member declared =>
          rw [Tree.TopLevel.contentTally_member, Tree.TopLevel.members_member, List.map_singleton,
            List.sum_singleton]
          apply ((carries_declareMember fileScope fileScope none declared
            (List.forall_mem_singleton.mp keptFirst)).bindRetaining
              (fun _ _ retains firm ready => ready.retained retains firm) fun _ => goesOn).weaken
          exact fun _ _ _ both => List.forall_mem_cons.mpr both

/-- Declaring a file leaves every member ready to be checked. -/
theorem carries_declareFile (file : Tree.File)
    (kept : ∀ member ∈ file.members, ∀ node ∈ member.opened, node ∈ promised) :
    Carries promised before (declareFile file) (Resolver.declareFile file)
      (file.members.map Tree.Member.opened).sum
      ((file.declarations.map fun declared => Tally.filling declared.headFilled).sum +
        (file.declarations.map Tree.TopLevel.contentTally).sum)
      fun _ after => ∀ member ∈ file.members, after.ReadyMember member := by
  apply Carries.cast _ (zero_add _) rfl
  apply (carries_declareClasses file.declarations).bind
  intro _ _ _ ready
  exact carries_declareContents file.declarations ready kept

end Audit

end Gloss
