import Gloss.Proofs.Resolution.Runs
import Gloss.Proofs.Tree.Members

/-!
# Declaring a file

Declaring gives every declaration outside of the bodies a descriptor, each
once.  The references in written types are entered; an expression that decides
an open type is put off, and its references are pending from then on.
-/

namespace Gloss

namespace ResolutionState

/-- A class whose members can be declared. -/
def ReadyClass (state : ResolutionState) (declaration : Tree.Class) : Prop :=
  (∃ owner, state.declarations.get? (Node.class declaration).ref = some (.class owner)) ∧
    (state.headerScopes.get? (Node.class declaration).ref).isSome

/-- A member whose body can be checked. -/
def ReadyMember (state : ResolutionState) : Tree.Member → Prop
  | .function function =>
      (∃ descriptor,
        state.declarations.get? (Node.function function).ref = some (.function descriptor)) ∧
        (state.functionScopes.get? (Node.function function).ref).isSome
  | .property property =>
      (∃ descriptor,
        state.declarations.get? (Node.property property).ref = some (.variable descriptor)) ∧
        (state.initializerScopes.get? (Node.property property).ref).isSome

/-- A constructor parameter that is declared.  It is the same thing in the
constructor and elsewhere, unless it is a property too. -/
def Constructs (state : ResolutionState) (parameter : Tree.ConstructorParameter) : Prop :=
  match parameter.binding with
  | none => ∃ descriptor,
      state.declarations.get? (Node.constructorParameter parameter).ref = some descriptor ∧
        state.constructorParameters.get? (Node.constructorParameter parameter).ref =
          some descriptor
  | some _ => ∃ property owner described,
      state.declarations.get? (Node.constructorParameter parameter).ref =
          some (.variable (.property property)) ∧
        state.constructorParameters.get? (Node.constructorParameter parameter).ref =
          some (.variable (.parameter owner described))

variable {before after : ResolutionState}

theorem Constructs.mono {parameter : Tree.ConstructorParameter}
    (constructs : before.Constructs parameter) (keeps : before.Keeps after) :
    after.Constructs parameter := by
  unfold Constructs at constructs ⊢
  split at constructs
  · obtain ⟨descriptor, declared, constructed⟩ := constructs
    exact ⟨descriptor, keeps.declarations _ _ declared, keeps.constructorParameters _ _ constructed⟩
  · obtain ⟨property, owner, described, declared, constructed⟩ := constructs
    exact ⟨property, owner, described, keeps.declarations _ _ declared,
      keeps.constructorParameters _ _ constructed⟩

theorem ReadyClass.mono {declaration : Tree.Class} (ready : before.ReadyClass declaration)
    (keeps : before.Keeps after) : after.ReadyClass declaration := by
  obtain ⟨⟨owner, found⟩, header⟩ := ready
  exact ⟨⟨owner, keeps.declarations _ _ found⟩, keeps.headerScopes _ header⟩

theorem ReadyMember.mono {member : Tree.Member} (ready : before.ReadyMember member)
    (keeps : before.Keeps after) : after.ReadyMember member := by
  cases member with
  | function function =>
      obtain ⟨⟨descriptor, found⟩, scope⟩ := ready
      exact ⟨⟨descriptor, keeps.declarations _ _ found⟩, keeps.functionScopes _ scope⟩
  | property property =>
      obtain ⟨⟨descriptor, found⟩, scope⟩ := ready
      exact ⟨⟨descriptor, keeps.declarations _ _ found⟩, keeps.initializerScopes _ scope⟩

end ResolutionState

namespace Resolver

open ResolutionState

variable {before state : ResolutionState} {base : ResolutionState} {descriptor : Descriptor}

theorem takes_openScope (parent : Nat) (name kind : String) :
    Takes before (openScope parent name kind) 0 0 0 fun _ _ => True :=
  Takes.weaken (Takes.of_names (fun _ => names_openScope before parent name kind) rfl)
    fun _ _ _ => trivial

/-- Names with a single meaning, which is then declared. -/
theorem declares_of_mem {node : NodeRef} {meaning : Descriptor}
    (isMeaning : meaning ∈ [descriptor]) :
    (state.declaring node descriptor).Declares node meaning :=
  List.mem_singleton.mp isMeaning ▸ declares_declaring state node descriptor

theorem takes_declareTypeParameters (scope : Nat) (container : Option String)
    (parameters : List Tree.TypeParameter) :
    Takes before (declareTypeParameters scope container parameters)
      (parameters.map fun parameter => {(Node.typeParameter parameter).ref}).sum 0 0
      fun _ _ => True := by
  induction parameters generalizing before with
  | nil => exact .of_pure trivial
  | cons parameter rest ih =>
      rw [List.map_cons, List.sum_cons]
      apply Takes.naming
      apply Takes.declaring (names_define before _ _ _ List.mem_cons_self) ⟨rfl, rfl⟩
        (fun isOther => NodeKind.noConfusion isOther)
      · exact fun _ isMeaning => declares_of_mem isMeaning
      · intro _ _
        apply ih.andThen
        intro _ _ _ _
        exact .of_pure trivial

theorem takes_declareClass (declaration : Tree.Class) :
    Takes before (declareClass declaration) (Tree.TopLevel.class declaration).firstDeclarations
      0 0 fun _ after => after.ReadyClass declaration := by
  rw [Tree.TopLevel.firstDeclarations, add_comm]
  apply (takes_openScope _ _ _).after
  intro header _ _ _
  apply Takes.cast _ rfl (zero_add 0) (zero_add 0)
  apply (takes_declareTypeParameters header _ _).bind
  intro typeParameters middle _ _
  apply Takes.cast _ (add_zero _) rfl rfl
  apply Takes.naming
  apply Takes.declaring (names_define middle _ _ _ List.mem_cons_self) ⟨rfl, rfl⟩
    (fun isOther => NodeKind.noConfusion isOther)
  · exact fun _ isMeaning => declares_of_mem isMeaning
  · intro found _
    apply Takes.weaken (Takes.of_names (fun _ => names_addClass _ _ _ rfl _ _) rfl)
    intro _ _ none
    cases none
    exact ⟨⟨_, found⟩, Table.isSome_get?_insert_self _ _ _⟩

theorem takes_declareParameters (scope : Nat) (function : FunctionDescriptor)
    (pairs : List (Tree.ValueParameter × ParameterDescriptor))
    {parameters : List Tree.ValueParameter} (firsts : pairs.map Prod.fst = parameters)
    (described : ∀ pair ∈ pairs, pair.2.declaration = some (Node.valueParameter pair.1).ref) :
    Takes before (declareParameters scope function pairs)
      (parameters.map fun parameter => {(Node.valueParameter parameter).ref}).sum 0
      (parameters.map fun parameter => (Node.type parameter.type).references).sum
      fun _ _ => True := by
  subst firsts
  induction pairs generalizing before with
  | nil => exact .of_pure trivial
  | cons pair rest ih =>
      obtain ⟨parameter, describedAs⟩ := pair
      rw [List.map_cons, List.map_cons, List.sum_cons, List.map_cons, List.sum_cons]
      have introduces : (Descriptor.variable
          (.parameter (.function function) describedAs)).Introduces
            (Node.valueParameter parameter).ref :=
        ⟨described _ List.mem_cons_self, .inl rfl⟩
      apply Takes.cast _ (zero_add _) (zero_add 0) rfl
      apply (Takes.of_accounts fun grounded =>
        accounts_resolveType grounded scope parameter.type).bind
      intro _ middle _ _
      apply Takes.naming
      apply Takes.declaring (names_define middle _ _ _ List.mem_cons_self) introduces nofun
      · exact fun _ isMeaning => declares_of_mem isMeaning
      · intro _ _
        exact ih fun other inRest => described other (List.mem_cons_of_mem _ inRest)

theorem declaration_of_mem_describeParameters (classifiers : Classifiers)
    (parameters : List Tree.ValueParameter) {pair : Tree.ValueParameter × ParameterDescriptor}
    (member : pair ∈ parameters.zip (describeParameters classifiers parameters)) :
    pair.2.declaration = some (Node.valueParameter pair.1).ref := by
  obtain ⟨index, inRange, rfl⟩ := List.mem_iff_getElem.mp member
  simp [describeParameters]

theorem takes_declareDescribed (scope : Nat) (function : FunctionDescriptor)
    (classifiers : Classifiers) (parameters : List Tree.ValueParameter) :
    Takes before
      (declareParameters scope function (parameters.zip (describeParameters classifiers parameters)))
      (parameters.map fun parameter => {(Node.valueParameter parameter).ref}).sum 0
      (parameters.map fun parameter => (Node.type parameter.type).references).sum
      fun _ _ => True := by
  have sameLength : parameters.length ≤ (describeParameters classifiers parameters).length := by
    simp [describeParameters]
  apply takes_declareParameters scope function _ (List.map_fst_zip sameLength)
  exact fun _ member => declaration_of_mem_describeParameters classifiers parameters member

/-- An expression that decides an open type is put off. -/
theorem takes_defer {node : NodeRef} {member : Tree.Member} (name : String) (body : Tree.Expr)
    (scope : Nat) (found : before.declarations.get? node = some descriptor)
    (leavesOpen : descriptor.LeavesOpen) (new : node ∉ before.deferred.keys)
    (ready : before.ReadyMember member) :
    Takes before (defer node name body scope) 0 {node} (Node.expression body).references
      fun _ after => after.ReadyMember member := by
  intro grounded _
  have advances : before.Advances 0 {node} (Node.expression body).references
      (before.deferring node { name, body, scope }) :=
    advances_deferring { name, body, scope } grounded found leavesOpen new
  exact ⟨advances, ready.mono advances.keeps⟩

theorem takes_declareFunction (scope : Nat) (owner : Option ClassDescriptor)
    (function : Tree.Function) :
    Takes before (declareFunction scope owner function)
      (Tree.Member.function function).headDeclarations {(Node.function function).ref}
      (Tree.Member.function function).firstReferences
      fun _ after => after.ReadyMember (.function function) := by
  rw [Tree.Member.headDeclarations, Tree.Member.firstReferences, Tree.Member.headReferences, add_assoc, add_assoc,
    add_comm {(Node.function function).ref}, add_assoc]
  apply (takes_openScope _ _ _).after
  intro inner _ _ _
  apply Takes.cast _ rfl (zero_add _) (zero_add _)
  apply (takes_declareTypeParameters inner none _).bind
  intro typeParameters opened _ _
  apply Takes.of_get
  apply Takes.cast _ rfl (zero_add _) rfl
  apply (takes_declareDescribed inner _ (opened.classifiers inner) _).bind
  intro _ _ _ _
  apply Takes.cast _ (zero_add _) (zero_add _) rfl
  apply (Takes.of_accounts fun grounded =>
    accounts_resolveType? grounded inner function.returnType).bind
  intro _ typed _ _
  apply Takes.naming
  apply Takes.naming
  apply Takes.cast _ (add_zero _) rfl rfl
  refine Takes.declaring ((names_define typed _ _ _ (List.mem_singleton_self _)).trans
    (names_addMember _ owner (List.mem_singleton_self _))) ⟨rfl, rfl⟩
    (fun isOther => NodeKind.noConfusion isOther) (fun _ isMeaning => declares_of_mem isMeaning) ?_
  intro found new
  apply (Takes.of_names (fun _ => names_functionScope _ _ inner) rfl).after
  intro _ after advances ran
  have stillFound := advances.keeps.declarations _ _ found
  have stillNew : (Node.function function).ref ∉ after.deferred.keys := by
    cases ran
    exact new
  have ready : after.ReadyMember (.function function) := by
    refine ⟨⟨_, stillFound⟩, ?_⟩
    cases ran
    exact Table.isSome_get?_insert_self _ _ _
  cases returned : function.returnType with
  | some type =>
      simp only [Tree.Member.openBody?, returned]
      exact Takes.postpone (Takes.of_pure ready) (Multiset.zero_subset _)
  | none =>
      cases body : function.body with
      | block block =>
          simp only [Tree.Member.openBody?, returned, body]
          exact Takes.postpone (Takes.of_pure ready) (Multiset.zero_subset _)
      | expression value =>
          simp only [Tree.Member.openBody?, returned, body]
          have leavesOpen : describeReturnType (opened.classifiers inner) function = none := by
            rw [describeReturnType, returned, body]
          exact takes_defer _ _ _ stillFound leavesOpen stillNew ready

/-- The type of a property is open when it has an initializer and no written
type. -/
theorem takes_describePropertyType (property : Tree.Property) (written : Option NominalType) :
    Takes before (describePropertyType property written) 0 0 0
      fun type _ => written.isSome = false → property.initializer.isSome → type = none := by
  unfold describePropertyType
  cases written with
  | some type => exact .of_pure fun isNone => Bool.noConfusion isNone
  | none =>
      cases property.initializer with
      | some initializer => exact .of_pure fun _ _ => rfl
      | none =>
          apply (Takes.of_accounts fun _ => accounts_report _ _).after
          intro _ _ _ _
          exact .of_pure fun _ isSome => Bool.noConfusion isSome

theorem takes_declareProperty (scope initializerScope : Nat) (owner : Option ClassDescriptor)
    (property : Tree.Property) :
    Takes before (declareProperty scope initializerScope owner property)
      (Tree.Member.property property).headDeclarations {(Node.property property).ref}
      (Tree.Member.property property).firstReferences
      fun _ after => after.ReadyMember (.property property) := by
  rw [Tree.Member.headDeclarations, Tree.Member.firstReferences, Tree.Member.headReferences]
  apply Takes.cast _ (zero_add _) (zero_add _) rfl
  apply (Takes.of_accounts fun grounded =>
    accounts_resolveType? grounded scope property.type).bind
  intro written _ _ resolved
  apply (takes_describePropertyType property written).after
  intro type middle _ isOpen
  apply Takes.naming
  apply Takes.naming
  apply Takes.cast _ (add_zero _) rfl rfl
  refine Takes.declaring ((names_define middle _ _ _ (List.mem_singleton_self _)).trans
    (names_addMember _ owner (List.mem_singleton_self _))) ⟨rfl, .inl rfl⟩
    (fun isOther => NodeKind.noConfusion isOther) (fun _ isMeaning => declares_of_mem isMeaning) ?_
  intro found new
  apply (Takes.of_names (fun _ => names_initializerScope _ _ initializerScope) rfl).after
  intro _ after advances ran
  have stillFound := advances.keeps.declarations _ _ found
  have stillNew : (Node.property property).ref ∉ after.deferred.keys := by
    cases ran
    exact new
  have ready : after.ReadyMember (.property property) := by
    refine ⟨⟨_, stillFound⟩, ?_⟩
    cases ran
    exact Table.isSome_get?_insert_self _ _ _
  cases typed : property.type with
  | some type =>
      simp only [Tree.Member.openBody?, typed]
      exact Takes.postpone (Takes.of_pure ready) (Multiset.zero_subset _)
  | none =>
      cases initialized : property.initializer with
      | none =>
          simp only [Tree.Member.openBody?, typed, initialized]
          exact Takes.postpone (Takes.of_pure ready) (Multiset.zero_subset _)
      | some value =>
          simp only [Tree.Member.openBody?, typed, initialized]
          have leavesOpen : type = none := isOpen (by rw [resolved, typed]; rfl) (by rw [initialized]; rfl)
          exact takes_defer _ _ _ stillFound leavesOpen stillNew ready

theorem takes_declareMember (scope initializerScope : Nat) (owner : Option ClassDescriptor)
    (member : Tree.Member) :
    Takes before (declareMember scope initializerScope owner member) member.headDeclarations
      {member.node.ref} member.firstReferences fun _ after => after.ReadyMember member := by
  cases member with
  | function function => exact takes_declareFunction scope owner function
  | property property => exact takes_declareProperty scope initializerScope owner property

theorem takes_declareMembers (scope initializerScope : Nat) (owner : ClassDescriptor)
    (members : List Tree.Member) :
    Takes before (declareMembers scope initializerScope owner members)
      (members.map Tree.Member.headDeclarations).sum
      (members.map fun member => {member.node.ref}).sum
      (members.map Tree.Member.firstReferences).sum
      fun _ after => ∀ member ∈ members, after.ReadyMember member := by
  induction members generalizing before with
  | nil => exact .of_pure fun _ none => absurd none List.not_mem_nil
  | cons member rest ih =>
      simp only [List.map_cons, List.sum_cons]
      apply Takes.weaken (Takes.bindKeeping (fun _ _ keeps ready => ReadyMember.mono ready keeps)
        (takes_declareMember scope initializerScope (some owner) member) fun _ _ _ => ih)
      exact fun _ _ ready => List.forall_mem_cons.mpr ready

/-- A constructor parameter with a binding means a parameter in the constructor
and a property elsewhere. -/
theorem takes_declareConstructorParameters (header members constructor : Nat)
    (owner : ClassDescriptor) (index : Nat) (parameters : List Tree.ConstructorParameter) :
    Takes before
      (declareConstructorParameters header members constructor owner index parameters)
      (parameters.map fun parameter => {(Node.constructorParameter parameter).ref}).sum 0
      (parameters.map fun parameter => (Node.type parameter.type).references).sum
      fun _ after => ∀ parameter ∈ parameters, after.Constructs parameter := by
  induction parameters generalizing before index with
  | nil => exact .of_pure fun _ none => absurd none List.not_mem_nil
  | cons parameter rest ih =>
      rw [List.map_cons, List.sum_cons, List.map_cons, List.sum_cons]
      apply Takes.cast _ (zero_add _) (zero_add 0) rfl
      apply (Takes.of_accounts fun grounded =>
        accounts_resolveType grounded header parameter.type).bind
      intro type middle _ _
      have introduces (described : ParameterDescriptor)
          (declared : described.declaration = some (Node.constructorParameter parameter).ref) :
          (Descriptor.variable (.parameter (.class owner) described)).Introduces
            (Node.constructorParameter parameter).ref :=
        ⟨declared, .inr rfl⟩
      have goesOn {state : ResolutionState} (constructs : state.Constructs parameter) :
          Takes state (declareConstructorParameters header members constructor owner (index + 1)
            rest) _ _ _ fun _ after => ∀ other ∈ parameter :: rest, after.Constructs other :=
        Takes.weaken ((ih (index + 1)).keeping (fun _ _ keeps known => known.mono keeps) constructs)
          fun _ _ both => List.forall_mem_cons.mpr both
      apply Takes.naming
      cases bound : parameter.binding with
      | none =>
          have constructed := get?_nameConstructorParameter middle constructor owner
            (Node.constructorParameter parameter).ref
          refine Takes.declaring (names_nameConstructorParameter middle constructor
            (introduces _ rfl) rfl (List.mem_singleton_self _)) (introduces _ rfl)
            (fun _ => Option.isSome_iff_exists.mpr ⟨_, constructed _⟩)
            (fun _ isMeaning => declares_of_mem isMeaning) ?_
          intro found _
          apply goesOn
          rw [Constructs, bound]
          exact ⟨_, found, constructed _⟩
      | some binding =>
          have constructed := get?_namingProperty middle constructor members owner
            (Node.constructorParameter parameter).ref
          apply Takes.naming
          apply Takes.naming
          refine Takes.declaring (names_namingProperty middle constructor members _
            (introduces _ rfl) rfl) ⟨rfl, .inr rfl⟩
            (fun _ => Option.isSome_iff_exists.mpr ⟨_, constructed _ _⟩) ?_ ?_
          · intro meaning isMeaning
            rcases List.mem_cons.mp isMeaning with rfl | isProperty
            · exact .inr (constructed _ _)
            · exact declares_of_mem isProperty
          · intro found _
            apply goesOn
            rw [Constructs, bound]
            exact ⟨_, _, _, found, constructed _ _⟩

theorem takes_declareClassMembers (declaration : Tree.Class)
    (ready : before.ReadyClass declaration) :
    Takes before (declareClassMembers declaration)
      (Tree.TopLevel.class declaration).headDeclarations
      (declaration.members.map fun member => {member.node.ref}).sum
      (Tree.TopLevel.class declaration).firstReferences
      fun _ after => (∀ parameter ∈ declaration.constructorParameters, after.Constructs parameter) ∧
        ∀ member ∈ declaration.members, after.ReadyMember member := by
  obtain ⟨⟨owner, found⟩, hasHeader⟩ := ready
  obtain ⟨header, foundHeader⟩ := Option.isSome_iff_exists.mp hasHeader
  apply Takes.of_get
  simp only [found, foundHeader]
  apply (takes_openScope _ _ _).after
  intro members _ _ _
  apply (takes_openScope _ _ _).after
  intro constructor _ _ _
  apply Takes.cast _ rfl (zero_add _) rfl
  apply Takes.bindKeeping
    (fun _ _ keeps constructs parameter isOne => (constructs parameter isOne).mono keeps)
    (takes_declareConstructorParameters header members constructor owner 0 _)
  intro _ _ _
  exact takes_declareMembers members constructor owner declaration.members

/-- Declares the classes of a file. -/
theorem takes_declareClasses (contents : List Tree.TopLevel) :
    Takes before (declareClasses contents)
      (contents.map Tree.TopLevel.firstDeclarations).sum 0 0
      fun _ after => ∀ declaration, .class declaration ∈ contents →
        after.ReadyClass declaration := by
  induction contents generalizing before with
  | nil => exact .of_pure fun _ none => absurd none List.not_mem_nil
  | cons first rest ih =>
      rw [List.map_cons, List.sum_cons]
      cases first with
      | «class» declaration =>
          apply Takes.cast _ rfl (zero_add 0) (zero_add 0)
          apply Takes.weaken (Takes.bindKeeping (fun _ _ keeps ready => ReadyClass.mono ready keeps)
            (takes_declareClass declaration) fun _ _ _ => ih)
          intro _ after ready other inContents
          rcases List.mem_cons.mp inContents with same | inRest
          · cases same
            exact ready.1
          · exact ready.2 other inRest
      | member declared =>
          rw [Tree.TopLevel.firstDeclarations, zero_add]
          apply Takes.weaken ih
          intro _ after readyRest other inContents
          rcases List.mem_cons.mp inContents with same | inRest
          · cases same
          · exact readyRest other inRest

theorem takes_declareContents (contents : List Tree.TopLevel)
    (ready : ∀ declaration, .class declaration ∈ contents → before.ReadyClass declaration) :
    Takes before (declareContents contents)
      (contents.map Tree.TopLevel.headDeclarations).sum
      ((contents.flatMap Tree.TopLevel.members).map fun member => {member.node.ref}).sum
      (contents.map Tree.TopLevel.firstReferences).sum
      fun _ after =>
        (∀ parameter ∈ contents.flatMap Tree.TopLevel.constructorParameters,
          after.Constructs parameter) ∧
            ∀ member ∈ contents.flatMap Tree.TopLevel.members, after.ReadyMember member := by
  induction contents generalizing before with
  | nil =>
      exact .of_pure ⟨fun _ none => absurd none List.not_mem_nil,
        fun _ none => absurd none List.not_mem_nil⟩
  | cons first rest ih =>
      have goesOn {declared postponed references : Multiset NodeRef} (middle : ResolutionState)
          (advances : before.Advances declared postponed references middle) :=
        ih fun other inRest => (ready other (List.mem_cons_of_mem _ inRest)).mono advances.keeps
      simp only [List.map_cons, List.sum_cons, List.flatMap_cons, List.map_append, List.sum_append]
      cases first with
      | «class» declaration =>
          have readyFirst := ready declaration List.mem_cons_self
          apply Takes.weaken (Takes.bindKeeping (fun _ _ keeps known =>
              ⟨fun parameter isOne => (known.1 parameter isOne).mono keeps,
                fun member isOne => (known.2 member isOne).mono keeps⟩)
            (takes_declareClassMembers declaration readyFirst) fun _ => goesOn)
          rintro _ _ ⟨⟨constructs, readyMembers⟩, constructsRest, readyRest⟩
          exact ⟨List.forall_mem_append.mpr ⟨constructs, constructsRest⟩,
            List.forall_mem_append.mpr ⟨readyMembers, readyRest⟩⟩
      | member declared =>
          rw [Tree.TopLevel.headDeclarations_member, Tree.TopLevel.firstReferences_member,
            Tree.TopLevel.members_member, List.map_singleton, List.sum_singleton]
          apply Takes.weaken (Takes.bindKeeping (fun _ _ keeps ready => ReadyMember.mono ready keeps)
            (takes_declareMember fileScope fileScope none declared) fun _ => goesOn)
          exact fun _ _ both => ⟨both.2.1, List.forall_mem_cons.mpr ⟨both.1, both.2.2⟩⟩

/-- Declaring a file leaves every member ready to be checked. -/
theorem takes_declareFile (file : Tree.File) :
    Takes before (declareFile file)
      ((file.declarations.map Tree.TopLevel.firstDeclarations).sum +
        (file.declarations.map Tree.TopLevel.headDeclarations).sum)
      (file.members.map fun member => {member.node.ref}).sum
      (file.declarations.map Tree.TopLevel.firstReferences).sum
      fun _ after => (∀ parameter ∈ file.constructorParameters, after.Constructs parameter) ∧
        ∀ member ∈ file.members, after.ReadyMember member := by
  apply Takes.cast _ rfl (zero_add _) (zero_add _)
  apply (takes_declareClasses file.declarations).bind
  intro _ _ _ ready
  exact takes_declareContents file.declarations ready

end Resolver

end Gloss
