import Gloss.Proofs.Confinement.Declarations
import Gloss.Proofs.Confinement.Inferences
import Gloss.Proofs.Typing.Branches

/-!
# Checks assure held types

Whatever is checked or inferred in a member writes down types that are held where the type
parameters of the member are in scope.  Types that are settled on the way are held too, so the
inferences after them may go on from there.
-/

namespace Gloss

open Gloss.Tree ResolutionState

/-! ### Written types are no expressions -/

/-- Some slots for types are none of expressions. -/
def SparesExpressions (filled : Slot → Multiset NodeRef) : Prop :=
  ∀ node ∈ filled .type, node.kind.isExpression = false

namespace SparesExpressions

variable {first second : Slot → Multiset NodeRef}

theorem zero : SparesExpressions 0 := fun _ isFilled => (Multiset.notMem_zero _ isFilled).elim

theorem add (spares : SparesExpressions first) (sparesSecond : SparesExpressions second) :
    SparesExpressions (first + second) := fun node isFilled =>
  (Multiset.mem_add.mp isFilled).elim (spares node) (sparesSecond node)

theorem sum {α : Type} {items : List α} {filled : α → Slot → Multiset NodeRef}
    (spares : ∀ item ∈ items, SparesExpressions (filled item)) :
    SparesExpressions (items.map filled).sum := by
  induction items with
  | nil => exact zero
  | cons item rest ih =>
      obtain ⟨sparesItem, sparesRest⟩ := List.forall_mem_cons.mp spares
      rw [List.map_cons, List.sum_cons]
      exact sparesItem.add (ih sparesRest)

theorem declaration (node : NodeRef) : SparesExpressions (Slot.declaration.only node) := zero

end SparesExpressions

theorem Node.eq_expression_of_kind {node : Node} (isExpression : node.kind.isExpression = true) :
    ∃ value : Expr, node = value.node := by
  cases node with
  | expression value => exact ⟨value, rfl⟩
  | type written => cases written <;> cases isExpression
  | _ => cases isExpression

/-- There are no expressions in heads. -/
theorem Node.sparesExpressions (node : Node) (head : node.isHead = true) :
    SparesExpressions node.filled := by
  intro reference isFilled
  obtain ⟨inner, isInner, rfl⟩ := List.mem_map.mp (Multiset.mem_coe.mp isFilled)
  by_contra isExpression
  obtain ⟨value, rfl⟩ := eq_expression_of_kind (Bool.of_not_eq_false isExpression)
  exact notMem_subtree_of_isHead node head value (List.mem_of_mem_filter isInner)

namespace Tree

theorem sparesExpressions_written (type : Option TypeRef) :
    SparesExpressions (Node.filledOf? (type.map Node.type)) := by
  cases type with
  | none => exact .zero
  | some type => exact (Node.type type).sparesExpressions rfl

theorem Member.sparesExpressions_headFilled (member : Member) :
    SparesExpressions member.headFilled := by
  cases member with
  | property declared => exact (sparesExpressions_written _).add (.declaration _)
  | function declared =>
      refine ((SparesExpressions.sum fun parameter _ => ?_).add ((SparesExpressions.sum
        fun parameter _ => ?_).add (sparesExpressions_written _))).add (.declaration _)
      · exact (Node.typeParameter parameter).sparesExpressions rfl
      · exact (Node.valueParameter parameter).sparesExpressions rfl

/-- What is written down about the heads of declarations concerns no expressions. -/
theorem TopLevel.sparesExpressions_remarks (contents : List TopLevel) :
    SparesExpressions (Remark.filled (remarks contents)) := by
  rw [filled_remarks]
  refine (SparesExpressions.sum fun declared _ => ?_).add (.sum fun declared _ => ?_)
  · cases declared with
    | member => exact .zero
    | «class» declaration =>
        refine (SparesExpressions.sum fun parameter _ => ?_).add (.declaration _)
        exact (Node.typeParameter parameter).sparesExpressions rfl
  · cases declared with
    | member declaration => exact declaration.sparesExpressions_headFilled
    | «class» declaration =>
        refine (SparesExpressions.sum fun parameter _ => ?_).add (.sum fun member _ => ?_)
        · exact (Node.constructorParameter parameter).sparesExpressions rfl
        · exact member.sparesExpressions_headFilled

end Tree

theorem SparesExpressions.of_typed_mem {remarks : List Remark}
    (spares : SparesExpressions (Remark.filled remarks)) {node : NodeRef} {type : NominalType}
    (isWritten : .typed node type ∈ remarks) : node.kind.isExpression = false :=
  spares node (Multiset.mem_coe.mpr (List.mem_filterMap.mpr ⟨_, isWritten, rfl⟩))

/-! ### Checks -/

namespace Script

variable {isOpen : NodeRef → Bool} {setting : Setting}

theorem assures_tellAll {remarks : List Remark}
    (spares : SparesExpressions (Remark.filled remarks)) :
    (tellAll remarks : Script isOpen Unit).Assures setting fun _ =>
      ∀ remark ∈ remarks, setting.written remark := by
  intro found outcome written
  rw [outcome_tellAll] at outcome
  cases outcome
  refine ⟨written, fun node type isWritten isExpression => ?_⟩
  rw [spares.of_typed_mem isWritten] at isExpression
  cases isExpression

theorem assures_reportConflict (level : List (Symbol Descriptor)) (symbol : Symbol Descriptor)
    (node : NodeRef) :
    (reportConflict level symbol node : Script isOpen Unit).Assures setting fun _ => True := by
  unfold reportConflict
  split
  · exact (assures_report _ _).weaken fun _ => False.elim
  · exact .of_pure trivial

theorem assures_localType (declaration : Property) {type : Option NominalType}
    (holds : ∀ known ∈ type, setting.Holds known) :
    (localType declaration type : Script isOpen NominalType).Assures setting setting.Holds := by
  cases type with
  | some type => exact .of_pure (holds type rfl)
  | none => exact (assures_report _ _).absurd

end Script

namespace Surroundings

open Script

variable {setting : Setting} {around : Surroundings}

theorem assures_writtenType? (sees : setting.Sees around) (type : Option TypeRef) :
    (around.writtenType? type).Assures setting fun found =>
      ∀ written ∈ found, setting.Holds written := by
  cases type with
  | none => exact .of_pure fun _ isNone => by cases isNone
  | some type =>
      have spares : SparesExpressions (Remark.filled (type.remarks around.classifiers)) :=
        filled_remarks around.classifiers type ▸ (Node.type type).sparesExpressions rfl
      have classifies : setting.Classifies setting.known around.classifiers :=
        fun _ _ found => sees.introduces_of_mem_lookup (List.mem_of_mem_head? found)
      refine (assures_tellAll spares).bind fun _ written => .of_pure fun meant isMeant => ?_
      cases Option.mem_some_iff.mp isMeant
      exact Realm.holds_denote setting.noProblem classifies type written

theorem assures_check (sees : setting.Sees around) {expression : Expr}
    (inside : setting.inside expression.node) (expected : NominalType) :
    (around.check expression expected).Assures setting fun _ => True :=
  (assures_infer sees expression inside).bind fun _ _ => assures_expect _ _ _

theorem assures_checkInitializer (sees : setting.Sees around) (declared : Option NominalType)
    {initializer : Option Expr} (inside : ∀ value ∈ initializer, setting.inside value.node) :
    (around.checkInitializer declared initializer).Assures setting fun found =>
      ∀ inferred ∈ found, setting.Holds inferred := by
  cases initializer with
  | none => exact .of_pure fun _ isNone => by cases isNone
  | some value =>
      refine (assures_infer sees value (inside value rfl)).bind fun type given => ?_
      have holds : ∀ inferred ∈ some type, setting.Holds inferred := by
        intro inferred isType
        cases Option.mem_some_iff.mp isType
        exact given.1
      cases declared with
      | none => exact .of_pure holds
      | some expected => exact (assures_expect _ _ _).bind fun _ _ => .of_pure holds

/-- A local variable has a held type. -/
theorem assures_describeLocal (sees : setting.Sees around) {declaration : Property}
    (inside : setting.inside (Node.property declaration)) :
    (around.describeLocal declaration).Assures setting fun descriptor =>
      setting.Introduces setting.known
        { name := declaration.name, kind := .variable, descriptor } := by
  have insideInitializer : ∀ value ∈ declaration.initializer, setting.inside value.node := by
    intro value isValue
    refine setting.child _ inside _ ?_
    rw [Node.children_property, List.mem_append, Option.mem_toList, Option.mem_toList]
    exact .inr (Option.mem_map_of_mem Node.expression isValue)
  refine (assures_writtenType? sees _).bind fun declared holdsDeclared => ?_
  refine (assures_checkInitializer sees _ insideInitializer).bind fun inferred holdsInferred => ?_
  have holds : ∀ known ∈ declared.or inferred, setting.Holds known := by
    intro known isKnown
    rcases Option.or_eq_some_iff.mp isKnown with isDeclared | ⟨-, isInferred⟩
    · exact holdsDeclared known isDeclared
    · exact holdsInferred known isInferred
  refine (assures_localType declaration holds).bind fun type holdsType => .of_pure ⟨?_, ?_⟩
  · exact fun known isKnown => Option.some.inj isKnown ▸ holdsType
  · exact fun _ same => by cases same

/-- By induction on the statements: each local variable is one more symbol that is seen. -/
theorem assures_checkStatements (sees : setting.Sees around) (statements : List Statement)
    (block : List (Symbol Descriptor))
    (introduces : ∀ symbol ∈ block, setting.Introduces setting.known symbol)
    (inside : ∀ statement ∈ statements, setting.inside statement.node) :
    (around.checkStatements block statements).Assures setting fun _ => True := by
  induction statements generalizing block with
  | nil => exact .of_pure trivial
  | cons statement rest ih =>
      obtain ⟨insideFirst, insideRest⟩ := List.forall_mem_cons.mp inside
      cases statement with
      | «variable» declaration =>
          refine (assures_describeLocal (sees.inside introduces) insideFirst).bind
            fun descriptor introduced => ?_
          refine (assures_reportConflict _ _ _).bind fun _ _ => ?_
          refine (assures_write (fun _ => .declared _ _) rfl).bind fun _ _ => ih _ ?_ insideRest
          exact List.forall_mem_append.mpr ⟨introduces, List.forall_mem_singleton.mpr introduced⟩
      | expression expression =>
          refine (assures_infer (sees.inside introduces) expression insideFirst).bind fun _ _ => ?_
          exact ih block introduces insideRest

theorem assures_checkFunction (sees : setting.Sees around) {function : Function}
    (inside : setting.inside (Node.function function)) {descriptor : FunctionDescriptor}
    (describes : setting.Describes setting.known (.function descriptor)) :
    (around.checkFunction function descriptor).Assures setting fun _ => True := by
  have insideBody : setting.inside function.body.node := by
    refine setting.child _ inside _ ?_
    rw [Node.children_function]
    exact List.mem_append_right _ (List.mem_singleton_self _)
  refine (assures_returnType describes).bind fun returned _ => ?_
  cases body : function.body with
  | block steps =>
      rw [body] at insideBody
      refine assures_checkStatements sees steps.statements [] (List.forall_mem_nil _)
        fun statement isStatement => setting.child _ insideBody _ ?_
      rw [Body.node, Block.children_eq]
      exact List.mem_map_of_mem isStatement
  | expression value =>
      rw [body] at insideBody
      dsimp only
      split
      · exact assures_check sees insideBody returned
      · exact .of_pure trivial

theorem assures_checkProperty (sees : setting.Sees around) {property : Property}
    (inside : setting.inside (Node.property property)) {holder : VariableDescriptor}
    (describes : setting.Describes setting.known (.variable holder)) :
    (around.checkProperty property holder).Assures setting fun _ => True := by
  refine (assures_variableType describes).bind fun type _ => ?_
  cases initialized : property.initializer with
  | none => exact .of_pure trivial
  | some value =>
      dsimp only
      split
      · refine assures_check sees (setting.child _ inside _ ?_) type
        rw [Node.children_property, initialized]
        exact List.mem_append_right _ (List.mem_singleton_self _)
      · exact .of_pure trivial

theorem assures_checkMember (sees : setting.Sees around) {site : Site}
    (inside : setting.inside site.member.node)
    (describes : setting.Describes setting.known site.introduction.symbol.descriptor) :
    (around.checkMember site).Assures setting fun _ => True := by
  obtain ⟨member, owner, classifiers, levels⟩ := site
  cases member with
  | function declared => exact assures_checkFunction sees inside describes
  | property declared => exact assures_checkProperty sees inside describes

end Surroundings

/-! ### Settled types

While a file is resolved the types of members are settled one after the other.  Each of them
comes from types that were settled before it, so all of them are held where the type parameters
of their members are in scope. -/

theorem Realm.Provides.within {realm : Realm} {known : InferredTypes} {entry : ClassEntry}
    (provides : realm.Provides known entry) (parameters : List TypeConstructor) :
    (realm.within parameters).Provides known entry :=
  ⟨provides.members, provides.ordinary, provides.parameters⟩

/-- The body that decides the type of a member is in the member. -/
theorem Tree.Member.mem_subtree_of_openBody? {member : Member} {body : Expr}
    (isOpen : member.openBody? = some body) : body.node ∈ member.node.subtree := by
  cases member with
  | property declared =>
      cases written : declared.type with
      | some type => simp [openBody?, written] at isOpen
      | none =>
          refine Node.mem_subtree_of_child ?_ body.node.mem_subtree_self
          have initialized : declared.initializer = some body := by
            simpa [openBody?, written] using isOpen
          rw [node, Node.children_property, initialized]
          exact List.mem_append_right _ (List.mem_singleton_self _)
  | function declared =>
      cases written : declared.returnType with
      | some type => simp [openBody?, written] at isOpen
      | none =>
          cases inner : declared.body with
          | block steps => simp [openBody?, written, inner] at isOpen
          | expression value =>
              obtain rfl : value = body := by simpa [openBody?, written, inner] using isOpen
              refine Node.mem_subtree_of_child ?_ value.node.mem_subtree_self
              rw [node, Node.children_function, inner]
              exact List.mem_append_right _ (List.mem_singleton_self _)

/-- A type that is written down for an expression is held in some member with the expression. -/
def Account.Confines (account : Account) (contents : List TopLevel) (node : NodeRef)
    (type : NominalType) : Prop :=
  node.kind.isExpression = true → ∃ site ∈ TopLevel.sitesOf contents,
    (account.within site.parameters).Holds type ∧
      ∃ here ∈ site.member.node.subtree, here.ref = node

namespace Account.Tracks

variable {account : Account} {contents : List TopLevel} {known : InferredTypes} {site : Site}

/-- What is known where a member is declared. -/
def setting (tracks : account.Tracks contents known) (site : Site)
    (inside : account.inside site.member.node) : Setting where
  toAccount := account.narrow site.parameters inside
  known
  provides constructor entry found := (tracks.provides constructor entry found).within _

variable (tracks : account.Tracks contents known) (isSite : site ∈ TopLevel.sitesOf contents)
  (inside : account.inside site.member.node)

include isSite

theorem sees (own : NodeRef) :
    (tracks.setting site inside).Sees (account.base.view contents site own) :=
  ⟨rfl, tracks.introduces_levels isSite⟩

theorem assures_siteScript :
    (account.base.siteScript site).Assures (tracks.setting site inside) fun _ => True := by
  have describes : (account.within site.parameters).Describes known _ :=
    (tracks.introduces_site isSite).describes.mono (List.subset_append_right _ _)
  have assures := Surroundings.assures_checkMember (tracks.sees isSite inside noDeclaration)
    site.member.node.mem_subtree_self describes
  rw [← tracks.laid.aroundSite_eq isSite] at assures
  exact assures

/-- The body of an open member is inferred from what is seen there. -/
theorem assures_body {script : Script account.base.isOpenType NominalType}
    (isBody : account.base.body? site.member.node.ref = some script) :
    script.Assures (tracks.setting site inside) (account.within site.parameters).Holds := by
  obtain ⟨scope, -, reaches, put⟩ := tracks.laid.placed site isSite
  obtain ⟨deferred, found, rfl⟩ := Option.map_eq_some_iff.mp isBody
  rw [put] at found
  obtain ⟨body, isOpen, rfl⟩ := Option.map_eq_some_iff.mp found
  have assures := Surroundings.assures_infer (tracks.sees isSite inside site.member.node.ref) body
    (Member.mem_subtree_of_openBody? isOpen)
  rw [← tracks.laid.around_eq reaches] at assures
  exact assures.weaken fun _ => And.left

/-- What a script of a member writes down about expressions is held in the member. -/
theorem confines_of_assures {isOpen : NodeRef → Bool} {α : Type} {accept : α → Prop}
    {script : Script isOpen α} (assures : script.Assures (tracks.setting site inside) accept)
    {value : α} {remarks : List Remark} (outcome : script.outcome known = some (value, remarks))
    (written : ∀ remark ∈ remarks, account.written remark) :
    accept value ∧
      ∀ node type, .typed node type ∈ remarks → account.Confines contents node type := by
  obtain ⟨accepted, permits⟩ := assures _ outcome written
  refine ⟨accepted, fun node type isWritten isExpression => ?_⟩
  obtain ⟨holds, here, isInside, same⟩ := permits node type isWritten isExpression
  exact ⟨site, isSite, holds, here, isInside, same⟩

end Account.Tracks

namespace Account

variable {account : Account} {contents : List TopLevel} {known : List (NodeRef × NominalType)}

/-- One more type is settled: it is held where its member is declared. -/
theorem Tracks.settle (tracks : account.Tracks contents ⟨known⟩)
    (inside : ∀ site ∈ TopLevel.sitesOf contents, account.inside site.member.node)
    {settlement : Settlement} {script : Script account.base.isOpenType NominalType}
    (isBody : account.base.body? settlement.node = some script)
    (outcome : script.outcome ⟨known⟩ = some (settlement.type, settlement.remarks))
    (written : ∀ remark ∈ settlement.remarks, account.written remark) :
    account.Tracks contents ⟨known ++ [settlement.entry]⟩ ∧
      ∀ node type, .typed node type ∈ settlement.remarks → account.Confines contents node type := by
  have confines (site : Site) (isSite : site ∈ TopLevel.sitesOf contents)
      (same : site.member.node.ref = settlement.node) :=
    tracks.confines_of_assures isSite (inside site isSite)
      (tracks.assures_body isSite (inside site isSite) (same ▸ isBody)) outcome written
  constructor
  · refine { tracks with settled := fun site isSite type isKnown => ?_ }
    rw [Table.get?, Table.lookupIn_append] at isKnown
    rcases Option.or_eq_some_iff.mp isKnown with wasKnown | ⟨-, isNew⟩
    · exact tracks.settled site isSite type wasKnown
    · obtain ⟨sameNode, sameType⟩ :=
        Prod.mk.inj (List.mem_singleton.mp (Table.mem_of_lookupIn isNew))
      exact sameType ▸ (confines site isSite sameNode).1
  · obtain ⟨deferred, found, -⟩ := Option.map_eq_some_iff.mp isBody
    obtain ⟨site, isSite, same, -⟩ := tracks.laid.exists_site found
    exact (confines site isSite same).2

/-- All types that are settled are held, and so is what is written down on the way. -/
theorem Tracks.settleAll {settlements : List Settlement}
    (sound : Sound account.base.body? known settlements) (tracks : account.Tracks contents ⟨known⟩)
    (inside : ∀ site ∈ TopLevel.sitesOf contents, account.inside site.member.node)
    (written : ∀ settlement ∈ settlements, ∀ remark ∈ settlement.remarks,
      account.written remark) :
    account.Tracks contents ⟨known ++ settlements.map Settlement.entry⟩ ∧
      ∀ settlement ∈ settlements, ∀ node type, .typed node type ∈ settlement.remarks →
        account.Confines contents node type := by
  induction sound with
  | nil known =>
      rw [List.map_nil, List.append_nil]
      exact ⟨tracks, List.forall_mem_nil _⟩
  | cons isBody outcome new _ ih =>
      obtain ⟨writtenFirst, writtenRest⟩ := List.forall_mem_cons.mp written
      obtain ⟨tracksFirst, confinesFirst⟩ := tracks.settle inside isBody outcome writtenFirst
      obtain ⟨tracksRest, confinesRest⟩ := ih tracksFirst writtenRest
      rw [List.append_assoc] at tracksRest
      exact ⟨tracksRest, List.forall_mem_cons.mpr ⟨confinesFirst, confinesRest⟩⟩

/-- Where all members are checked and nothing is reported, everything that is written down about
expressions is held in the members where they occur. -/
theorem confines_of_finished {after : ResolutionState} {settlements : List Settlement}
    (laid : account.base.Laid contents)
    (finished : Finished contents account.base after settlements)
    (inside : ∀ site ∈ TopLevel.sitesOf contents, account.inside site.member.node)
    {total : List Remark} (perm : total.Perm (TopLevel.remarks contents ++
      ((TopLevel.sitesOf contents).flatMap fun site =>
          (account.base.siteScript site).remarks after.inferred) ++
        settlements.flatMap Settlement.remarks))
    (written : ∀ remark ∈ total, account.written remark) {node : NodeRef} {type : NominalType}
    (isTyped : .typed node type ∈ total) : account.Confines contents node type := by
  have writtenAll remark (isRemark : remark ∈ _) := written remark (perm.mem_iff.mpr isRemark)
  obtain ⟨writtenRest, writtenSettled⟩ := List.forall_mem_append.mp writtenAll
  obtain ⟨writtenHeads, writtenChecks⟩ := List.forall_mem_append.mp writtenRest
  have tracksNothing : account.Tracks contents ⟨[]⟩ :=
    ⟨laid, writtenHeads, fun _ _ _ isKnown => by cases isKnown⟩
  obtain ⟨tracks, confinesSettled⟩ := tracksNothing.settleAll finished.sound inside
    fun settlement isSettlement remark isRemark =>
      writtenSettled remark (List.mem_flatMap.mpr ⟨settlement, isSettlement, isRemark⟩)
  rw [List.nil_append, ← finished.inferred] at tracks
  rcases List.mem_append.mp (perm.mem_iff.mp isTyped) with isEarlier | isSettled
  · rcases List.mem_append.mp isEarlier with isHead | isChecked
    · intro isExpression
      rw [(TopLevel.sparesExpressions_remarks contents).of_typed_mem isHead] at isExpression
      cases isExpression
    · obtain ⟨site, isSite, isChecked⟩ := List.mem_flatMap.mp isChecked
      obtain ⟨⟨_, remarks⟩, outcome⟩ := Option.isSome_iff_exists.mp (finished.checks site isSite)
      rw [Script.remarks_of_outcome outcome] at isChecked
      refine (tracks.confines_of_assures isSite (inside site isSite)
        (tracks.assures_siteScript isSite (inside site isSite)) outcome
          fun remark isRemark => ?_).2 node type isChecked
      refine writtenChecks remark (List.mem_flatMap.mpr ⟨site, isSite, ?_⟩)
      rwa [Script.remarks_of_outcome outcome]
  · obtain ⟨settlement, isSettlement, isRemark⟩ := List.mem_flatMap.mp isSettled
    exact confinesSettled settlement isSettlement node type isRemark

end Account

end Gloss
