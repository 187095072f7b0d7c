import Gloss.Proofs.Order.Settling
import Mathlib.Logic.Relation

/-!
# The course of demands

A script asks for open types one after the other, and each of them is known by then, or it
is inferred for the asking.  The course of its questions says which bodies were inferred
in the meantime, each of them at most once, and where a declaration turned out to depend
on itself.  It is told for all files, whether or not their declarations depend on themselves.
-/

namespace Gloss

/-- Types that were asked for, with the answers. -/
abbrev Replies := List (NodeRef × NominalType)

namespace Script

variable {isOpen : NodeRef → Bool} {α β : Type} {script : Script isOpen α}
  {next : α → Script isOpen β}

/-- A run of a script, with what it asks for. -/
inductive Trail : Script isOpen α → Replies → List Remark → α → Prop
  | done (value : α) : Trail (done value) [] [] value
  | write {remark : Option NominalType → Remark} {rest : Script isOpen α} {replies : Replies}
      {remarks : List Remark} {value : α} (shown : Option NominalType)
      (trail : Trail rest replies remarks value) :
      Trail (write remark rest) replies (remark shown :: remarks) value
  | ask {node : NodeRef} {asked : isOpen node = true} {next : NominalType → Script isOpen α}
      {replies : Replies} {remarks : List Remark} {value : α} (type : NominalType)
      (trail : Trail (next type) replies remarks value) :
      Trail (ask node asked next) ((node, type) :: replies) remarks value

theorem trail_pure_iff {value other : α} {replies : Replies} {remarks : List Remark} :
    Trail (pure value : Script isOpen α) replies remarks other ↔
      replies = [] ∧ remarks = [] ∧ other = value := by
  constructor
  · intro trail
    cases trail
    exact ⟨rfl, rfl, rfl⟩
  · rintro ⟨rfl, rfl, rfl⟩
    exact .done _

theorem Trail.bind {replies others : Replies} {remarks later : List Remark} {first : α} {value : β}
    (trail : script.Trail replies remarks first) (goesOn : (next first).Trail others later value) :
    (script >>= next).Trail (replies ++ others) (remarks ++ later) value := by
  change (script.bind next).Trail _ _ _
  induction trail with
  | done first => exact goesOn
  | write shown _ ih => exact .write shown (ih goesOn)
  | ask type _ ih => exact .ask type (ih goesOn)

theorem trail_bind_iff {replies : Replies} {remarks : List Remark} {value : β} :
    (script >>= next).Trail replies remarks value ↔
      ∃ first repliesFirst repliesLater earlier later,
        script.Trail repliesFirst earlier first ∧ (next first).Trail repliesLater later value ∧
          replies = repliesFirst ++ repliesLater ∧ remarks = earlier ++ later := by
  constructor
  · change (script.bind next).Trail _ _ _ → _
    intro trail
    induction script generalizing replies remarks with
    | done first => exact ⟨first, [], replies, [], remarks, .done first, trail, rfl, rfl⟩
    | write remark rest ih =>
        cases trail with
        | write shown trail =>
            obtain ⟨first, repliesFirst, repliesLater, earlier, later, trailRest, trailLater, rfl,
              rfl⟩ := ih trail
            exact ⟨first, repliesFirst, repliesLater, _, later, .write shown trailRest, trailLater,
              rfl, rfl⟩
    | ask node asked rest ih =>
        cases trail with
        | ask type trail =>
            obtain ⟨first, repliesFirst, repliesLater, earlier, later, trailRest, trailLater, rfl,
              rfl⟩ := ih type trail
            exact ⟨first, _, repliesLater, earlier, later, .ask type trailRest, trailLater, rfl,
              rfl⟩
  · rintro ⟨first, repliesFirst, repliesLater, earlier, later, trail, trailLater, rfl, rfl⟩
    exact trail.bind trailLater

theorem Trail.runs {replies : Replies} {remarks : List Remark} {value : α}
    (trail : script.Trail replies remarks value) : script.Runs remarks value := by
  induction trail with
  | done value => exact .done value
  | write shown _ ih => exact .write shown ih
  | ask type _ ih => exact .ask type ih

/-- Only open types are asked for. -/
theorem Trail.asks_isOpen {replies : Replies} {remarks : List Remark} {value : α}
    (trail : script.Trail replies remarks value) : ∀ reply ∈ replies, isOpen reply.1 = true := by
  induction trail with
  | done => exact List.forall_mem_nil _
  | write _ _ ih => exact ih
  | @ask _ asked _ _ _ _ _ _ ih => exact List.forall_mem_cons.mpr ⟨asked, ih⟩

end Script

namespace ResolutionState

/-- The report that the type of a declaration depends on itself. -/
def recursion (name : String) (node : NodeRef) : Remark :=
  .problem { problem := .recursiveType name, node }

/-- How questions are answered while some declarations are active: what is known before and
after, and what is written down along the way.  While the type of a declaration is inferred, its
own body asks the next questions. -/
inductive Course (base : ResolutionState) :
    List NodeRef → Replies → InferredTypes → List Remark → InferredTypes → Prop
  | nil (active : List NodeRef) (known : InferredTypes) : Course base active [] known [] known
  | known {active : List NodeRef} {node : NodeRef} {type : NominalType} {replies : Replies}
      {known after : InferredTypes} {remarks : List Remark} (isKnown : known.get? node = some type)
      (later : Course base active replies known remarks after) :
      Course base active ((node, type) :: replies) known remarks after
  | recursive {active : List NodeRef} {node : NodeRef} {replies : Replies}
      {known after : InferredTypes} {remarks : List Remark} (name : String)
      (unknown : known.get? node = none) (isActive : node ∈ active)
      (later : Course base active replies (known.insert node .error) remarks after) :
      Course base active ((node, .error) :: replies) known (recursion name node :: remarks) after
  | inferred {active : List NodeRef} {node : NodeRef} {type : NominalType}
      {asked replies : Replies} {known middle after : InferredTypes}
      {own remarks others : List Remark} {script : Script base.isOpenType NominalType}
      (unknown : known.get? node = none) (isIdle : node ∉ active)
      (isBody : base.body? node = some script) (trail : script.Trail asked own type)
      (inner : Course base (node :: active) asked known remarks middle)
      (later : Course base active replies (middle.insert node type) others after) :
      Course base active ((node, type) :: replies) known (own ++ remarks ++ others) after

variable {base before middle after : ResolutionState} {active : List NodeRef}
  {replies : Replies} {own more : List Remark}

/-- New types are entered behind those that are known. -/
theorem Course.keys_prefix {known after : InferredTypes} {remarks : List Remark}
    (course : base.Course active replies known remarks after) : known.keys <+: after.keys := by
  induction course with
  | nil active known => exact List.prefix_refl _
  | known _ _ ih => exact ih
  | recursive name _ _ _ ih => exact (Table.keys_prefix_insert _ _ _).trans ih
  | inferred _ _ _ _ _ _ ihInner ih =>
      exact ihInner.trans ((Table.keys_prefix_insert _ _ _).trans ih)

/-! ### What is written down for demands -/

/-- What is written down for demands: by runs of the bodies that were put off for some
declarations, and where a declaration turns out to depend on itself. -/
inductive Demanded (base : ResolutionState) : List NodeRef → List Remark → Prop
  | nil : Demanded base [] []
  | body {node : NodeRef} {script : Script base.isOpenType NominalType} {remarks rest : List Remark}
      {type : NominalType} {nodes : List NodeRef} (isBody : base.body? node = some script)
      (runs : script.Runs remarks type) (others : Demanded base nodes rest) :
      Demanded base (node :: nodes) (remarks ++ rest)
  | recursive (name : String) (node : NodeRef) {nodes : List NodeRef} {rest : List Remark}
      (others : Demanded base nodes rest) : Demanded base nodes (recursion name node :: rest)

theorem Demanded.append {nodes later : List NodeRef} {first second : List Remark}
    (demanded : base.Demanded nodes first) (goesOn : base.Demanded later second) :
    base.Demanded (nodes ++ later) (first ++ second) := by
  induction demanded with
  | nil => exact goesOn
  | body isBody runs _ ih =>
      rw [List.append_assoc]
      exact .body isBody runs ih
  | recursive name node _ ih => exact .recursive name node ih

/-- Along a course each body is run at most once, and none of a declaration that is active or
whose type was known before. -/
theorem Course.exists_demanded {known after : InferredTypes} {remarks : List Remark}
    (course : base.Course active replies known remarks after) :
    ∃ nodes, base.Demanded nodes remarks ∧ nodes.Nodup ∧
      ∀ node ∈ nodes, node ∉ active ∧ node ∉ known.keys ∧ node ∈ after.keys := by
  induction course with
  | nil active known => exact ⟨[], .nil, .nil, List.forall_mem_nil _⟩
  | known _ _ ih => exact ih
  | recursive name _ _ _ ih =>
      obtain ⟨nodes, demanded, once, apart⟩ := ih
      refine ⟨nodes, .recursive name _ demanded, once, fun other isNode => ?_⟩
      obtain ⟨isIdle, isNew, isKnown⟩ := apart other isNode
      exact ⟨isIdle, fun isOld => isNew ((Table.keys_prefix_insert _ _ _).subset isOld), isKnown⟩
  | @inferred active node type asked replies known middle after own remarks others script unknown
      isIdle isBody trail inner later ihInner ih =>
      obtain ⟨nodes, demanded, once, apart⟩ := ihInner
      obtain ⟨laterNodes, laterDemanded, laterOnce, laterApart⟩ := ih
      -- What comes later is new even after this type was entered.
      have entered : middle.keys <+: (middle.insert node type).keys :=
        Table.keys_prefix_insert _ _ _
      have ownKey : node ∈ (middle.insert node type).keys := Table.mem_keys_insert.mpr (.inl rfl)
      refine ⟨node :: (nodes ++ laterNodes), ?_, ?_, List.forall_mem_cons.mpr ⟨?_, ?_⟩⟩
      · rw [List.append_assoc]
        exact .body isBody trail.runs (demanded.append laterDemanded)
      · refine List.nodup_cons.mpr ⟨fun isOther => ?_, ?_⟩
        · rcases List.mem_append.mp isOther with isInner | isLater
          · exact (apart node isInner).1 List.mem_cons_self
          · exact (laterApart node isLater).2.1 ownKey
        · refine List.nodup_append.mpr ⟨once, laterOnce, ?_⟩
          rintro other isInner _ isLater rfl
          exact (laterApart other isLater).2.1 (entered.subset (apart other isInner).2.2)
      · exact ⟨isIdle, Table.get?_eq_none_iff.mp unknown, later.keys_prefix.subset ownKey⟩
      · refine List.forall_mem_append.mpr ⟨fun other isInner => ?_, fun other isLater => ?_⟩
        · obtain ⟨notActive, isNew, inMiddle⟩ := apart other isInner
          exact ⟨fun isActive => notActive (List.mem_cons_of_mem _ isActive), isNew,
            later.keys_prefix.subset (entered.subset inMiddle)⟩
        · obtain ⟨notActive, isNew, isKnown⟩ := laterApart other isLater
          exact ⟨notActive,
            fun isOld => isNew (entered.subset (inner.keys_prefix.subset isOld)), isKnown⟩

end ResolutionState

end Gloss

/-!
### Declarations that depend on themselves

What is known comes in some order.  A declaration whose body asks only for what came
before it was inferred without any trouble; one that came while its own body was still being
inferred was reported.  So on a cycle of questions somebody is reported, and only
declarations on such a cycle are.
-/

namespace Gloss

/-- Members of a list stand in the same order in a longer list. -/
theorem idxOf_lt_of_prefix {α : Type} [DecidableEq α] {first second : List α} {value other : α}
    (isInitial : first <+: second) (isMember : other ∈ first)
    (earlier : first.idxOf value < first.idxOf other) :
    second.idxOf value < second.idxOf other := by
  obtain ⟨rest, rfl⟩ := isInitial
  have isMemberFirst : value ∈ first :=
    List.idxOf_lt_length_iff.mp (earlier.trans (List.idxOf_lt_length_of_mem isMember))
  rwa [List.idxOf_append_of_mem isMemberFirst, List.idxOf_append_of_mem isMember]

/-- A cycle of one relation is a cycle of another one in which all of its steps are. -/
theorem transGen_of_onCycle {α : Type} {relation other : α → α → Prop} {start : α}
    (onCycle : Relation.TransGen relation start start)
    (steps : ∀ first second, Relation.ReflTransGen relation start first → relation first second →
      Relation.ReflTransGen relation second start → other first second) :
    Relation.TransGen other start start := by
  suffices ∀ last, Relation.TransGen relation start last →
      Relation.ReflTransGen relation last start → Relation.TransGen other start last from
    this start onCycle .refl
  intro last reaches back
  induction reaches with
  | single step => exact .single (steps _ _ .refl step back)
  | tail reaches step ih =>
      exact (ih (.head step back)).tail (steps _ _ reaches.to_reflTransGen step back)

namespace ResolutionState

namespace Course

variable {base : ResolutionState} {active : List NodeRef} {replies : Replies}
  {known after : InferredTypes} {remarks : List Remark} {node : NodeRef} {type : NominalType}

/-! ### What is known -/

/-- What is known stays as it is. -/
theorem get?_of_known (course : base.Course active replies known remarks after)
    (isKnown : known.get? node = some type) : after.get? node = some type := by
  induction course with
  | nil active known => exact isKnown
  | known _ _ ih => exact ih isKnown
  | recursive name unknown _ _ ih =>
      refine ih (Table.get?_insert_of_unknown unknown isKnown isKnown)
  | inferred unknown _ _ _ _ _ ihInner ih =>
      exact ih (Table.get?_insert_of_unknown unknown isKnown (ihInner isKnown))

/-- Whatever is asked for is known in the end. -/
theorem mem_keys_of_mem_replies (course : base.Course active replies known remarks after) :
    ∀ reply ∈ replies, reply.1 ∈ after.keys := by
  induction course with
  | nil active known => exact nofun
  | known isKnown later ih =>
      exact List.forall_mem_cons.mpr
        ⟨later.keys_prefix.subset (Table.mem_keys_of_get? isKnown), ih⟩
  | recursive name _ _ later ih | inferred _ _ _ _ _ later _ ih =>
      exact List.forall_mem_cons.mpr
        ⟨later.keys_prefix.subset (Table.mem_keys_insert.mpr (.inl rfl)), ih⟩

/-! ### Who is reported -/

/-- The body of a declaration was inferred, and what it wrote down is among some remarks. -/
def Infers (base : ResolutionState) (node : NodeRef) (asked : Replies) (remarks : List Remark)
    (type : NominalType) : Prop :=
  ∃ script own, base.body? node = some script ∧ script.Trail asked own type ∧ own ⊆ remarks

theorem Infers.mono {asked : Replies} {more : List Remark}
    (infers : Infers base node asked remarks type) (included : remarks ⊆ more) :
    Infers base node asked more type := by
  obtain ⟨script, own, isBody, trail, within⟩ := infers
  exact ⟨script, own, isBody, trail, List.Subset.trans within included⟩

/-- Unless it was reported, a declaration that comes to be known comes after all that its body
asks for. -/
theorem reported_or_infers (course : base.Course active replies known remarks after)
    (unknown : node ∉ known.keys) (isKnown : node ∈ after.keys) :
    (∃ name, recursion name node ∈ remarks) ∨
      ∃ asked type, Infers base node asked remarks type ∧
        ∀ reply ∈ asked, after.keys.idxOf reply.1 < after.keys.idxOf node := by
  induction course with
  | nil active known => exact absurd isKnown unknown
  | known _ _ ih => exact ih unknown isKnown
  | @recursive active other replies known after remarks name _ _ _ ih =>
      by_cases same : node = other
      · subst same
        exact .inl ⟨name, List.mem_cons_self⟩
      · have stillUnknown : node ∉ (known.insert other .error).keys := fun isKey =>
          (Table.mem_keys_insert.mp isKey).elim same unknown
        refine (ih stillUnknown isKnown).imp ?_ ?_
        · exact fun ⟨reported, isReported⟩ => ⟨reported, List.mem_cons_of_mem _ isReported⟩
        · exact fun ⟨asked, type, infers, earlier⟩ =>
            ⟨asked, type, infers.mono (List.subset_cons_self _ _), earlier⟩
  | @inferred active other type asked replies known middle after own remarks others script _ isIdle
      isBody trail inner later ihInner ih =>
      by_cases inMiddle : node ∈ middle.keys
      · -- Its place was taken while the body was inferred, and it keeps that place.
        have isInitial : middle.keys <+: after.keys :=
          (Table.keys_prefix_insert _ _ _).trans later.keys_prefix
        refine (ihInner unknown inMiddle).imp ?_ ?_
        · exact fun ⟨name, isReported⟩ =>
            ⟨name, List.mem_append_left _ (List.mem_append_right _ isReported)⟩
        · rintro ⟨asked, type, infers, earlier⟩
          refine ⟨asked, type, infers.mono ?_, fun reply isReply => ?_⟩
          · exact List.Subset.trans (List.subset_append_right _ _) (List.subset_append_left _ _)
          · exact idxOf_lt_of_prefix isInitial inMiddle (earlier reply isReply)
      · by_cases same : node = other
        · -- It comes last, when its whole body is inferred.
          subst same
          refine .inr ⟨asked, type, ⟨script, own, isBody, trail, ?_⟩, fun reply isReply => ?_⟩
          · exact List.Subset.trans (List.subset_append_left _ _) (List.subset_append_left _ _)
          · have isInitial : middle.keys ++ [node] <+: after.keys :=
              Table.keys_insert_of_notMem inMiddle type ▸ later.keys_prefix
            refine idxOf_lt_of_prefix isInitial (by simp) ?_
            have asksMiddle := inner.mem_keys_of_mem_replies reply isReply
            rw [List.idxOf_append_of_mem asksMiddle, List.idxOf_append_of_notMem inMiddle]
            exact Nat.lt_of_lt_of_le (List.idxOf_lt_length_of_mem asksMiddle) (Nat.le_add_right _ _)
        · have stillUnknown : node ∉ (middle.insert other type).keys := fun isKey =>
            (Table.mem_keys_insert.mp isKey).elim same inMiddle
          refine (ih stillUnknown isKnown).imp ?_ ?_
          · exact fun ⟨name, isReported⟩ => ⟨name, List.mem_append_right _ isReported⟩
          · exact fun ⟨asked, type, infers, earlier⟩ =>
              ⟨asked, type, infers.mono (List.subset_append_right _ _), earlier⟩

/-- What becomes known of a declaration that was not active is what its body came to last. -/
theorem infers_of_idle (course : base.Course active replies known remarks after)
    (unknown : known.get? node = none) (isIdle : node ∉ active)
    (isKnown : after.get? node = some type) :
    ∃ asked, Infers base node asked remarks type := by
  induction course with
  | nil active known =>
      rw [unknown] at isKnown
      cases isKnown
  | known _ _ ih => exact ih unknown isIdle isKnown
  | @recursive active other replies known after remarks name _ isActive _ ih =>
      have different : other ≠ node := fun same => isIdle (same ▸ isActive)
      have stillUnknown : (known.insert other .error).get? node = none := by
        rw [Table.get?_insert, if_neg different, unknown]
      obtain ⟨asked, infers⟩ := ih stillUnknown isIdle isKnown
      exact ⟨asked, infers.mono (List.subset_cons_self _ _)⟩
  | @inferred active other found asked replies known middle after own remarks others script _ _
      isBody trail inner later ihInner ih =>
      by_cases same : other = node
      · -- What its body came to is entered over anything that was known in the meantime.
        subst same
        have isLast : after.get? other = some found :=
          later.get?_of_known (by rw [Table.get?_insert, if_pos rfl])
        rw [isKnown] at isLast
        cases isLast
        refine ⟨asked, script, own, isBody, trail, ?_⟩
        exact List.Subset.trans (List.subset_append_left _ _) (List.subset_append_left _ _)
      · cases inMiddle : middle.get? node with
        | some value =>
            have isLast : after.get? node = some value :=
              later.get?_of_known (by rw [Table.get?_insert, if_neg same, inMiddle])
            rw [isKnown] at isLast
            cases isLast
            have stillIdle : node ∉ other :: active :=
              fun isMember =>
                (List.mem_cons.mp isMember).elim (fun isOther => same isOther.symm) isIdle
            obtain ⟨asked, infers⟩ := ihInner unknown stillIdle inMiddle
            refine ⟨asked, infers.mono ?_⟩
            exact List.Subset.trans (List.subset_append_right _ _) (List.subset_append_left _ _)
        | none =>
            have stillUnknown : (middle.insert other found).get? node = none := by
              rw [Table.get?_insert, if_neg same, inMiddle]
            obtain ⟨asked, infers⟩ := ih stillUnknown isIdle isKnown
            exact ⟨asked, infers.mono (List.subset_append_right _ _)⟩

end Course

/-- The body of one declaration asks for the type of the other. -/
def Asks (base : ResolutionState) (node other : NodeRef) : Prop :=
  ∃ script asked own type, base.body? node = some script ∧
    Script.Trail script asked own type ∧ ∃ reply ∈ asked, reply.1 = other

/-- A declaration that was reported is on a cycle of questions. -/
theorem Course.transGen_asks {base : ResolutionState} {active : List NodeRef} {replies : Replies}
    {known after : InferredTypes} {remarks : List Remark}
    (course : base.Course active replies known remarks after)
    (plain : ∀ node script asked own type, base.body? node = some script →
      Script.Trail script asked own type → ∀ remark ∈ own, remark.Plain)
    (leads : ∀ node ∈ active, ∀ reply ∈ replies, Relation.TransGen base.Asks node reply.1)
    {name : String} {node : NodeRef} (isReported : recursion name node ∈ remarks) :
    Relation.TransGen base.Asks node node := by
  induction course with
  | nil active known => cases isReported
  | known _ _ ih =>
      exact ih (fun node isActive => (List.forall_mem_cons.mp (leads node isActive)).2) isReported
  | recursive other _ isActive _ ih =>
      rcases List.mem_cons.mp isReported with same | isLater
      · cases same
        exact leads node isActive _ List.mem_cons_self
      · exact ih (fun node isActive => (List.forall_mem_cons.mp (leads node isActive)).2) isLater
  | @inferred active other type asked replies known middle after own remarks others script _ _
      isBody trail inner later ihInner ih =>
      -- Whatever the body asks for is asked for by all that is active, in some steps.
      have asks : ∀ reply ∈ asked, base.Asks other reply.1 := fun reply isReply =>
        ⟨script, asked, own, type, isBody, trail, reply, isReply, rfl⟩
      rcases List.mem_append.mp isReported with isEarlier | isLater
      · rcases List.mem_append.mp isEarlier with isOwn | isInner
        · exact absurd rfl (plain other script asked own type isBody trail _ isOwn _ name rfl)
        · refine ihInner (List.forall_mem_cons.mpr ⟨?_, ?_⟩) isInner
          · exact fun reply isReply => .single (asks reply isReply)
          · exact fun node isActive reply isReply =>
              (leads node isActive _ List.mem_cons_self).tail (asks reply isReply)
      · exact ih (fun node isActive => (List.forall_mem_cons.mp (leads node isActive)).2) isLater

end ResolutionState

end Gloss
