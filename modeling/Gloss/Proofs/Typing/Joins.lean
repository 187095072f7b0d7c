import Gloss.Proofs.Typing.Subtypes

/-!
# Joins

The join of two types lies below whatever both of them lie below.  It takes its arguments from
one of them, so it lies above both of them just when types of one class agree in their arguments.
-/

namespace Gloss

namespace NominalType

variable {first second top super : NominalType}

/-- What the join of two types is but for null. -/
def nearest (first second top : NominalType) : NominalType :=
  if first.constructor.isBottom then second
  else if second.constructor.isBottom then first
  else if first.constructor = second.constructor then first
  else top

theorem join_eq (firstSound : first.isError = false) (secondSound : second.isError = false)
    (top : NominalType) :
    first.join second top =
      (nearest first second top).withNullable (first.nullable || second.nullable) := by
  simp only [join, nearest, firstSound, secondSound, Bool.or_self, Bool.false_eq_true, if_false]
  split_ifs <;> rfl

theorem below_nearest (isTop : top.constructor.isTop = true) :
    first.Below (nearest first second top) := by
  unfold nearest
  split_ifs with bottom
  · exact .inl bottom
  · exact .refl first
  · exact .refl first
  · exact .inr (.inl isTop)

/-- Types of one class are told apart by their arguments only, unless the class is that of the
bottom type or the top type. -/
def Joinable (first second : NominalType) : Prop :=
  first.constructor = second.constructor → first.Below second

theorem Joinable.symm (joinable : Joinable first second) : Joinable second first := by
  intro same
  rw [Below, same]
  exact (joinable same.symm).imp_right fun below => below.imp (same ▸ ·) fun agree =>
    ⟨rfl, agree.2.symm⟩

theorem Joinable.below_nearest (joinable : Joinable first second)
    (isTop : top.constructor.isTop = true) : second.Below (nearest first second top) := by
  unfold nearest
  split_ifs with _ bottom same
  · exact .refl second
  · exact .inl bottom
  · exact joinable.symm same.symm
  · exact .inr (.inl isTop)

theorem Joinable.nearest_below (joinable : Joinable first second) :
    (nearest first second top).Below (nearest second first top) := by
  unfold nearest
  split_ifs with bottom bottomSecond _ same other other
  · exact .inl bottomSecond
  · exact .refl second
  · exact .refl first
  · exact joinable same
  · exact absurd same.symm other
  · exact absurd other.symm same
  · exact .refl top

/-- Two classes, neither of which is that of the bottom type, lie below the top type only. -/
theorem nearest_below (below : first.Below super) (secondBelow : second.Below super) :
    (nearest first second top).Below super := by
  unfold nearest
  split_ifs with bottom bottomSecond same
  · exact secondBelow
  · exact below
  · exact below
  · rcases below with isBottom | isTop | ⟨sameFirst, -⟩
    · exact absurd isBottom bottom
    · exact .inr (.inl isTop)
    · rcases secondBelow with isBottom | isTop | ⟨sameSecond, -⟩
      · exact absurd isBottom bottomSecond
      · exact .inr (.inl isTop)
      · exact absurd (sameFirst.trans sameSecond.symm) same

theorem join_of_isError (failed : first.isError = true ∨ second.isError = true) :
    first.join second top = error := by
  simp [join, failed]

theorem isSubtype_join_left (isTop : top.constructor.isTop = true) :
    first.isSubtype (first.join second top) = true := by
  by_cases failed : first.isError = true ∨ second.isError = true
  · rw [join_of_isError failed]
    exact isSubtype_of_isError (.inr rfl)
  · simp only [not_or, Bool.not_eq_true] at failed
    rw [join_eq failed.1 failed.2]
    exact Below.isSubtype (below_nearest isTop) fun null => by simp [null]

/-- The join of two types takes over the arguments of the first one, and is no upper bound of
the second one where those differ. -/
theorem isSubtype_join_right_iff (firstSound : first.isError = false)
    (secondSound : second.isError = false) (isTop : top.constructor.isTop = true) :
    second.isSubtype (first.join second top) = true ↔ Joinable first second := by
  rw [join_eq firstSound secondSound]
  constructor
  · intro right same
    by_cases bottom : first.constructor.isBottom = true
    · exact .inl bottom
    · have isFirst : nearest first second top = first := by
        simp [nearest, ← same, bottom]
      rw [isFirst, isSubtype_withNullable_iff secondSound firstSound] at right
      have joinable : Joinable second first := fun _ => right.2
      exact joinable.symm same
  · intro joinable
    exact Below.isSubtype (joinable.below_nearest isTop) fun null => by simp [null]

theorem isSubtype_join_comm (firstSound : first.isError = false)
    (secondSound : second.isError = false) (joinable : Joinable first second) :
    (first.join second top).isSubtype (second.join first top) = true := by
  rw [join_eq firstSound secondSound, join_eq secondSound firstSound,
    Bool.or_comm second.nullable]
  exact Below.isSubtype joinable.nearest_below id

/-- The join of two types lies above both of them, and in the other order it comes to a type
of which it is a subtype and which is a subtype of it. -/
structure BoundedByJoin (first second top : NominalType) : Prop where
  left : first.isSubtype (first.join second top) = true
  right : second.isSubtype (first.join second top) = true
  forward : (first.join second top).isSubtype (second.join first top) = true
  backward : (second.join first top).isSubtype (first.join second top) = true

theorem boundedByJoin_iff (firstSound : first.isError = false)
    (secondSound : second.isError = false) (isTop : top.constructor.isTop = true) :
    BoundedByJoin first second top ↔ Joinable first second := by
  have right := isSubtype_join_right_iff firstSound secondSound isTop
  constructor
  · intro bounded
    exact right.mp bounded.right
  · intro joinable
    exact ⟨isSubtype_join_left isTop, right.mpr joinable,
      isSubtype_join_comm firstSound secondSound joinable,
      isSubtype_join_comm secondSound firstSound joinable.symm⟩

/-- The join with an error type is an error, and every type is a subtype of that. -/
theorem isSubtype_join_iff (isTop : top.constructor.isTop = true) :
    first.isSubtype (first.join second top) = true ∧
        second.isSubtype (first.join second top) = true ↔
      first.isError = true ∨ second.isError = true ∨ Joinable first second := by
  rw [and_iff_right (isSubtype_join_left isTop)]
  by_cases failed : first.isError = true ∨ second.isError = true
  · rw [join_of_isError failed, ← or_assoc]
    exact iff_of_true (isSubtype_of_isError (.inr rfl)) (.inl failed)
  · have sound := failed
    simp only [not_or, Bool.not_eq_true] at sound
    rw [isSubtype_join_right_iff sound.1 sound.2 isTop, ← or_assoc, or_iff_right failed]

/-! ### The least type above two types -/

theorem join_isSubtype (below : first.isSubtype super = true)
    (secondBelow : second.isSubtype super = true) :
    (first.join second top).isSubtype super = true := by
  by_cases failed : first.isError = true ∨ second.isError = true
  · rw [join_of_isError failed]
    exact isSubtype_of_isError (.inl rfl)
  · simp only [not_or, Bool.not_eq_true] at failed
    cases superSound : super.isError with
    | true => exact isSubtype_of_isError (.inr superSound)
    | false =>
        simp only [isSubtype_iff, failed, superSound, Bool.false_eq_true, false_or]
          at below secondBelow
        obtain ⟨kept, below⟩ := below
        obtain ⟨keptSecond, secondBelow⟩ := secondBelow
        rw [join_eq failed.1 failed.2]
        refine Below.isSubtype (nearest_below below secondBelow) ?_
        rw [nullable_withNullable, Bool.or_eq_true]
        exact fun null => null.elim kept keptSecond

/-- The join of two types is a subtype of whatever both of them are subtypes of, and of nothing
else where it lies above both of them and is firm enough to conclude through it. -/
theorem join_isLeast (first second top : NominalType) :
    (∀ super : NominalType, first.isSubtype super = true → second.isSubtype super = true →
        (first.join second top).isSubtype super = true) ∧
      (first.isError = false → second.isError = false → top.constructor.isTop = true →
        first.Joinable second → (first.join second top).Mediates →
          ∀ super, (first.join second top).isSubtype super = true →
            first.isSubtype super = true ∧ second.isSubtype super = true) := by
  constructor
  · intro super below secondBelow
    exact join_isSubtype below secondBelow
  · intro firstSound secondSound isTop joinable mediates super below
    have left : first.isSubtype (first.join second top) = true := isSubtype_join_left isTop
    have right : second.isSubtype (first.join second top) = true :=
      (isSubtype_join_right_iff firstSound secondSound isTop).mpr joinable
    exact ⟨mediates _ _ left below, mediates _ _ right below⟩

/-- A list of numbers or null fits exactly where both do. -/
theorem join_isLeast_list_or_null :
    (Library.list Library.int).isSubtype ((Library.list Library.int).withNullable true) = true ∧
      (Library.nothing.withNullable true).isSubtype
          ((Library.list Library.int).withNullable true) = true ∧
        ((Library.list Library.int).join (Library.nothing.withNullable true)
          Library.any).isSubtype ((Library.list Library.int).withNullable true) = true ∧
          ∀ super, ((Library.list Library.int).join (Library.nothing.withNullable true)
              Library.any).isSubtype super = true ↔
            (Library.list Library.int).isSubtype super = true ∧
              (Library.nothing.withNullable true).isSubtype super = true := by
  obtain ⟨least, only⟩ :=
    join_isLeast (Library.list Library.int) (Library.nothing.withNullable true) Library.any
  have left :
      (Library.list Library.int).isSubtype ((Library.list Library.int).withNullable true) =
        true := by
    decide
  have right : (Library.nothing.withNullable true).isSubtype
      ((Library.list Library.int).withNullable true) = true := by
    decide
  have joinable : (Library.list Library.int).Joinable (Library.nothing.withNullable true) :=
    fun same => absurd same (by decide)
  have firm : ((Library.list Library.int).join (Library.nothing.withNullable true)
      Library.any).IsFirm :=
    ⟨by decide, by decide⟩
  have bounded := only rfl rfl rfl joinable (firm.mediates (by decide))
  exact ⟨left, right, least _ left right, fun super =>
    ⟨bounded super, fun below => least super below.1 below.2⟩⟩

end NominalType

end Gloss
