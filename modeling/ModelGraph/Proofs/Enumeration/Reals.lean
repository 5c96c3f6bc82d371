import Mathlib.Data.List.Basic
import ModelGraph.Value.Operation

/-!
# Reals that compare equal

A set of values keeps only the first of several values that compare equal, so that an
operator is applied to the one that was kept instead of the others.  Two reals match if they
compare equal or if neither is a number.  Matching reals are the same up to the sign of a
zero, and sums, products, opposites and comparisons of matching reals match.  Quotients and
powers are missing here, since they tell the two zeros apart.
-/

namespace ModelGraph

open Float.Model (UnpackedFloat pack)
open Float.Model.UnpackedFloat (Sign)

/-- Two reals compare equal, or neither is a number. -/
def RealMatches (x y : Float) : Prop :=
  (x == y) = true ∨ x.isNaN = true ∧ y.isNaN = true

/-- Two reals are the same up to the sign of a zero. -/
inductive EqUpToZeroSign : UnpackedFloat → UnpackedFloat → Prop where
  | same (u : UnpackedFloat) : EqUpToZeroSign u u
  | zeros (s t : Sign) : EqUpToZeroSign (.zero s) (.zero t)

theorem compare_sign_eq_iff {s t : Sign} : compare s t = .eq ↔ s = t := by
  cases s <;> cases t <;> simp <;> rfl

theorem compare_finite_eq_iff
    {s s' : Sign} {m m' : Nat} {e e' : Int} {positive : 0 < m} {positive' : 0 < m'} :
    (UnpackedFloat.finite s m e positive).compare (.finite s' m' e' positive') = some .eq ↔
      s = s' ∧ m = m' ∧ e = e' := by
  cases s <;> cases s' <;> dsimp only [UnpackedFloat.compare] <;>
    simp [Ordering.then_eq_eq, and_comm]

/-- Two reals compare equal if and only if they are the same number up to the sign of a zero. -/
theorem beq_eq_true_iff (u v : UnpackedFloat) :
    u.beq v = true ↔ EqUpToZeroSign u v ∧ u ≠ .notANumber := by
  unfold UnpackedFloat.beq
  rw [beq_iff_eq]
  constructor
  · intro equal
    cases u with
    | notANumber => cases equal
    | infinity s =>
        cases v with
        | infinity t =>
            rw [compare_sign_eq_iff.mp (Option.some.inj equal)]
            exact ⟨.same _, UnpackedFloat.noConfusion⟩
        | _ => cases s <;> cases equal
    | zero s =>
        cases v with
        | zero t => exact ⟨.zeros s t, UnpackedFloat.noConfusion⟩
        | notANumber => cases equal
        | infinity t | finite t => cases t <;> cases equal
    | finite s m e positive =>
        cases v with
        | finite t =>
            obtain ⟨rfl, rfl, rfl⟩ := compare_finite_eq_iff.mp equal
            exact ⟨.same _, UnpackedFloat.noConfusion⟩
        | infinity t => cases t <;> cases equal
        | _ => cases s <;> cases equal
  · rintro ⟨similar, isNumber⟩
    cases similar with
    | same =>
        cases u with
        | notANumber => exact absurd rfl isNumber
        | infinity s => exact congrArg some (compare_sign_eq_iff.mpr rfl)
        | zero s => rfl
        | finite s => exact compare_finite_eq_iff.mpr ⟨rfl, rfl, rfl⟩
    | zeros s t => rfl

/-- Matching reals are the same up to the sign of a zero. -/
theorem realMatches_iff (x y : Float) :
    RealMatches x y ↔ EqUpToZeroSign x.toModel.unpack y.toModel.unpack := by
  change x.toModel.unpack.beq y.toModel.unpack = true ∨
    x.toModel.unpack.isNaN = true ∧ y.toModel.unpack.isNaN = true ↔ _
  generalize x.toModel.unpack = u, y.toModel.unpack = v
  have isNaN_iff : ∀ u : UnpackedFloat, u.isNaN = true ↔ u = .notANumber := by
    intro u
    cases u with
    | notANumber => exact iff_of_true rfl rfl
    | _ => exact iff_of_false Bool.false_ne_true UnpackedFloat.noConfusion
  rw [beq_eq_true_iff, isNaN_iff, isNaN_iff]
  constructor
  · rintro (⟨similar, _⟩ | ⟨rfl, rfl⟩)
    · exact similar
    · exact .same _
  · intro similar
    by_cases noNumber : u = .notANumber
    · subst noNumber
      cases similar
      exact .inr ⟨rfl, rfl⟩
    · exact .inl ⟨similar, noNumber⟩

theorem unpack_pack_zero (s : Sign) : (pack (.zero s)).unpack = .zero s := by
  cases s <;> rfl

/-- Rounded results match if they are the same up to the sign of a zero. -/
theorem EqUpToZeroSign.realMatches
    {u v : UnpackedFloat}
    (similar : EqUpToZeroSign u v) :
    RealMatches (.ofModel (pack u)) (.ofModel (pack v)) := by
  rw [realMatches_iff]
  cases similar with
  | same => exact .same _
  | zeros s t =>
      rw [unpack_pack_zero, unpack_pack_zero]
      exact .zeros s t

namespace RealMatches

variable {x x' y y' : Float}

theorem refl (x : Float) : RealMatches x x :=
  (realMatches_iff x x).mpr (.same _)

theorem trans
    {z : Float}
    (first : RealMatches x y)
    (next : RealMatches y z) :
    RealMatches x z := by
  rw [realMatches_iff] at first next ⊢
  generalize x.toModel.unpack = u, y.toModel.unpack = v, z.toModel.unpack = w at first next ⊢
  cases first with
  | same => exact next
  | zeros s t =>
      cases next with
      | same => exact .zeros s t
      | zeros _ r => exact .zeros s r

theorem add
    (left : RealMatches x x')
    (right : RealMatches y y') :
    RealMatches (x + y) (x' + y') := by
  rw [realMatches_iff] at left right
  refine EqUpToZeroSign.realMatches ?_
  generalize x.toModel.unpack = u, x'.toModel.unpack = u' at left
  generalize y.toModel.unpack = v, y'.toModel.unpack = v' at right
  cases left with
  | same =>
      cases right with
      | same => exact .same _
      | zeros s t =>
          cases u with
          | zero r => cases r <;> cases s <;> cases t <;> constructor
          | _ => exact .same _
  | zeros s t =>
      cases right with
      | same =>
          cases v with
          | zero r => cases r <;> cases s <;> cases t <;> constructor
          | _ => exact .same _
      | zeros s' t' => cases s <;> cases t <;> cases s' <;> cases t' <;> constructor

theorem mul
    (left : RealMatches x x')
    (right : RealMatches y y') :
    RealMatches (x * y) (x' * y') := by
  rw [realMatches_iff] at left right
  refine EqUpToZeroSign.realMatches ?_
  generalize x.toModel.unpack = u, x'.toModel.unpack = u' at left
  generalize y.toModel.unpack = v, y'.toModel.unpack = v' at right
  cases left with
  | same =>
      cases right with
      | same => exact .same _
      | zeros s t => cases u <;> constructor
  | zeros s t =>
      cases right with
      | same => cases v <;> constructor
      | zeros s' t' => constructor

theorem neg (operand : RealMatches x x') : RealMatches (-x) (-x') := by
  rw [realMatches_iff] at operand
  refine EqUpToZeroSign.realMatches ?_
  generalize x.toModel.unpack = u, x'.toModel.unpack = u' at operand
  cases operand with
  | same => exact .same _
  | zeros s t => exact .zeros (-s) (-t)

/-- No comparison tells matching reals apart. -/
theorem beq_congr
    (left : RealMatches x x')
    (right : RealMatches y y') :
    (x == y) = (x' == y') := by
  rw [realMatches_iff] at left right
  change x.toModel.unpack.beq y.toModel.unpack = x'.toModel.unpack.beq y'.toModel.unpack
  generalize x.toModel.unpack = u, x'.toModel.unpack = u' at left
  generalize y.toModel.unpack = v, y'.toModel.unpack = v' at right
  cases left with
  | same =>
      cases right with
      | same => rfl
      | zeros s t =>
          cases u with
          | infinity r => cases r <;> rfl
          | finite r m e positive => cases r <;> rfl
          | _ => rfl
  | zeros s t =>
      cases right with
      | same =>
          cases v with
          | infinity r => cases r <;> rfl
          | finite r m e positive => cases r <;> rfl
          | _ => rfl
      | zeros s' t' => rfl

theorem negation (operand : RealMatches x x') :
    RealMatches (ModelGraph.negation x) (ModelGraph.negation x') := by
  unfold ModelGraph.negation
  rw [operand.beq_congr (.refl 0.0)]
  exact .refl _

end RealMatches

end ModelGraph
