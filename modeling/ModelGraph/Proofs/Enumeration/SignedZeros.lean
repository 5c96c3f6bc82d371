import Mathlib
import ModelGraph.Proofs.Enumeration.Reals

/-!
# Zeros of opposite sign

Matching reals are equal or are two zeros of opposite sign.  A quotient tells such zeros apart
if they divide a number other than zero, and a power if they are raised to a negative odd
number: the results are then infinite with opposite signs.  Nowhere else do quotients or
powers of matching reals fail to match.

That a real is known by its sign, significand and exponent is a fact about packed reals, which the
library as a whole provides, but no smaller part of it.
-/

namespace ModelGraph

open Float.Model (UnpackedFloat pack)
open Float.Model.UnpackedFloat (Sign)

/-- Both reals are zeros, and their signs differ. -/
structure OppositeZeros (x y : Float) : Prop where
  left : (x == 0.0) = true
  right : (y == 0.0) = true
  different : x ≠ y

theorem eq_of_unpack_eq
    {x y : Float}
    (same : x.toModel.unpack = y.toModel.unpack) :
    x = y := by
  obtain ⟨⟨⟨bits⟩, valid⟩⟩ := x
  obtain ⟨⟨⟨bits'⟩, valid'⟩⟩ := y
  have equal : bits = bits' := (UnpackedFloat.unpack_inj_of_valid valid valid').mp same
  subst equal
  rfl

theorem unpack_of_beq_zero
    {x : Float}
    (isZero : (x == 0.0) = true) :
    ∃ s, x.toModel.unpack = .zero s := by
  change x.toModel.unpack.beq (.zero .positive) = true at isZero
  obtain ⟨similar, _⟩ := (beq_eq_true_iff _ _).mp isZero
  generalize x.toModel.unpack = u at similar
  cases similar with
  | same => exact ⟨_, rfl⟩
  | zeros s => exact ⟨s, rfl⟩

theorem beq_zero_of_unpack
    {x : Float} {s : Sign}
    (isZero : x.toModel.unpack = .zero s) :
    (x == 0.0) = true := by
  change x.toModel.unpack.beq (.zero .positive) = true
  rw [isZero]
  exact (beq_eq_true_iff _ _).mpr ⟨.zeros _ _, nofun⟩

/-- Matching reals are equal or zeros of opposite sign. -/
theorem RealMatches.eq_or_oppositeZeros
    {x y : Float}
    (matching : RealMatches x y) :
    x = y ∨ OppositeZeros x y := by
  by_cases equal : x = y
  · exact .inl equal
  · rw [realMatches_iff] at matching
    generalize left : x.toModel.unpack = u, right : y.toModel.unpack = v at matching
    cases matching with
    | same => exact absurd (eq_of_unpack_eq (left.trans right.symm)) equal
    | zeros s t => exact .inr ⟨beq_zero_of_unpack left, beq_zero_of_unpack right, equal⟩

/-- Of two zeros of opposite sign, one is positive and the other negative. -/
theorem OppositeZeros.cases
    {x y : Float}
    (opposite : OppositeZeros x y) :
    x = 0.0 ∧ y = -0.0 ∨ x = -0.0 ∧ y = 0.0 := by
  obtain ⟨s, left⟩ := unpack_of_beq_zero opposite.left
  obtain ⟨t, right⟩ := unpack_of_beq_zero opposite.right
  have positive : (0.0 : Float).toModel.unpack = .zero .positive := rfl
  have negative : (-0.0 : Float).toModel.unpack = .zero .negative := rfl
  have different := opposite.different
  cases s with
  | positive =>
      obtain rfl := eq_of_unpack_eq (left.trans positive.symm)
      cases t with
      | positive => exact absurd (eq_of_unpack_eq (positive.trans right.symm)) different
      | negative => exact .inl ⟨rfl, eq_of_unpack_eq (right.trans negative.symm)⟩
  | negative =>
      obtain rfl := eq_of_unpack_eq (left.trans negative.symm)
      cases t with
      | positive => exact .inr ⟨rfl, eq_of_unpack_eq (right.trans positive.symm)⟩
      | negative => exact absurd (eq_of_unpack_eq (negative.trans right.symm)) different

theorem not_oppositeZeros_self (x : Float) : ¬OppositeZeros x x :=
  fun opposite => opposite.different rfl

/-- The positive infinity. -/
def infinity : Float :=
  1.0 / 0.0

/-- Infinities of opposite sign do not match. -/
theorem not_realMatches_infinity : ¬RealMatches infinity (-infinity) := by
  unfold RealMatches
  decide

theorem not_realMatches_neg_infinity : ¬RealMatches (-infinity) infinity := by
  unfold RealMatches
  decide

/-! ## Quotients -/

section Quotient

variable {x x' y y' : Float}

/-- A number other than zero divided by the two zeros gives the two infinities. -/
theorem div_zero_cases
    (notZero : (x == 0.0) = false)
    (isNumber : x.isNaN = false) :
    x / 0.0 = infinity ∧ x / -0.0 = -infinity ∨ x / 0.0 = -infinity ∧ x / -0.0 = infinity := by
  change x.toModel.unpack.beq (.zero .positive) = false at notZero
  change x.toModel.unpack.isNaN = false at isNumber
  have quotient : ∀ y : Float, x / y =
      .ofModel (pack (UnpackedFloat.div .binary64 x.toModel.unpack y.toModel.unpack)) :=
    fun _ => rfl
  rw [quotient, quotient]
  generalize x.toModel.unpack = u at notZero isNumber
  cases u with
  | notANumber => cases isNumber
  | zero s => cases notZero
  | infinity s =>
      cases s with
      | positive => exact .inl ⟨rfl, rfl⟩
      | negative => exact .inr ⟨rfl, rfl⟩
  | finite s m e positive =>
      cases s with
      | positive => exact .inl ⟨rfl, rfl⟩
      | negative => exact .inr ⟨rfl, rfl⟩

/-- Zeros, and what is no number, have no quotient by any zero. -/
theorem RealMatches.div_zeros
    (left : RealMatches x x')
    (noNumber : ¬((x == 0.0) = false ∧ x.isNaN = false))
    (divisor : (y == 0.0) = true)
    (divisor' : (y' == 0.0) = true) :
    RealMatches (x / y) (x' / y') := by
  obtain ⟨s, isZero⟩ := unpack_of_beq_zero divisor
  obtain ⟨t, isZero'⟩ := unpack_of_beq_zero divisor'
  rw [realMatches_iff] at left
  refine EqUpToZeroSign.realMatches ?_
  rw [isZero, isZero']
  change ¬(x.toModel.unpack.beq (.zero .positive) = false ∧
    x.toModel.unpack.isNaN = false) at noNumber
  generalize x.toModel.unpack = u, x'.toModel.unpack = u' at left noNumber
  cases left with
  | zeros => exact .same _
  | same =>
      cases u with
      | notANumber => exact .same _
      | zero => exact .same _
      | infinity r => cases r <;> exact absurd ⟨rfl, rfl⟩ noNumber
      | finite r => cases r <;> exact absurd ⟨rfl, rfl⟩ noNumber

theorem RealMatches.div_of_eq
    (left : RealMatches x x')
    (y : Float) :
    RealMatches (x / y) (x' / y) := by
  rw [realMatches_iff] at left
  refine EqUpToZeroSign.realMatches ?_
  generalize x.toModel.unpack = u, x'.toModel.unpack = u' at left
  cases left with
  | same => exact .same _
  | zeros s t => cases y.toModel.unpack <;> constructor

/-- Quotients of matching reals match, unless a number other than zero is divided by zeros of
opposite sign. -/
theorem RealMatches.div_iff
    (left : RealMatches x x')
    (right : RealMatches y y') :
    RealMatches (x / y) (x' / y') ↔
      ¬(OppositeZeros y y' ∧ (x == 0.0) = false ∧ x.isNaN = false) := by
  rcases right.eq_or_oppositeZeros with rfl | opposite
  · exact iff_of_true (left.div_of_eq y) fun apart => not_oppositeZeros_self y apart.1
  · by_cases number : (x == 0.0) = false ∧ x.isNaN = false
    · refine iff_of_false ?_ (not_not_intro ⟨opposite, number⟩)
      obtain ⟨notZero, isNumber⟩ := number
      have same : x = x' := left.eq_or_oppositeZeros.resolve_right fun zeros => by
        simp [zeros.left] at notZero
      subst same
      rcases opposite.cases with ⟨rfl, rfl⟩ | ⟨rfl, rfl⟩ <;>
        rcases div_zero_cases notZero isNumber with ⟨first, second⟩ | ⟨first, second⟩ <;>
        rw [first, second]
      · exact not_realMatches_infinity
      · exact not_realMatches_neg_infinity
      · exact not_realMatches_neg_infinity
      · exact not_realMatches_infinity
    · exact iff_of_true (left.div_zeros number opposite.left opposite.right)
        fun apart => number apart.2

end Quotient

/-! ## Powers -/

/-- A real is an odd whole number. -/
def IsOddNumber (x : Float) : Prop :=
  ∃ sign significand exponent positive,
    x.toModel.unpack = .finite sign significand exponent positive ∧
      ∃ n : Nat, Odd n ∧ (significand : ℚ) * 2 ^ exponent = n

/-- What is relied on of the powers of zeros and of powers with a zero as exponent. -/
structure PowerLaws (pow : Float → Float → Float) : Prop where
  /-- The power with exponent zero is one. -/
  exponent_zero : ∀ x y, (y == 0.0) = true → pow x y = 1.0
  /-- A zero has no power whose exponent is no number. -/
  exponent_notANumber : ∀ x y, (x == 0.0) = true → y.isNaN = true → (pow x y).isNaN = true
  /-- A positive power of a zero is a zero. -/
  exponent_positive : ∀ x y, (x == 0.0) = true → 0.0 < y → (pow x y == 0.0) = true
  /-- A negative power of a zero is infinite; it has the sign of the zero if the exponent is an
  odd number. -/
  exponent_odd : ∀ y, y < 0.0 → IsOddNumber y → pow 0.0 y = infinity ∧ pow (-0.0) y = -infinity
  /-- Otherwise it is positive. -/
  exponent_negative : ∀ x y, (x == 0.0) = true → y < 0.0 → ¬IsOddNumber y → pow x y = infinity

theorem lt_iff_unpack {x y : Float} :
    x < y ↔ x.toModel.unpack.lt y.toModel.unpack = true :=
  decide_eq_true_iff

/-- How a real compares with zero. -/
inductive ComparedWithZero (y : Float) : Prop where
  | negative (below : y < 0.0) (notZero : (y == 0.0) = false) (notAbove : ¬0.0 < y)
  | zero (isZero : (y == 0.0) = true) (notBelow : ¬y < 0.0) (notAbove : ¬0.0 < y)
  | positive (above : 0.0 < y) (notZero : (y == 0.0) = false) (notBelow : ¬y < 0.0)
  | notANumber (noNumber : y.isNaN = true) (notBelow : ¬y < 0.0) (notAbove : ¬0.0 < y)

theorem comparedWithZero (y : Float) : ComparedWithZero y := by
  have equal : (y == 0.0) = y.toModel.unpack.beq (.zero .positive) := rfl
  have noNumber : y.isNaN = y.toModel.unpack.isNaN := rfl
  have less : y < 0.0 ↔ y.toModel.unpack.lt (.zero .positive) = true := lt_iff_unpack
  have greater : 0.0 < y ↔ (UnpackedFloat.zero .positive).lt y.toModel.unpack = true :=
    lt_iff_unpack
  generalize y.toModel.unpack = u at equal noNumber less greater
  cases u with
  | notANumber => exact .notANumber noNumber (mt less.mp nofun) (mt greater.mp nofun)
  | zero s => exact .zero equal (mt less.mp nofun) (mt greater.mp nofun)
  | infinity s | finite s =>
      cases s with
      | negative => exact .negative (less.mpr rfl) equal (mt greater.mp nofun)
      | positive => exact .positive (greater.mpr rfl) equal (mt less.mp nofun)

open Classical in
/-- The powers of zeros that the laws describe; the other powers are left out. -/
noncomputable def zeroPower (x y : Float) : Float :=
  if y == 0.0 then 1.0
  else if y < 0.0 then (if IsOddNumber y ∧ x = -0.0 then -infinity else infinity)
  else if 0.0 < y then 0.0
  else .nan

/-- There is a function with the laws. -/
theorem powerLaws_zeroPower : PowerLaws zeroPower where
  exponent_zero x y isZero := if_pos isZero
  exponent_notANumber x y _ notANumber := by
    obtain rfl : y = .nan := by simpa using notANumber
    have unordered : (Float.nan == 0.0) = false ∧ ¬Float.nan < 0.0 ∧ ¬0.0 < Float.nan := by decide
    simp [zeroPower, unordered]
  exponent_positive x y _ positive := by
    cases comparedWithZero y with
    | positive _ notZero notBelow =>
        rw [zeroPower, notZero, if_neg nofun, if_neg notBelow, if_pos positive]
        decide
    | negative _ _ notAbove | zero _ _ notAbove | notANumber _ _ notAbove =>
        exact absurd positive notAbove
  exponent_odd y negative odd := by
    have different : (0.0 : Float) ≠ -0.0 := by decide
    cases comparedWithZero y with
    | negative _ notZero => simp [zeroPower, notZero, negative, odd, different]
    | zero _ notBelow | positive _ _ notBelow | notANumber _ notBelow =>
        exact absurd negative notBelow
  exponent_negative x y _ negative notOdd := by
    cases comparedWithZero y with
    | negative _ notZero => simp [zeroPower, notZero, negative, notOdd]
    | zero _ notBelow | positive _ _ notBelow | notANumber _ notBelow =>
        exact absurd negative notBelow

theorem realMatches_of_zeros
    {x y : Float}
    (left : (x == 0.0) = true)
    (right : (y == 0.0) = true) :
    RealMatches x y := by
  obtain ⟨s, first⟩ := unpack_of_beq_zero left
  obtain ⟨t, second⟩ := unpack_of_beq_zero right
  rw [realMatches_iff, first, second]
  exact .zeros s t

section Power

variable {pow : Float → Float → Float} {x x' y y' : Float} (laws : PowerLaws pow)

include laws

/-- Powers of zeros of opposite sign match, unless the exponent is a negative odd number. -/
theorem OppositeZeros.pow_iff (zeros : OppositeZeros x x') :
    RealMatches (pow x y) (pow x' y) ↔ ¬(y < 0.0 ∧ IsOddNumber y) := by
  cases comparedWithZero y with
  | negative negative _ =>
      by_cases odd : IsOddNumber y
      · refine iff_of_false ?_ (not_not_intro ⟨negative, odd⟩)
        obtain ⟨ofPositive, ofNegative⟩ := laws.exponent_odd y negative odd
        rcases zeros.cases with ⟨rfl, rfl⟩ | ⟨rfl, rfl⟩ <;> rw [ofPositive, ofNegative]
        · exact not_realMatches_infinity
        · exact not_realMatches_neg_infinity
      · refine iff_of_true ?_ fun apart => odd apart.2
        rw [laws.exponent_negative x y zeros.left negative odd,
          laws.exponent_negative x' y zeros.right negative odd]
        exact .refl _
  | zero isZero notNegative =>
      refine iff_of_true ?_ fun apart => notNegative apart.1
      rw [laws.exponent_zero x y isZero, laws.exponent_zero x' y isZero]
      exact .refl _
  | notANumber notANumber notNegative =>
      refine iff_of_true (.inr ⟨?_, ?_⟩) fun apart => notNegative apart.1
      · exact laws.exponent_notANumber x y zeros.left notANumber
      · exact laws.exponent_notANumber x' y zeros.right notANumber
  | positive positive _ notNegative =>
      refine iff_of_true (realMatches_of_zeros ?_ ?_) fun apart => notNegative apart.1
      · exact laws.exponent_positive x y zeros.left positive
      · exact laws.exponent_positive x' y zeros.right positive

/-- Powers of matching reals match, unless zeros of opposite sign are raised to a negative odd
number. -/
theorem RealMatches.pow_iff
    (left : RealMatches x x')
    (right : RealMatches y y') :
    RealMatches (pow x y) (pow x' y') ↔ ¬(OppositeZeros x x' ∧ y < 0.0 ∧ IsOddNumber y) := by
  rcases right.eq_or_oppositeZeros with rfl | zeros
  · rcases left.eq_or_oppositeZeros with rfl | opposite
    · exact iff_of_true (.refl _) fun apart => not_oppositeZeros_self x apart.1
    · rw [opposite.pow_iff laws, not_iff_not]
      exact (and_iff_right opposite).symm
  · refine iff_of_true ?_ fun apart => ?_
    · rw [laws.exponent_zero x y zeros.left, laws.exponent_zero x' y' zeros.right]
      exact .refl _
    · cases comparedWithZero y with
      | negative _ notZero => simp [zeros.left] at notZero
      | zero _ notNegative | positive _ _ notNegative | notANumber _ notNegative =>
          exact notNegative apart.2.1

end Power

end ModelGraph
