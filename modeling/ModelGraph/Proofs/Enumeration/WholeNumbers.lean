import ModelGraph.Proofs.Enumeration.SignedZeros

/-!
# Whole numbers as reals

Outcomes are counted, and listed as reals.  A whole number below `2 ^ 53` fits into the mantissa
of a real, so that the real stands for that very number: `number?_ofNat`.  On the way a mantissa
is lengthened to its 53 bits by zeros, rounded, packed and unpacked, multiplied by one, and
rounded again, and nothing is lost in any of these steps.
-/

namespace ModelGraph

open Float.Model (Format UnpackedFloat pack totalExponent)
open Float.Model.UnpackedFloat

/-- The number that a real stands for, if it is finite. -/
def number? (x : Float) : Option ℚ :=
  match x.toModel.unpack with
  | .zero _ => some 0
  | .finite s m e _ => some (s.apply m * 2 ^ e)
  | _ => none

/-- A mantissa of full length with an exponent that reals can have. -/
structure IsNormal (m : Nat) (e : Int) : Prop where
  full : 2 ^ 52 ≤ m
  fits : m < 2 ^ 53
  low : -1074 ≤ e
  high : e ≤ 970

/-! ## Rounding what needs no rounding -/

/-- Zeros at the end of a mantissa are dropped without a trace. -/
theorem shiftRight_scaled (m k : Nat) :
    ExtendedMantissa.mk (m * 2 ^ k) false false >>> k = ⟨m, false, false⟩ := by
  induction k generalizing m with
  | zero => simp only [Nat.pow_zero, Nat.mul_one]; rfl
  | succ k ih =>
      change ExtendedMantissa.shiftRightOne
        (ExtendedMantissa.mk (m * 2 ^ (k + 1)) false false >>> k) = _
      rw [show m * 2 ^ (k + 1) = m * 2 * 2 ^ k by ring, ih]
      simp [ExtendedMantissa.shiftRightOne]

namespace IsNormal

variable {m : Nat} {e : Int}

theorem pos (normal : IsNormal m e) : 0 < m :=
  Nat.lt_of_lt_of_le (Nat.two_pow_pos 52) normal.full

theorem log2_scaled (normal : IsNormal m e) (k : Nat) : (m * 2 ^ k).log2 = 52 + k := by
  have positive := Nat.mul_pos normal.pos (Nat.two_pow_pos k)
  rw [Nat.log2_eq_iff positive.ne', show 52 + k + 1 = 53 + k by omega, Nat.pow_add, Nat.pow_add]
  exact ⟨Nat.mul_le_mul_right _ normal.full,
    Nat.mul_lt_mul_of_pos_right normal.fits (Nat.two_pow_pos k)⟩

theorem targetExponent_scaled (normal : IsNormal m e) (k : Nat) :
    Format.binary64.targetExponent (totalExponent (m * 2 ^ k) (e - k)) = e := by
  have low := normal.low
  simp only [Format.targetExponent, totalExponent, normal.log2_scaled, Format.mantissaBits,
    Format.minExponent]
  omega

theorem shiftToTargetExponent_scaled (normal : IsNormal m e) (k : Nat) :
    shiftToTargetExponent .binary64 (m * 2 ^ k) (e - k) .exact = (⟨m, false, false⟩, e) := by
  simp only [shiftToTargetExponent, normal.targetExponent_scaled, shiftToExponent,
    ExtendedMantissa.ofMantissaAndAccuracy, sub_sub_cancel, Int.toNat_natCast, shiftRight_scaled,
    sub_add_cancel]

/-- A mantissa of full length that is followed by zeros is kept by rounding. -/
theorem roundWithAccuracy_scaled (normal : IsNormal m e) (s : Sign) (k : Nat) :
    roundWithAccuracy .binary64 s (m * 2 ^ k) (e - k) .exact = .finite s m e normal.pos := by
  have again : shiftToTargetExponent .binary64 m e .exact = (⟨m, false, false⟩, e) := by
    simpa using normal.shiftToTargetExponent_scaled 0
  have rounded : (ExtendedMantissa.mk m false false).roundedMantissa = m := rfl
  unfold roundWithAccuracy
  simp only [normal.shiftToTargetExponent_scaled k, rounded, again, dif_neg normal.pos.ne']

/-! ## Packing -/

theorem toNat_implicit_append (normal : IsNormal m e) :
    (1#1 ++ BitVec.ofNat 52 m).toNat = m := by
  have full := normal.full
  have fits := normal.fits
  simp only [BitVec.toNat_append, BitVec.toNat_ofNat, Nat.shiftLeft_eq]
  change 2 ^ 52 ||| m % 2 ^ 52 = m
  rw [Nat.or_comm, Nat.or_two_pow_eq_add_of_lt (Nat.mod_lt m (Nat.two_pow_pos 52))]
  omega

/-- The exponent is stored with an offset that keeps it off the marks for zeros and infinities. -/
theorem toNat_biasedExponent (normal : IsNormal m e) :
    ((BitVec.ofNat 11 (e + 1075).toNat).toNat : Int) = e + 1075 := by
  have low := normal.low
  have high := normal.high
  rw [BitVec.toNat_ofNat, Nat.mod_eq_of_lt (by omega)]
  omega

/-- A mantissa of full length is read back as it was packed. -/
theorem unpack_pack (normal : IsNormal m e) (s : Sign) :
    (pack (.finite s m e normal.pos)).unpack = .finite s m e normal.pos := by
  have low := normal.low
  have high := normal.high
  have biased := normal.toNat_biasedExponent
  have notSpecial : BitVec.ofNat 11 (e + 1075).toNat ≠ -1#11 := by
    intro equal
    rw [equal] at biased
    change (2047 : Int) = _ at biased
    omega
  have notZero : BitVec.ofNat 11 (e + 1075).toNat ≠ 0#11 := by
    intro equal
    rw [equal] at biased
    change (0 : Int) = _ at biased
    omega
  have packed : UnpackedFloat.pack .binary64 (.finite s m e normal.pos) =
      packComponents .binary64 s (BitVec.ofNat 11 (e + 1075).toNat) (BitVec.ofNat 52 m) := by
    have length : m.log2 = 52 := by simpa using normal.log2_scaled 0
    have offset : e + 1023 + 52 = e + 1075 := by omega
    have finite : ¬2048 ≤ (e + 1075).toNat + 1 := by omega
    simp only [UnpackedFloat.pack, Format.exponentBias, Format.mantissaBits, length]
    norm_num [offset, finite]
  change UnpackedFloat.unpack .binary64 (UnpackedFloat.pack .binary64 _) = _
  rw [packed]
  simp only [UnpackedFloat.unpack, unpackMantissa_packComponents, unpackExponent_packComponents,
    unpackSign_packComponents, Sign.ofBitVec_toBitVec, if_neg notSpecial, if_neg notZero,
    normal.toNat_implicit_append, biased]
  have offset : e + 1075 - ((1023 : Nat) + (52 : Nat)) = e := by omega
  exact congrArg (fun e => UnpackedFloat.finite s m e normal.pos) offset

theorem number?_ofModel (normal : IsNormal m e) :
    number? (.ofModel (pack (.finite .positive m e normal.pos))) = some (m * 2 ^ e : ℚ) := by
  unfold number?
  rw [normal.unpack_pack]
  rfl

/-- Multiplication by one changes no real with a mantissa of full length. -/
theorem mul_one (normal : IsNormal m e) (s : Sign) :
    Float.ofModel (pack (.finite s m e normal.pos)) * 1.0 =
      Float.ofModel (pack (.finite s m e normal.pos)) := by
  have one : (1.0 : Float).toModel.unpack = .finite .positive (2 ^ 52) (-52) (by decide) := rfl
  have product : Float.ofModel (pack (.finite s m e normal.pos)) * 1.0 =
      .ofModel (pack (UnpackedFloat.mul .binary64 (pack (.finite s m e normal.pos)).unpack
        (1.0 : Float).toModel.unpack)) := rfl
  rw [product, one, normal.unpack_pack]
  have rounded := normal.roundWithAccuracy_scaled s 52
  have sign : s * .positive = s := by cases s <;> rfl
  change Float.ofModel (pack (roundWithAccuracy .binary64 (s * .positive) (m * 2 ^ 52) (e - 52)
    .exact)) = _
  rw [sign]
  exact congrArg (fun u => Float.ofModel (pack u)) rounded

end IsNormal

/-! ## Whole numbers -/

section WholeNumbers

variable {n : Nat}

theorem log2_le_of_lt {k : Nat} (small : n < 2 ^ (k + 1)) : n.log2 ≤ k := by
  rcases Nat.eq_zero_or_pos n with rfl | positive
  · exact Nat.zero_le k
  · exact Nat.lt_succ_iff.mp ((Nat.log2_lt positive.ne').mpr small)

/-- The mantissa of a whole number is the number with as many zeros as there is room for. -/
theorem isNormal_of_lt (positive : 0 < n) (small : n < 2 ^ 53) :
    IsNormal (n * 2 ^ (52 - n.log2)) (n.log2 - 52) := by
  have length := log2_le_of_lt small
  obtain ⟨lower, upper⟩ := (Nat.log2_eq_iff positive.ne').mp (rfl : n.log2 = n.log2)
  have room : 0 < 2 ^ (52 - n.log2) := Nat.two_pow_pos _
  refine ⟨?_, ?_, by omega, by omega⟩
  · calc 2 ^ 52 = 2 ^ n.log2 * 2 ^ (52 - n.log2) := by
          rw [← Nat.pow_add, Nat.add_sub_cancel' length]
      _ ≤ n * 2 ^ (52 - n.log2) := Nat.mul_le_mul_right _ lower
  · calc n * 2 ^ (52 - n.log2) < 2 ^ (n.log2 + 1) * 2 ^ (52 - n.log2) :=
          Nat.mul_lt_mul_of_pos_right upper room
      _ = 2 ^ 53 := by rw [← Nat.pow_add]; congr 1; omega

/-- The zeros at the end of a mantissa are made up for by its exponent. -/
theorem mantissa_mul_two_zpow (small : n < 2 ^ 53) :
    ((n * 2 ^ (52 - n.log2) : Nat) : ℚ) * 2 ^ ((n.log2 : ℤ) - 52) = n := by
  have length := log2_le_of_lt small
  have shift : ((n.log2 : ℤ) - 52) = -((52 - n.log2 : Nat) : ℤ) := by omega
  rw [shift, zpow_neg, zpow_natCast]
  push_cast
  exact mul_inv_cancel_right₀ (by positivity) _

/-- A small whole number is converted to a real without rounding. -/
theorem toFloat_of_lt (positive : 0 < n) (small : n < 2 ^ 53) :
    n.toUInt64.toFloat =
      .ofModel (pack (.finite .positive (n * 2 ^ (52 - n.log2)) (n.log2 - 52)
        (isNormal_of_lt positive small).pos)) := by
  have normal := isNormal_of_lt positive small
  have low := normal.low
  have length := log2_le_of_lt small
  have word : n.toUInt64.toNat = n := UInt64.toNat_ofNat_of_lt' (Nat.lt_trans small (by decide))
  have isPositive : compare (n : Int) 0 = .gt := Int.compare_eq_gt.mpr (by omega)
  have target : Format.binary64.targetExponent (totalExponent n 0) = n.log2 - 52 := by
    simp only [Format.targetExponent, totalExponent, Format.mantissaBits, Format.minExponent]
    omega
  have lengthened : decreaseExponent n 0 (n.log2 - 52) =
      (n * 2 ^ (52 - n.log2), (n.log2 - 52 : Int)) := by
    have room : ((0 : Int) - (n.log2 - 52)).toNat = 52 - n.log2 := by omega
    simp only [decreaseExponent, room, Nat.shiftLeft_eq, Prod.mk.injEq, true_and]
    omega
  have rounded := normal.roundWithAccuracy_scaled .positive 0
  simp only [Nat.pow_zero, Nat.mul_one, Nat.cast_zero, sub_zero] at rounded
  unfold UInt64.toFloat Float.Model.ofUInt64 UnpackedFloat.ofUInt64 UnpackedFloat.ofNat
    UnpackedFloat.ofInt UnpackedFloat.normalize
  simp only [word, isPositive, Int.toNat_natCast, UnpackedFloat.round, target, lengthened, rounded]

/-- A small whole number is one without a fraction. -/
theorem ofNat_eq_toFloat (positive : 0 < n) (small : n < 2 ^ 53) :
    Float.ofNat n = n.toUInt64.toFloat := by
  change Float.ofScientific n false 0 = _
  unfold Float.ofScientific
  rw [dif_pos ⟨small, Nat.zero_le 22⟩]
  change n.toUInt64.toFloat * 1.0 = n.toUInt64.toFloat
  rw [toFloat_of_lt positive small]
  exact (isNormal_of_lt positive small).mul_one .positive

/-- A whole number below `2 ^ 53` as a real stands for that number. -/
theorem number?_ofNat (small : n < 2 ^ 53) : number? (Float.ofNat n) = some (n : ℚ) := by
  rcases Nat.eq_zero_or_pos n with rfl | positive
  · rfl
  · rw [ofNat_eq_toFloat positive small, toFloat_of_lt positive small,
      (isNormal_of_lt positive small).number?_ofModel, mantissa_mul_two_zpow small]

end WholeNumbers

end ModelGraph
