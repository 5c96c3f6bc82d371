import ModelGraph.Proofs.Enumeration.WholeNumbers

/-!
# Whole numbers as the nearest reals

A word of 64 bits may have more bits than the mantissa of a real has room for.  As a real it stands
for a nearest number that fits, and for the one with the even mantissa if two are equally near:
`number?_toFloat`.  So different words may be equal as reals, and `beq_toFloat_iff` says which are.
Words up to `2 ^ 53` are kept, and words that are more than `2 ^ 11` apart are told apart.
-/

namespace ModelGraph

open Float.Model (Format UnpackedFloat pack totalExponent)
open Float.Model.UnpackedFloat

/-! ## Rounding half to even -/

/-- A number over a power of two as a nearest whole number, the even one from half way. -/
def halfEven (n k : Nat) : Nat :=
  n / 2 ^ k +
    if 2 * (n % 2 ^ k) < 2 ^ k then 0
    else if 2 * (n % 2 ^ k) = 2 ^ k then n / 2 ^ k % 2
    else 1

theorem div_le_halfEven (n k : Nat) : n / 2 ^ k ≤ halfEven n k :=
  Nat.le_add_right _ _

theorem halfEven_le_div_add_one (n k : Nat) : halfEven n k ≤ n / 2 ^ k + 1 := by
  unfold halfEven
  have parity := Nat.mod_lt (n / 2 ^ k) Nat.two_pos
  apply Nat.add_le_add_left
  split
  · omega
  · split <;> omega

theorem halfEven_zero (n : Nat) : halfEven n 0 = n := by
  simp [halfEven, Nat.mod_one]

/-- Rounding moves a number by no more than half of the power of two. -/
theorem two_mul_halfEven_mul_le (n k : Nat) :
    2 * (halfEven n k * 2 ^ k) ≤ 2 * n + 2 ^ k ∧ 2 * n ≤ 2 * (halfEven n k * 2 ^ k) + 2 ^ k := by
  have parts := Nat.div_add_mod' n (2 ^ k)
  have below := Nat.mod_lt n (Nat.two_pow_pos k)
  have parity := Nat.mod_lt (n / 2 ^ k) Nat.two_pos
  unfold halfEven
  rw [Nat.add_mul]
  split
  · omega
  · split
    next isHalf =>
      obtain even | odd := Nat.mod_two_eq_zero_or_one (n / 2 ^ k)
      · rw [even]
        omega
      · rw [odd]
        omega
    next => omega

/-- Shifting a mantissa keeps the last bit that is lost, and whether one before it was set. -/
theorem shiftRight_succ (n k : Nat) :
    ExtendedMantissa.mk n false false >>> (k + 1) =
      ⟨n / 2 ^ (k + 1), n / 2 ^ k % 2 != 0, n % 2 ^ k != 0⟩ := by
  induction k with
  | zero => simp [HShiftRight.hShiftRight, Nat.repeat, ExtendedMantissa.shiftRightOne, Nat.mod_one]
  | succ k ih =>
      change ExtendedMantissa.shiftRightOne (ExtendedMantissa.mk n false false >>> (k + 1)) = _
      rw [ih]
      simp only [ExtendedMantissa.shiftRightOne, ExtendedMantissa.mk.injEq, Nat.div_div_eq_div_mul,
        ← Nat.pow_succ, true_and]
      rw [Nat.mod_pow_succ, Bool.eq_iff_iff]
      simp only [Bool.or_eq_true, bne_iff_ne, Nat.add_eq_zero_iff, Nat.mul_eq_zero, ne_eq]
      have room := (Nat.two_pow_pos k).ne'
      tauto

/-- A shifted mantissa is rounded half to even. -/
theorem roundedMantissa_shiftRight (n k : Nat) :
    (ExtendedMantissa.mk n false false >>> k).roundedMantissa = halfEven n k := by
  cases k with
  | zero => exact (halfEven_zero n).symm
  | succ k =>
      have below := Nat.mod_lt n (Nat.two_pow_pos k)
      rw [shiftRight_succ]
      unfold halfEven
      rw [Nat.mod_pow_succ, Nat.pow_succ 2 k, Nat.mul_comm (2 ^ k) 2]
      obtain clear | set := Nat.mod_two_eq_zero_or_one (n / 2 ^ k)
      · have small : 2 * (n % 2 ^ k + 2 ^ k * 0) < 2 * 2 ^ k := by omega
        rw [clear, if_pos small]
        cases n % 2 ^ k <;> rfl
      · have large : ¬2 * (n % 2 ^ k + 2 ^ k * 1) < 2 * 2 ^ k := by omega
        rw [set, if_neg large]
        obtain exact | inexact := Nat.eq_zero_or_pos (n % 2 ^ k)
        · rw [if_pos (by omega), exact]
          rfl
        · rw [if_neg (by omega), bne_iff_ne.mpr inexact.ne']
          rfl

/-! ## Words as reals -/

/-- A number as a nearest one that the mantissa of a real has room for. -/
def nearestReal (n : Nat) : Nat :=
  halfEven n (n.log2 - 52) * 2 ^ (n.log2 - 52)

/-- A number with room in the mantissa of a real is kept. -/
theorem nearestReal_of_le
    {n : Nat}
    (small : n ≤ 2 ^ 53) :
    nearestReal n = n := by
  obtain rfl | less := small.eq_or_lt
  · decide +kernel
  · unfold nearestReal
    rw [Nat.sub_eq_zero_of_le (log2_le_of_lt less), halfEven_zero, Nat.pow_zero, Nat.mul_one]

/-- No positive number is moved to zero. -/
theorem nearestReal_pos_iff {n : Nat} : 0 < nearestReal n ↔ 0 < n := by
  constructor
  · intro positive
    by_contra zero
    obtain rfl := Nat.eq_zero_of_not_pos zero
    exact absurd positive (by decide)
  · intro positive
    have room : 2 ^ (n.log2 - 52) ≤ n :=
      (Nat.pow_le_pow_right Nat.two_pos (Nat.sub_le _ _)).trans (Nat.log2_self_le positive.ne')
    have rounded : 0 < halfEven n (n.log2 - 52) :=
      (Nat.div_pos room (Nat.two_pow_pos _)).trans_le (div_le_halfEven _ _)
    exact Nat.mul_pos rounded (Nat.two_pow_pos _)

/-- A word moves by no more than `2 ^ 10`. -/
theorem nearestReal_near
    {n : Nat}
    (word : n < 2 ^ 64) :
    nearestReal n ≤ n + 2 ^ 10 ∧ n ≤ nearestReal n + 2 ^ 10 := by
  have length : n.log2 - 52 ≤ 11 := Nat.sub_le_sub_right (log2_le_of_lt word) 52
  have step := Nat.pow_le_pow_right Nat.two_pos length
  obtain ⟨upper, lower⟩ := two_mul_halfEven_mul_le n (n.log2 - 52)
  unfold nearestReal
  omega

/-- Words that are more than `2 ^ 11` apart do not meet. -/
theorem nearestReal_ne_of_dist
    {a b : Nat}
    (word : a < 2 ^ 64)
    (word' : b < 2 ^ 64)
    (apart : 2 ^ 11 < Nat.dist a b) :
    nearestReal a ≠ nearestReal b := by
  have near := nearestReal_near word
  have near' := nearestReal_near word'
  unfold Nat.dist at apart
  omega

/-- The first bits of a long number fill a mantissa. -/
theorem div_two_pow_full
    {n : Nat}
    (long : 2 ^ 52 ≤ n) :
    2 ^ 52 ≤ n / 2 ^ (n.log2 - 52) ∧ n / 2 ^ (n.log2 - 52) < 2 ^ 53 := by
  have positive : n ≠ 0 := by omega
  have split := Nat.sub_add_cancel ((Nat.le_log2 positive).mpr long)
  constructor
  · rw [Nat.le_div_iff_mul_le (Nat.two_pow_pos _), ← Nat.pow_add, Nat.add_comm, split]
    exact Nat.log2_self_le positive
  · rw [Nat.div_lt_iff_lt_mul (Nat.two_pow_pos _), ← Nat.pow_add, Nat.add_comm]
    exact lt_of_lt_of_eq Nat.lt_log2_self (congrArg (2 ^ ·) (by omega))

/-- Numbers with more bits than a mantissa has do not lose the first of them. -/
theorem le_nearestReal
    {n : Nat}
    (long : 2 ^ 53 ≤ n) :
    2 ^ 53 ≤ nearestReal n := by
  have full : 53 ≤ n.log2 := (Nat.le_log2 (by omega)).mpr long
  obtain ⟨lower, _⟩ := div_two_pow_full (show 2 ^ 52 ≤ n by omega)
  have step := Nat.pow_le_pow_right Nat.two_pos (show 1 ≤ n.log2 - 52 by omega)
  calc 2 ^ 53 = 2 ^ 52 * 2 ^ 1 := rfl
    _ ≤ nearestReal n := Nat.mul_le_mul (lower.trans (div_le_halfEven _ _)) step

/-- No other number is moved to one below `2 ^ 53`. -/
theorem eq_of_nearestReal_eq
    {a b : Nat}
    (small : a < 2 ^ 53)
    (same : nearestReal b = nearestReal a) :
    b = a := by
  rw [nearestReal_of_le small.le] at same
  obtain short | long := Nat.lt_or_ge b (2 ^ 53)
  · rwa [nearestReal_of_le short.le] at same
  · have kept := le_nearestReal long
    omega

/-- A number with at least as many bits as a mantissa has is rounded to a mantissa, and to the
shortest number with more bits where all bits are set. -/
theorem exists_isNormal_halfEven
    {n : Nat}
    (long : 2 ^ 52 ≤ n)
    (word : n < 2 ^ 64) :
    ∃ (m c : Nat) (e : Int), IsNormal m e ∧ halfEven n (n.log2 - 52) = m * 2 ^ c ∧
      ((n.log2 - 52 : Nat) : Int) = e - c := by
  obtain ⟨lower, upper⟩ := div_two_pow_full long
  have room : n.log2 - 52 ≤ 11 := Nat.sub_le_sub_right (log2_le_of_lt word) 52
  generalize n.log2 - 52 = k at lower upper room ⊢
  have notLess := div_le_halfEven n k
  have notMore := halfEven_le_div_add_one n k
  by_cases carry : halfEven n k = 2 ^ 53
  · exact ⟨2 ^ 52, 1, k + 1, ⟨by decide, by decide, by omega, by omega⟩, carry, by omega⟩
  · exact ⟨halfEven n k, 0, k, ⟨by omega, by omega, by omega, by omega⟩, by simp, by simp⟩

/-- A word with at least as many bits as a mantissa has stands for a nearest number. -/
theorem exists_toFloat_of_le
    {n : Nat}
    (long : 2 ^ 52 ≤ n)
    (word : n < 2 ^ 64) :
    ∃ (m : Nat) (e : Int) (normal : IsNormal m e),
      n.toUInt64.toFloat = .ofModel (pack (.finite .positive m e normal.pos)) ∧
        (m * 2 ^ e : ℚ) = nearestReal n := by
  obtain ⟨m, c, e, normal, rounded, exponent⟩ := exists_isNormal_halfEven long word
  have full : 52 ≤ n.log2 := (Nat.le_log2 (by omega)).mpr long
  have toNat : n.toUInt64.toNat = n := UInt64.toNat_ofNat_of_lt' word
  have isPositive : compare (n : Int) 0 = .gt := Int.compare_eq_gt.mpr (by omega)
  have target : Format.binary64.targetExponent (totalExponent n 0) = (n.log2 - 52 : Nat) := by
    simp only [Format.targetExponent, totalExponent, Format.mantissaBits, Format.minExponent]
    omega
  have kept : decreaseExponent n 0 (n.log2 - 52 : Nat) = (n, 0) := by
    simp [decreaseExponent]
  have shifted : shiftToTargetExponent .binary64 n 0 .exact =
      (ExtendedMantissa.mk n false false >>> (n.log2 - 52), ((n.log2 - 52 : Nat) : Int)) := by
    simp only [shiftToTargetExponent, target, shiftToExponent,
      ExtendedMantissa.ofMantissaAndAccuracy, sub_zero, Int.toNat_natCast, zero_add]
  have again : shiftToTargetExponent .binary64 (halfEven n (n.log2 - 52)) (n.log2 - 52 : Nat)
      .exact = (⟨m, false, false⟩, e) := by
    rw [rounded, exponent]
    exact normal.shiftToTargetExponent_scaled c
  refine ⟨m, e, normal, ?_, ?_⟩
  · unfold UInt64.toFloat Float.Model.ofUInt64 UnpackedFloat.ofUInt64 UnpackedFloat.ofNat
      UnpackedFloat.ofInt UnpackedFloat.normalize
    simp only [toNat, isPositive, Int.toNat_natCast, UnpackedFloat.round, target, kept,
      roundWithAccuracy, shifted, roundedMantissa_shiftRight, again, dif_neg normal.pos.ne']
  · have scale : e = ((n.log2 - 52 + c : Nat) : Int) := by omega
    unfold nearestReal
    rw [rounded, scale, zpow_natCast, pow_add]
    push_cast
    ring

/-- A positive word as a real has a full mantissa, and stands for a nearest number. -/
theorem exists_toFloat
    {n : UInt64}
    (positive : 0 < n.toNat) :
    ∃ (m : Nat) (e : Int) (normal : IsNormal m e),
      n.toFloat = .ofModel (pack (.finite .positive m e normal.pos)) ∧
        (m * 2 ^ e : ℚ) = nearestReal n.toNat := by
  have word : n.toNat.toUInt64 = n := UInt64.ofNat_toNat
  obtain short | long := Nat.lt_or_ge n.toNat (2 ^ 52)
  · have small : n.toNat < 2 ^ 53 := by omega
    refine ⟨_, _, isNormal_of_lt positive small, ?_, ?_⟩
    · rw [← toFloat_of_lt positive small, word]
    · rw [mantissa_mul_two_zpow small, nearestReal_of_le small.le]
  · rw [← word, UInt64.toNat_ofNat_of_lt' n.toNat_lt]
    exact exists_toFloat_of_le long n.toNat_lt

/-- A word as a real stands for a nearest number. -/
theorem number?_toFloat (n : UInt64) : number? n.toFloat = some (nearestReal n.toNat : ℚ) := by
  obtain zero | positive := Nat.eq_zero_or_pos n.toNat
  · obtain rfl : n = 0 := UInt64.toNat_inj.mp zero
    rw [UInt64.toNat_zero, nearestReal_of_le (by decide)]
    rfl
  · obtain ⟨m, e, normal, converted, number⟩ := exists_toFloat positive
    rw [converted, normal.number?_ofModel, number]

/-! ## Words that are equal as reals -/

/-- Reals that compare equal stand for one number. -/
theorem number?_eq_of_beq
    {x y : Float}
    (equal : (x == y) = true) :
    number? x = number? y := by
  obtain ⟨similar, _⟩ := (beq_eq_true_iff x.toModel.unpack y.toModel.unpack).mp equal
  unfold number?
  generalize x.toModel.unpack = u, y.toModel.unpack = v at similar
  cases similar with
  | same => rfl
  | zeros s t => rfl

/-- A real that stands for a number equals itself. -/
theorem beq_self_of_number?_eq_some
    {x : Float} {q : ℚ}
    (number : number? x = some q) :
    (x == x) = true := by
  apply (beq_eq_true_iff x.toModel.unpack x.toModel.unpack).mpr
  refine ⟨.same _, fun noNumber => ?_⟩
  unfold number? at number
  rw [noNumber] at number
  cases number

/-- Where all mantissas have full length, a larger number does not have a smaller exponent. -/
theorem IsNormal.exponent_le
    {m m' : Nat} {e e' : Int}
    (normal : IsNormal m e)
    (normal' : IsNormal m' e')
    (notMore : (m * 2 ^ e : ℚ) ≤ m' * 2 ^ e') :
    e ≤ e' := by
  by_contra more
  apply absurd notMore
  apply not_le_of_gt
  have full : (2 ^ 52 : ℚ) ≤ m := mod_cast normal.full
  have fits : (m' : ℚ) < 2 ^ 53 := mod_cast normal'.fits
  calc (m' * 2 ^ e' : ℚ) < 2 ^ 53 * 2 ^ e' := by gcongr
    _ = 2 ^ 52 * 2 ^ (e' + 1) := by rw [zpow_add₀ two_ne_zero]; ring
    _ ≤ m * 2 ^ e := by gcongr <;> [norm_num; omega]

/-- Words with the same nearest number are the same real. -/
theorem toFloat_eq_of_nearestReal_eq
    {a b : UInt64}
    (same : nearestReal a.toNat = nearestReal b.toNat) :
    a.toFloat = b.toFloat := by
  have moved := nearestReal_pos_iff (n := a.toNat)
  have moved' := nearestReal_pos_iff (n := b.toNat)
  obtain zero | positive := Nat.eq_zero_or_pos a.toNat
  · obtain rfl : a = b := UInt64.toNat_inj.mp (by omega)
    rfl
  · obtain ⟨m, e, normal, converted, number⟩ := exists_toFloat positive
    obtain ⟨m', e', normal', converted', number'⟩ := exists_toFloat (n := b) (by omega)
    rw [← same, ← number] at number'
    obtain rfl : e = e' :=
      le_antisymm (normal.exponent_le normal' number'.ge) (normal'.exponent_le normal number'.le)
    have mantissas := mul_right_cancel₀ (zpow_ne_zero e two_ne_zero) number'
    obtain rfl : m' = m := mod_cast mantissas
    rw [converted, converted']

/-- Words are equal as reals just where their nearest numbers are the same. -/
theorem beq_toFloat_iff (a b : UInt64) :
    (a.toFloat == b.toFloat) = true ↔ nearestReal a.toNat = nearestReal b.toNat := by
  constructor
  · intro equal
    have same := number?_eq_of_beq equal
    rw [number?_toFloat, number?_toFloat, Option.some.injEq] at same
    exact_mod_cast same
  · intro same
    rw [toFloat_eq_of_nearestReal_eq same]
    exact beq_self_of_number?_eq_some (number?_toFloat b)

end ModelGraph
