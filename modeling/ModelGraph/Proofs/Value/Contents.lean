import ModelGraph.Proofs.Enumeration.Matching
import ModelGraph.Proofs.Enumeration.SignedZeros

/-!
# Contents and their bytes

Values are compared by their contents, and looked up by a digest of bytes.  The bytes are a normal
form of the contents: equal contents have equal bytes, and where no element is missing, equal bytes
come from equal contents.  So different contents meet in one digest only if different byte sequences
have one hash.
-/

namespace ModelGraph

open Float.Model.UnpackedFloat (unpackExponent unpackMantissa unpackExponent_def unpackMantissa_def)

/-! ## Reals as bit patterns -/

/-- The bits of what is not a number: the exponent is all ones, and the mantissa is not zero. -/
def IsNaNPattern (w : UInt64) : Prop :=
  w.toNat / 2 ^ 52 % 2 ^ 11 = 2 ^ 11 - 1 ∧ w.toNat % 2 ^ 52 ≠ 0

/-- The bits of a zero: none is set but that of the sign. -/
def IsZeroPattern (w : UInt64) : Prop :=
  w.toNat % 2 ^ 63 = 0

instance : DecidablePred IsNaNPattern :=
  fun _ => inferInstanceAs (Decidable (_ ∧ _))

instance : DecidablePred IsZeroPattern :=
  fun _ => inferInstanceAs (Decidable (_ = _))

/-- Two reals are numbers, and either have the same bits or are both zero. -/
structure SameNumber (x y : Float) : Prop where
  left : ¬IsNaNPattern x.toBits
  right : ¬IsNaNPattern y.toBits
  bits : x.toBits = y.toBits ∨ IsZeroPattern x.toBits ∧ IsZeroPattern y.toBits

theorem isNaNPattern_toBits_iff (x : Float) : IsNaNPattern x.toBits ↔ x = Float.nan := by
  constructor
  · rintro ⟨exponent, mantissa⟩
    have special : @unpackExponent .binary64 x.toBits.toBitVec = -1#_ := by
      rw [unpackExponent_def, ← BitVec.toNat_inj, BitVec.extractLsb'_toNat,
        Nat.shiftRight_eq_div_pow]
      exact exponent
    have payload : @unpackMantissa .binary64 x.toBits.toBitVec ≠ 0#_ := by
      rw [unpackMantissa_def, ne_eq, ← BitVec.toNat_inj, BitVec.extractLsb'_toNat,
        Nat.shiftRight_zero]
      exact mantissa
    apply Float.toBits_inj.mp
    apply UInt64.toBitVec_inj.mp
    exact x.toModel.valid.eq_packedNaN special payload
  · rintro rfl
    decide +kernel

theorem isZeroPattern_toBits_iff (x : Float) : IsZeroPattern x.toBits ↔ x = 0 ∨ x = -0 := by
  constructor
  · intro clear
    unfold IsZeroPattern at clear
    have word := x.toBits.toNat_lt
    obtain zero | sign : x.toBits.toNat = 0 ∨ x.toBits.toNat = 2 ^ 63 := by omega
    · exact .inl (Float.toBits_inj.mp (UInt64.toNat_inj.mp zero))
    · exact .inr (Float.toBits_inj.mp (UInt64.toNat_inj.mp sign))
  · rintro (rfl | rfl) <;> decide +kernel

/-- Reals compare equal just where their bits say so. -/
theorem beq_iff_sameNumber (x y : Float) : (x == y) = true ↔ SameNumber x y := by
  constructor
  · intro equal
    obtain ⟨left, right, alike⟩ := Float.beq_iff_ne_nan_and_eq.mp equal
    refine ⟨mt (isNaNPattern_toBits_iff x).mp left, mt (isNaNPattern_toBits_iff y).mp right, ?_⟩
    obtain rfl | ⟨rfl, rfl⟩ | ⟨rfl, rfl⟩ := alike
    · exact .inl rfl
    · exact .inr (by decide +kernel)
    · exact .inr (by decide +kernel)
  · rintro ⟨left, right, alike⟩
    refine Float.beq_iff_ne_nan_and_eq.mpr
      ⟨mt (isNaNPattern_toBits_iff x).mpr left, mt (isNaNPattern_toBits_iff y).mpr right, ?_⟩
    obtain same | ⟨zero, zero'⟩ := alike
    · exact .inl (Float.toBits_inj.mp same)
    · rw [isZeroPattern_toBits_iff] at zero zero'
      obtain rfl | rfl := zero <;> obtain rfl | rfl := zero' <;> simp

namespace SameNumber

variable {x y z : Float}

theorem self_iff : SameNumber x x ↔ ¬IsNaNPattern x.toBits :=
  ⟨left, fun isNumber => ⟨isNumber, isNumber, .inl rfl⟩⟩

theorem symm (same : SameNumber x y) : SameNumber y x :=
  ⟨same.right, same.left, same.bits.imp Eq.symm And.symm⟩

theorem trans (first : SameNumber x y) (next : SameNumber y z) : SameNumber x z := by
  refine ⟨first.left, next.right, ?_⟩
  obtain same | ⟨zero, zero'⟩ := first.bits
  · rw [same]
    exact next.bits
  · obtain same' | ⟨_, zero''⟩ := next.bits
    · exact .inr ⟨zero, same' ▸ zero'⟩
    · exact .inr ⟨zero, zero''⟩

end SameNumber

/-! ## Bytes that are read back -/

/-- The rank and the dimensions are machine words. -/
structure Shape.FitsWords (s : Shape) : Prop where
  rank : s.rank < UInt64.size
  sizes : ∀ size ∈ s.dims, size < UInt64.size

namespace Digest

theorem length_countBytes (n : Nat) : (countBytes n).length = 8 := rfl

theorem length_realBytes (x : Float) : (realBytes x).length = 8 := rfl

/-- A word is known from its bytes. -/
theorem wordBytes_injective : Function.Injective wordBytes := by
  intro w w' same
  have bounded := w.toNat_lt
  have bounded' := w'.toNat_lt
  simp only [wordBytes, List.cons.injEq, ← UInt8.toNat_inj, UInt64.toNat_toUInt8,
    UInt64.toNat_shiftRight, Nat.shiftRight_eq_div_pow, UInt64.reduceToNat, Nat.reduceMod,
    Nat.reducePow] at same
  apply UInt64.toNat_inj.mp
  omega

theorem countBytes_inj
    {n n' : Nat}
    (word : n < UInt64.size)
    (word' : n' < UInt64.size) :
    countBytes n = countBytes n' ↔ n = n' := by
  unfold countBytes
  rw [wordBytes_injective.eq_iff, ← UInt64.toNat_inj, UInt64.toNat_ofNat_of_lt' word,
    UInt64.toNat_ofNat_of_lt' word']

theorem map_countBytes_inj
    {counts counts' : List Nat}
    (words : ∀ n ∈ counts, n < UInt64.size)
    (words' : ∀ n ∈ counts', n < UInt64.size)
    (same : counts.map countBytes = counts'.map countBytes) :
    counts = counts' := by
  induction counts generalizing counts' with
  | nil => exact (List.map_eq_nil_iff.mp same.symm).symm
  | cons n rest ih =>
      cases counts' with
      | nil => cases same
      | cons n' rest' =>
          rw [List.forall_mem_cons] at words words'
          obtain ⟨first, later⟩ := List.cons.inj same
          rw [(countBytes_inj words.1 words'.1).mp first, ih words.2 words'.2 later]

/-- Both zeros are written as the word zero, and other reals as their bits. -/
theorem realBytes_eq (x : Float) :
    realBytes x = wordBytes (if IsZeroPattern x.toBits then 0 else x.toBits) := by
  unfold realBytes
  by_cases zero : IsZeroPattern x.toBits
  · have equal : (x == 0.0) = true := by
      obtain rfl | rfl := (isZeroPattern_toBits_iff x).mp zero <;> decide +kernel
    rw [if_pos equal, if_pos zero]
    rfl
  · have different : ¬(x == 0.0) = true := by
      intro equal
      obtain ⟨_, _, same | ⟨isZero, _⟩⟩ := (beq_iff_sameNumber x 0.0).mp equal
      · exact zero (by rw [same]; decide +kernel)
      · exact zero isZero
    rw [if_neg different, if_neg zero]

/-- The bytes of numbers are the same just where the numbers are. -/
theorem realBytes_eq_iff
    {x y : Float}
    (isNumber : ¬IsNaNPattern x.toBits)
    (isNumber' : ¬IsNaNPattern y.toBits) :
    realBytes x = realBytes y ↔ SameNumber x y := by
  have zeroIsZero : IsZeroPattern 0 := rfl
  rw [realBytes_eq, realBytes_eq, wordBytes_injective.eq_iff]
  constructor
  · intro same
    refine ⟨isNumber, isNumber', ?_⟩
    split at same
    · next zero =>
        split at same
        · next zero' => exact .inr ⟨zero, zero'⟩
        · next nonzero' => exact absurd (same ▸ zeroIsZero) nonzero'
    · next nonzero =>
        split at same
        · next zero' => exact absurd (same ▸ zeroIsZero) nonzero
        · exact .inl same
  · rintro ⟨_, _, same | ⟨zero, zero'⟩⟩
    · rw [same]
    · rw [if_pos zero, if_pos zero']

theorem map_realBytes_eq_iff
    {data data' : List Float}
    (numbers : ∀ x ∈ data, ¬IsNaNPattern x.toBits)
    (numbers' : ∀ x ∈ data', ¬IsNaNPattern x.toBits) :
    data.map realBytes = data'.map realBytes ↔ List.Forall₂ SameNumber data data' := by
  induction data generalizing data' with
  | nil => cases data' <;> simp
  | cons x rest ih =>
      cases data' with
      | nil => simp
      | cons x' rest' =>
          rw [List.forall_mem_cons] at numbers numbers'
          rw [List.map_cons, List.map_cons, List.cons.injEq, List.forall₂_cons,
            realBytes_eq_iff numbers.1 numbers'.1, ih numbers.2 numbers'.2]

section FixedWidth

variable {α : Type} {write : α → List UInt8} {width : Nat}

theorem length_flatMap
    (fixed : ∀ a, (write a).length = width)
    (items : List α) :
    (items.flatMap write).length = items.length * width := by
  induction items with
  | nil => simp
  | cons a rest ih =>
      rw [List.flatMap_cons, List.length_append, fixed, ih, List.length_cons, Nat.add_mul,
        Nat.one_mul, Nat.add_comm]

/-- Items whose bytes have one width are read back one by one. -/
theorem flatMap_eq_iff
    (positive : 0 < width)
    (fixed : ∀ a, (write a).length = width)
    {items items' : List α} :
    items.flatMap write = items'.flatMap write ↔ items.map write = items'.map write := by
  constructor
  · intro same
    induction items generalizing items' with
    | nil =>
        have empty := congrArg List.length same
        rw [length_flatMap fixed, length_flatMap fixed, List.length_nil, Nat.zero_mul] at empty
        have none_there := (Nat.mul_eq_zero.mp empty.symm).resolve_right positive.ne'
        rw [List.length_eq_zero_iff.mp none_there]
    | cons a rest ih =>
        cases items' with
        | nil =>
            have full := congrArg List.length same
            rw [length_flatMap fixed, length_flatMap fixed, List.length_cons, List.length_nil,
              Nat.add_mul] at full
            omega
        | cons a' rest' =>
            rw [List.flatMap_cons, List.flatMap_cons] at same
            obtain ⟨here, later⟩ := List.append_inj same (by rw [fixed, fixed])
            rw [List.map_cons, List.map_cons, here, ih later]
  · intro same
    rw [List.flatMap_def, List.flatMap_def, same]

end FixedWidth

theorem arrayBytes_congr
    {data data' : List Float}
    (same : data.map realBytes = data'.map realBytes)
    (dims : List Nat) :
    arrayBytes dims data = arrayBytes dims data' := by
  unfold arrayBytes
  rw [(flatMap_eq_iff (by decide) length_realBytes).mpr same]

/-- An array is known from its bytes, up to the signs of zeros: the rank says how many dimensions
there are, and the elements are the rest. -/
theorem arrayBytes_eq_iff
    {s s' : Shape} {data data' : List Float}
    (fits : s.FitsWords)
    (fits' : s'.FitsWords) :
    arrayBytes s.dims data = arrayBytes s'.dims data' ↔
      s = s' ∧ data.map realBytes = data'.map realBytes := by
  constructor
  · intro same
    unfold arrayBytes at same
    rw [List.append_assoc, List.append_assoc] at same
    obtain ⟨ranks, same⟩ := List.append_inj same rfl
    have rank : s.dims.length = s'.dims.length := (countBytes_inj fits.rank fits'.rank).mp ranks
    obtain ⟨sizes, elements⟩ := List.append_inj same (by
      rw [length_flatMap length_countBytes, length_flatMap length_countBytes, rank])
    rw [flatMap_eq_iff (by decide) length_countBytes] at sizes
    rw [flatMap_eq_iff (by decide) length_realBytes] at elements
    have dims := map_countBytes_inj fits.sizes fits'.sizes sizes
    exact ⟨congrArg Shape.mk dims, elements⟩
  · rintro ⟨rfl, same⟩
    exact arrayBytes_congr same _

end Digest

namespace Value

/-- The elements of a value, a number being the only one of its own. -/
def elements (v : Value) : List Float :=
  v.toTensor.data.toList

/-- No element is missing: all of them are numbers. -/
def IsNumeric (v : Value) : Prop :=
  ∀ x ∈ v.elements, ¬IsNaNPattern x.toBits

theorem contentBytes_eq (v : Value) :
    v.contentBytes = Digest.arrayBytes v.shape.dims v.elements := by
  cases v <;> rfl

/-- Values have the same contents if they have one shape and the same numbers in equal places. -/
theorem sameContents_iff {v w : Value} :
    v.sameContents w = true ↔
      v.shape = w.shape ∧ List.Forall₂ SameNumber v.elements w.elements := by
  simp only [sameContents_eq, Tensor.beq_iff, beq_iff_sameNumber]
  rfl

section SameContents

variable {u v w : Value}

theorem sameContents_symm (same : v.sameContents w = true) : w.sameContents v = true := by
  rw [sameContents_iff] at same ⊢
  exact ⟨same.1.symm, same.2.flip.imp fun _ _ => SameNumber.symm⟩

theorem sameContents_trans
    (first : u.sameContents v = true)
    (next : v.sameContents w = true) :
    u.sameContents w = true := by
  rw [sameContents_iff] at first next ⊢
  exact ⟨first.1.trans next.1, forall₂_trans (fun _ _ _ => SameNumber.trans) first.2 next.2⟩

/-- A value has its own contents if no element is missing. -/
theorem sameContents_self_iff : v.sameContents v = true ↔ v.IsNumeric := by
  rw [sameContents_iff, List.forall₂_same]
  simp only [SameNumber.self_iff, true_and]
  rfl

/-- Equal contents are written alike. -/
theorem contentBytes_eq_of_sameContents
    (same : v.sameContents w = true) :
    v.contentBytes = w.contentBytes := by
  obtain ⟨shapes, elements⟩ := sameContents_iff.mp same
  have numbers : ∀ x ∈ v.elements, ¬IsNaNPattern x.toBits :=
    sameContents_self_iff.mp (sameContents_trans same (sameContents_symm same))
  have numbers' : ∀ x ∈ w.elements, ¬IsNaNPattern x.toBits :=
    sameContents_self_iff.mp (sameContents_trans (sameContents_symm same) same)
  rw [contentBytes_eq, contentBytes_eq, shapes]
  exact Digest.arrayBytes_congr ((Digest.map_realBytes_eq_iff numbers numbers').mpr elements) _

theorem digest_eq_of_sameContents
    (same : v.sameContents w = true) :
    v.digest = w.digest :=
  congrArg Digest.ofBytes (contentBytes_eq_of_sameContents same)

/-- Where no element is missing, the bytes are the same just where the contents are. -/
theorem contentBytes_eq_iff
    (numeric : v.IsNumeric)
    (numeric' : w.IsNumeric)
    (fits : v.shape.FitsWords)
    (fits' : w.shape.FitsWords) :
    v.contentBytes = w.contentBytes ↔ v.sameContents w = true := by
  rw [contentBytes_eq, contentBytes_eq, Digest.arrayBytes_eq_iff fits fits',
    Digest.map_realBytes_eq_iff numeric numeric', sameContents_iff]

end SameContents

/-- Having the same contents is an equality of shapes and numbers: it is symmetric and transitive,
and a value has its own contents if no element is missing.  The bytes that a digest is computed from
are a normal form for it.  Values of equal contents have the same bytes, and so one digest.  Values
of numbers have the same bytes only if their contents are equal, so that a digest that they share in
spite of different contents is one hash of two byte sequences. -/
theorem contents_have_canonical_bytes (u v w : Value) :
    (v.sameContents w = true ↔
      v.shape = w.shape ∧ List.Forall₂ SameNumber v.elements w.elements) ∧
    (v.sameContents w = true → w.sameContents v = true) ∧
    (u.sameContents v = true → v.sameContents w = true → u.sameContents w = true) ∧
    (v.sameContents v = true ↔ v.IsNumeric) ∧
    (v.sameContents w = true → v.contentBytes = w.contentBytes ∧ v.digest = w.digest) ∧
    (v.IsNumeric → w.IsNumeric → v.shape.FitsWords → w.shape.FitsWords →
      (v.contentBytes = w.contentBytes ↔ v.sameContents w = true)) :=
  ⟨sameContents_iff, sameContents_symm, sameContents_trans, sameContents_self_iff,
    fun same => ⟨contentBytes_eq_of_sameContents same, digest_eq_of_sameContents same⟩,
    contentBytes_eq_iff⟩

/-- A zero of either sign beside a one. -/
def zeroAndOne (zero : Float) : Value :=
  .tensor ⟨⟨[2]⟩, #[zero, 1.0], rfl⟩

/-- The sign of a zero is not part of the contents, and not of the bytes. -/
theorem contents_have_canonical_bytes_zeroAndOne :
    (zeroAndOne 0.0).contentBytes = (zeroAndOne (-0.0)).contentBytes ∧
      (zeroAndOne 0.0).sameContents (zeroAndOne (-0.0)) = true ∧
      (zeroAndOne (-0.0)).sameContents (zeroAndOne 0.0) = true ∧
      (zeroAndOne (-0.0)).sameContents (zeroAndOne (-0.0)) = true ∧
      (zeroAndOne 0.0).digest = (zeroAndOne (-0.0)).digest := by
  have numeric : (zeroAndOne 0.0).IsNumeric ∧ (zeroAndOne (-0.0)).IsNumeric := by
    unfold IsNumeric
    decide +kernel
  have fits : ∀ zero, (zeroAndOne zero).shape.FitsWords := by
    intro zero
    refine ⟨(by decide : 1 < UInt64.size), ?_⟩
    change ∀ size ∈ [2], size < UInt64.size
    decide
  have bytes : (zeroAndOne 0.0).contentBytes = (zeroAndOne (-0.0)).contentBytes := by
    decide +kernel
  obtain ⟨_, symmetric, transitive, _, written, canonical⟩ :=
    contents_have_canonical_bytes (zeroAndOne (-0.0)) (zeroAndOne 0.0) (zeroAndOne (-0.0))
  have same := (canonical numeric.1 numeric.2 (fits _) (fits _)).mp bytes
  exact ⟨bytes, same, symmetric same, transitive (symmetric same) same, (written same).2⟩

end Value

end ModelGraph
