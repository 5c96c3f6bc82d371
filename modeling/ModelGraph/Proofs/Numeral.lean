import Mathlib.Data.List.Basic
import Mathlib.Data.List.Induction
import ModelGraph.Numeral
import ModelGraph.Proofs.Decimal.Characters

/-!
# The spellings of a number

A number is written with as few digits as it takes, but read from more: zeros may stand before
the digits, and a plus sign before the zeros.  `readSigned?_eq_some_iff` says that nothing else
may.
-/

namespace ModelGraph

namespace Numeral

/-- What may stand before the digits of a number: zeros, and a plus sign before them. -/
def IsPadding (padding : String) : Prop :=
  ∃ zeros, padding.toList = List.replicate zeros '0' ∨
    padding.toList = '+' :: List.replicate zeros '0'

theorem isPadding_empty : IsPadding "" :=
  ⟨0, .inl rfl⟩

theorem digitChar_toNat_sub {c : Char} (isDigit : c.isDigit = true) :
    Nat.digitChar (c.toNat - '0'.toNat) = c ∧ c.toNat - '0'.toNat < 10 := by
  obtain ⟨low, high⟩ := Char.isDigit_iff_toNat.mp isDigit
  change 48 ≤ c.toNat at low
  change c.toNat ≤ 57 at high
  have small : c.toNat - '0'.toNat < 10 := by
    change c.toNat - 48 < 10
    omega
  refine ⟨Char.toNat_inj.mp ?_, small⟩
  rw [Nat.toNat_digitChar_of_lt_ten small]
  change 48 + (c.toNat - 48) = c.toNat
  omega

theorem ofDigits_eq_ofDigitChars
    {digits : List Char}
    (areDigits : ∀ c ∈ digits, c.isDigit = true) :
    ofDigits digits = Nat.ofDigitChars 10 digits 0 := by
  unfold ofDigits
  rw [Nat.ofDigitChars_eq_foldl]
  apply List.foldl_ext
  intro n c present
  simp [digit?, areDigits c present]

/-- Digits are those that their number is written with, after some zeros. -/
theorem exists_zeros_append_toDigits
    {digits : List Char}
    (nonempty : digits ≠ [])
    (areDigits : ∀ c ∈ digits, c.isDigit = true) :
    ∃ zeros, digits =
      List.replicate zeros '0' ++ Nat.toDigits 10 (Nat.ofDigitChars 10 digits 0) := by
  -- on the digits from the right, as the last one is the last that is written
  induction digits using List.reverseRecOn with
  | nil => exact absurd rfl nonempty
  | append_singleton front c ih =>
      have areFront : ∀ c ∈ front, c.isDigit = true := fun c present =>
        areDigits c (List.mem_append_left _ present)
      obtain ⟨isChar, small⟩ := digitChar_toNat_sub (areDigits c (by simp))
      have lastDigit : Nat.toDigits 10 (c.toNat - '0'.toNat) = [c] := by
        rw [Nat.toDigits_of_lt_base small, isChar]
      rw [Nat.ofDigitChars_append, Nat.ofDigitChars_cons, Nat.ofDigitChars_nil]
      by_cases alone : front = []
      · subst alone
        exact ⟨0, by simpa using lastDigit.symm⟩
      · obtain ⟨zeros, written⟩ := ih alone areFront
        by_cases nothing : Nat.ofDigitChars 10 front 0 = 0
        · refine ⟨zeros + 1, ?_⟩
          rw [nothing, Nat.toDigits_zero] at written
          rw [nothing, Nat.mul_zero, Nat.zero_add, lastDigit, List.replicate_succ', ← written]
        · refine ⟨zeros, ?_⟩
          rw [← Nat.toDigits_append_toDigits (by decide) (Nat.pos_of_ne_zero nothing) small,
            lastDigit, ← List.append_assoc, ← written]

/-- Digits are read as a number if they are those that it is written with, after some zeros. -/
theorem read?_eq_some_iff {s : List Char} {n : Nat} :
    read? s = some n ↔ ∃ zeros, s = List.replicate zeros '0' ++ Nat.toDigits 10 n := by
  unfold read?
  constructor
  · intro found
    split at found
    · next isNumeral =>
        have areDigits := List.all_eq_true.mp isNumeral.2
        obtain rfl := Option.some.inj found
        rw [ofDigits_eq_ofDigitChars areDigits]
        exact exists_zeros_append_toDigits isNumeral.1 areDigits
    · cases found
  · rintro ⟨zeros, rfl⟩
    have areDigits : ∀ c ∈ List.replicate zeros '0' ++ Nat.toDigits 10 n, c.isDigit = true := by
      intro c present
      rcases List.mem_append.mp present with zero | digit
      · rw [List.eq_of_mem_replicate zero]
        rfl
      · exact Nat.isDigit_of_mem_toDigits (by decide) (by decide) digit
    have nonempty : List.replicate zeros '0' ++ Nat.toDigits 10 n ≠ [] := by simp
    rw [if_pos ⟨nonempty, List.all_eq_true.mpr areDigits⟩, ofDigits_eq_ofDigitChars areDigits,
      Nat.ofDigitChars_append, Nat.ofDigitChars_replicate_zero, Nat.mul_zero,
      Nat.ofDigitChars_ten_toDigits]

theorem read?_plus (digits : List Char) : read? ('+' :: digits) = none := by
  unfold read?
  rw [if_neg]
  rintro ⟨-, areDigits⟩
  cases List.all_eq_true.mp areDigits '+' List.mem_cons_self

/-- A text is read as a number if it is the text of the number, with zeros and a plus sign
before it or without. -/
theorem readSigned?_eq_some_iff {s : String} {n : Nat} :
    readSigned? s.toList = some n ↔ ∃ padding, IsPadding padding ∧ s = padding ++ n.repr := by
  have spelled : ∀ padding : String, s = padding ++ n.repr ↔
      s.toList = padding.toList ++ Nat.toDigits 10 n := by
    intro padding
    rw [← String.toList_inj, String.toList_append, Nat.toList_repr]
  constructor
  · intro found
    unfold readSigned? at found
    split at found
    · next digits starts =>
        obtain ⟨zeros, isNumeral⟩ := read?_eq_some_iff.mp found
        refine ⟨String.ofList ('+' :: List.replicate zeros '0'), ⟨zeros, .inr (by simp)⟩, ?_⟩
        rw [spelled, starts, isNumeral, String.toList_ofList, List.cons_append]
    · obtain ⟨zeros, isNumeral⟩ := read?_eq_some_iff.mp found
      refine ⟨String.ofList (List.replicate zeros '0'), ⟨zeros, .inl (by simp)⟩, ?_⟩
      rw [spelled, isNumeral, String.toList_ofList]
  · rintro ⟨padding, ⟨zeros, unsigned | signed⟩, isSpelled⟩
    · have digits : read? s.toList = some n :=
        read?_eq_some_iff.mpr ⟨zeros, unsigned ▸ (spelled padding).mp isSpelled⟩
      unfold readSigned?
      split
      · next starts =>
          rw [starts, read?_plus] at digits
          cases digits
      · exact digits
    · rw [(spelled padding).mp isSpelled, signed, List.cons_append]
      exact read?_eq_some_iff.mpr ⟨zeros, rfl⟩

end Numeral

end ModelGraph
