import Mathlib.Tactic.Ring
import ModelGraph.Proofs.Shape.Walk

/-!
# Multi-indices as numerals

A walk visits multi-indices in lexicographic order.  Where all axes have one size, a multi-index is
the numeral of its place in the walk: the size is the base, and the outermost component is the most
significant digit.
-/

namespace ModelGraph

namespace Shape

/-! ## Order -/

/-- A walk visits that multi-index first which comes first lexicographically. -/
theorem position_lt_position_iff
    {dims index index' : List Nat}
    (inside : InBounds dims index)
    (inside' : InBounds dims index') :
    position dims index < position dims index' ↔ index < index' := by
  induction dims generalizing index index' with
  | nil =>
      cases index with
      | nil =>
          cases index' with
          | nil => simp [position]
          | cons i' rest' => exact inside'.elim
      | cons i rest => exact inside.elim
  | cons size sizes ih =>
      cases index with
      | nil => exact inside.elim
      | cons i rest =>
          cases index' with
          | nil => exact inside'.elim
          | cons i' rest' =>
              rw [List.cons_lt_cons_iff, ← ih inside.2 inside'.2]
              have room := position_lt inside.2
              have room' := position_lt inside'.2
              simp only [position]
              rcases Nat.lt_trichotomy i i' with before | rfl | after
              · have whole : (i + 1) * places sizes ≤ i' * places sizes :=
                  Nat.mul_le_mul_right _ before
                rw [Nat.add_mul] at whole
                omega
              · omega
              · have whole : (i' + 1) * places sizes ≤ i * places sizes :=
                  Nat.mul_le_mul_right _ after
                rw [Nat.add_mul] at whole
                omega

/-- No two multi-indices have one place. -/
theorem InBounds.eq_of_position_eq
    {dims index index' : List Nat}
    (inside : InBounds dims index)
    (inside' : InBounds dims index')
    (same : position dims index = position dims index') :
    index = index' := by
  refine List.le_antisymm ?_ ?_
  · intro after
    have := (position_lt_position_iff inside' inside).mpr after
    omega
  · intro after
    have := (position_lt_position_iff inside inside').mpr after
    omega

/-- Each multi-index is visited at its place. -/
theorem getElem?_indexList_position
    {s : Shape} {index : List Nat}
    (inside : InBounds s.dims index) :
    s.indexList[position s.dims index]? = some index := by
  have room : position s.dims index < s.indexList.length := by
    rw [length_indexList]
    exact position_lt inside
  have visit := List.getElem?_eq_getElem room
  obtain ⟨visited, place⟩ := getElem?_indexList visit
  rw [visit, visited.eq_of_position_eq inside place]

/-! ## Numerals -/

/-- The last `count` digits of a number in a base, the most significant one first. -/
def digits (base count k : Nat) : List Nat :=
  (List.range count).map fun i => k / base ^ (count - 1 - i) % base

theorem inBounds_replicate_iff {base count : Nat} {index : List Nat} :
    InBounds (List.replicate count base) index ↔
      index.length = count ∧ ∀ i ∈ index, i < base := by
  induction count generalizing index with
  | zero => cases index <;> simp [InBounds]
  | succ count ih =>
      cases index with
      | nil => simp [List.replicate_succ, InBounds]
      | cons i rest =>
          rw [List.replicate_succ, InBounds, ih, List.length_cons, List.forall_mem_cons,
            Nat.add_right_cancel_iff, and_left_comm]

example : digits 3 4 32 = [1, 0, 1, 2] := by decide

end Shape

end ModelGraph
