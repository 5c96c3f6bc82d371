import Mathlib.Data.List.Nodup
import ModelGraph.Proofs.Shape.Digits
import ModelGraph.Proofs.Shape.Stretching

/-!
# The row-major order

A walk over an array is a count.  It ends after as many multi-indices as the array has places,
each of them comes once, in lexicographic order, and the strides of the array tell for each how
many came before it, as long as words can count so far.
-/

namespace ModelGraph

namespace Shape

/-- A walk that is cut short visits the first multi-indices of the longer walk. -/
theorem Indices.take_take (count limit : Nat) (walk : Indices) :
    (walk.take limit).take count = walk.take (min count limit) := by
  induction limit generalizing count walk with
  | zero => simp [Indices.take]
  | succ limit ih =>
      cases count with
      | zero => simp [Indices.take]
      | succ count =>
          rw [Nat.add_min_add_right]
          unfold Indices.take
          cases walk.step? with
          | none => rfl
          | some visit => rw [List.take_succ_cons, ih]

/-- A walk ends after as many multi-indices as there are places. -/
theorem length_take_indices (s : Shape) (limit : Nat) :
    (s.indices.take limit).length = min limit (places s.dims) := by
  unfold indices
  split
  · next empty =>
      have ended : Indices.take limit ⟨s.dims, none⟩ = [] := by
        cases limit <;> rfl
      rw [ended, places_eq_zero empty]
      simp
  · next nonempty =>
      rw [length_take (inBounds_zeros nonempty), position_zeros, Nat.sub_zero]

/-- Nothing is visited beyond the list of all multi-indices. -/
theorem take_indices (s : Shape) (limit : Nat) :
    s.indices.take limit = s.indexList.take limit := by
  unfold indexList
  rw [Indices.take_take]
  rcases Nat.le_total limit (places s.dims) with within | beyond
  · rw [Nat.min_eq_left within]
  · have whole : (s.indices.take limit).length ≤ places s.dims := by
      rw [length_take_indices]
      exact Nat.min_le_right _ _
    rw [Nat.min_eq_right beyond, ← List.take_of_length_le whole, Indices.take_take,
      Nat.min_eq_left beyond]

theorem mem_indexList_iff {s : Shape} {index : List Nat} :
    index ∈ s.indexList ↔ InBounds s.dims index := by
  constructor
  · intro present
    obtain ⟨k, visit⟩ := List.mem_iff_getElem?.mp present
    exact (getElem?_indexList visit).1
  · intro inside
    exact List.mem_of_getElem? (getElem?_indexList_position inside)

/-- Multi-indices are visited in lexicographic order. -/
theorem pairwise_indexList (s : Shape) : s.indexList.Pairwise (· < ·) := by
  refine List.pairwise_iff_getElem.mpr fun i j first second before => ?_
  obtain ⟨inside, place⟩ := getElem?_indexList (List.getElem?_eq_getElem first)
  obtain ⟨inside', place'⟩ := getElem?_indexList (List.getElem?_eq_getElem second)
  exact (position_lt_position_iff inside inside').mp (by omega)

theorem count_indexList
    {s : Shape} {index : List Nat}
    (present : index ∈ s.indexList) :
    s.indexList.count index = 1 := by
  have nodup : s.indexList.Nodup := by
    refine (pairwise_indexList s).imp fun before same => ?_
    rw [same] at before
    exact List.lt_irrefl _ before
  exact List.count_eq_one_of_mem nodup present

theorem foldr_mul_eq_places (dims : List Nat) : dims.foldr (· * ·) 1 = places dims := by
  induction dims with
  | nil => rfl
  | cons size sizes ih => rw [List.foldr_cons, ih, places]

theorem scanr_mul_eq_cons (dims : List Nat) :
    dims.scanr (· * ·) 1 = places dims :: (dims.scanr (· * ·) 1).tail := by
  cases dims with
  | nil => rfl
  | cons size sizes => rw [List.scanr_cons, List.tail_cons, foldr_mul_eq_places, places]

/-- The strides are the numbers of places inside the axes, in words. -/
theorem strides_eq (dims : List Nat) :
    strides dims = ((dims.scanr (· * ·) 1).tail).map wrap := by
  induction dims with
  | nil => rfl
  | cons size sizes ih =>
      rw [List.scanr_cons, List.tail_cons, scanr_mul_eq_cons, List.map_cons, ← ih, strides,
        count_eq]

/-- No row has more places than an array with some. -/
theorem scanr_mul_le
    {dims : List Nat} {n : Nat}
    (nonempty : 0 ∉ dims)
    (present : n ∈ dims.scanr (· * ·) 1) :
    n ≤ places dims := by
  induction dims with
  | nil =>
      rw [List.scanr_nil, List.mem_singleton] at present
      exact present.le
  | cons size sizes ih =>
      rw [List.mem_cons, not_or] at nonempty
      rw [List.scanr_cons, List.mem_cons, foldr_mul_eq_places] at present
      rcases present with rfl | inner
      · exact Nat.le_refl _
      · exact (ih nonempty.2 inner).trans
          (Nat.le_mul_of_pos_left _ (Nat.pos_of_ne_zero (Ne.symm nonempty.1)))

/-- Where words can count the places of an array that has some, no stride is cut short. -/
theorem IsCounted.strides_eq
    {s : Shape}
    (counted : s.IsCounted)
    (nonempty : 0 ∉ s.dims) :
    strides s.dims = (s.dims.scanr (· * ·) 1).tail := by
  rw [Shape.strides_eq]
  refine (List.map_congr_left fun n present => ?_).trans (List.map_id _)
  have small := scanr_mul_le nonempty (List.mem_of_mem_tail present)
  exact wrap_eq_self (Nat.lt_of_le_of_lt small counted)

/-- A walk visits as many multi-indices as there are elements and then ends.  It visits exactly
those with each component below its dimension, each once, in lexicographic order, and the strides
lead from the start of the storage to the element with as many others before it.  The shape of a
single number has the empty multi-index, and a shape with an empty axis has none. -/
theorem indices_in_row_major_order {s : Shape} (counted : s.IsCounted) :
    s.indexList.length = s.elementCount ∧
      (∀ limit, s.indices.take limit = s.indexList.take limit) ∧
      s.indexList.Pairwise (· < ·) ∧
      (∀ index, index ∈ s.indexList ↔ List.Forall₂ (· < ·) index s.dims) ∧
      (∀ index ∈ s.indexList, s.indexList.count index = 1) ∧
      (∀ k index, s.indexList[k]? = some index → s.offset index = k) ∧
      (0 ∉ s.dims → strides s.dims = (s.dims.scanr (· * ·) 1).tail) ∧
      scalar.indexList = [[]] ∧
      (0 ∈ s.dims → s.indexList = []) := by
  refine ⟨s.length_indexList.trans counted.elementCount_eq.symm, s.take_indices,
    s.pairwise_indexList, fun index => ?_, fun _ => count_indexList, fun k index visit => ?_,
    counted.strides_eq, rfl, fun empty => ?_⟩
  · rw [mem_indexList_iff, inBounds_iff_forall₂]
  · obtain ⟨inside, place⟩ := getElem?_indexList visit
    rw [counted.offset_eq_position inside, place]
  · have noPlace : s.indexList.length = 0 := by
      rw [length_indexList]
      exact places_eq_zero empty
    exact List.length_eq_zero_iff.mp noPlace

example : (Shape.mk [2, 2]).indexList = [[0, 0], [0, 1], [1, 0], [1, 1]] := by decide

/-- The last element of three rows of two is stored after five others. -/
theorem indices_in_row_major_order_threeRows :
    (Shape.mk [3, 2]).IsCounted ∧ (Shape.mk [3, 2]).indexList.length = 6 ∧
      (Shape.mk [3, 2]).offset [2, 1] = 5 ∧ strides [3, 2] = [2, 1] := by
  have counted : (Shape.mk [3, 2]).IsCounted := by decide
  obtain ⟨length, -, -, -, -, stored, lengths, -, -⟩ := indices_in_row_major_order counted
  exact ⟨counted, length, stored 5 [2, 1] rfl, lengths (by decide)⟩

end Shape

end ModelGraph
