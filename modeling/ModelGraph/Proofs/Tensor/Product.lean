import ModelGraph.Proofs.Tensor.Elementwise

/-!
# Matrix products

Two tensors are multiplied if they are matrices and the first has as many columns as the second has
rows.  Then each element of the product is the sum over a row of the first and a column of the
second, from left to right, and nothing is read that is not stored: `matmul_sums_products`.
-/

namespace ModelGraph

namespace Shape

theorem inBounds_matrix_iff {m n i j : Nat} : InBounds [m, n] [i, j] ↔ i < m ∧ j < n := by
  simp [InBounds]

theorem exists_of_inBounds_matrix
    {m n : Nat} {index : List Nat}
    (inside : InBounds [m, n] index) :
    ∃ (i : Fin m) (j : Fin n), index = [i.val, j.val] := by
  match index, inside with
  | [i, j], ⟨row, column, _⟩ => exact ⟨⟨i, row⟩, ⟨j, column⟩, rfl⟩

/-- A matrix is stored row by row. -/
theorem position_matrix (m n i j : Nat) : position [m, n] [i, j] = i * n + j := by
  simp [position, places]

/-- Two shapes have a product if they are those of matrices with one inner dimension. -/
theorem matmul_eq_ok_iff {s t c : Shape} :
    s.matmul t = .ok c ↔ ∃ m k n, s = ⟨[m, k]⟩ ∧ t = ⟨[k, n]⟩ ∧ c = ⟨[m, n]⟩ := by
  constructor
  · intro multiplied
    unfold matmul matmul? at multiplied
    obtain ⟨dims⟩ := s
    obtain ⟨dims'⟩ := t
    split at multiplied
    · next shape found =>
        cases multiplied
        split at found
        · next m k k' n isLeft isRight =>
            split at found
            · next same =>
                cases found
                exact ⟨m, k, n, congrArg Shape.mk isLeft,
                  congrArg Shape.mk (same ▸ isRight), rfl⟩
            · cases found
        · cases found
    · cases multiplied
  · rintro ⟨m, k, n, rfl, rfl, rfl⟩
    simp [matmul, matmul?]

theorem matmul_eq_error
    {s t : Shape} {e : Error}
    (refused : s.matmul t = .error e) :
    e = .matrixShape s t := by
  unfold matmul at refused
  split at refused
  · cases refused
  · cases refused
    rfl

end Shape

namespace Tensor

section Entry

variable {m n : Nat} {t : Tensor}

theorem inBounds_of_isMatrix
    (isMatrix : t.shape = ⟨[m, n]⟩)
    (i : Fin m) (j : Fin n) :
    Shape.InBounds t.shape.dims [i, j] := by
  rw [isMatrix]
  exact Shape.inBounds_matrix_iff.mpr ⟨i.isLt, j.isLt⟩

theorem position_of_isMatrix
    (isMatrix : t.shape = ⟨[m, n]⟩)
    (i : Fin m) (j : Fin n) :
    Shape.position t.shape.dims [i, j] = i * n + j := by
  rw [isMatrix, Shape.position_matrix]

theorem entry_lt_size
    (complete : t.IsComplete)
    (isMatrix : t.shape = ⟨[m, n]⟩)
    (i : Fin m) (j : Fin n) :
    i * n + j < t.data.size := by
  rw [← position_of_isMatrix isMatrix]
  exact complete.position_lt_size (inBounds_of_isMatrix isMatrix i j)

/-- The element of a matrix in a row and a column. -/
def entry (t : Tensor) (complete : t.IsComplete) (isMatrix : t.shape = ⟨[m, n]⟩)
    (i : Fin m) (j : Fin n) : Float :=
  have stored := entry_lt_size complete isMatrix i j
  t.data[i * n + j]

theorem element_eq_entry
    (complete : t.IsComplete)
    (isMatrix : t.shape = ⟨[m, n]⟩)
    (i : Fin m) (j : Fin n) :
    t.element complete [i, j] (inBounds_of_isMatrix isMatrix i j) =
      t.entry complete isMatrix i j := by
  unfold element entry
  simp only [position_of_isMatrix isMatrix]

/-- The place of an element is found without a sum that words cannot hold. -/
theorem Filled.wrap_place
    (filled : t.Filled)
    (isMatrix : t.shape = ⟨[m, n]⟩)
    (i : Fin m) (j : Fin n) :
    Shape.wrap (i * n + j) = i * n + j := by
  have small := entry_lt_size filled.complete isMatrix i j
  rw [filled.complete] at small
  exact Shape.wrap_eq_self (Nat.lt_trans small filled.counted)

theorem Filled.offset_matrix
    (filled : t.Filled)
    (isMatrix : t.shape = ⟨[m, n]⟩)
    (i : Fin m) (j : Fin n) :
    t.shape.offset [i, j] = i * n + j := by
  rw [filled.counted.offset_eq_position (inBounds_of_isMatrix isMatrix i j),
    position_of_isMatrix isMatrix]

theorem Filled.read_eq_entry
    (filled : t.Filled)
    (isMatrix : t.shape = ⟨[m, n]⟩)
    (i : Fin m) (j : Fin n) :
    t.read (Shape.wrap (i * n + j)) = .ok (t.entry filled.complete isMatrix i j) := by
  rw [filled.wrap_place isMatrix]
  exact read_eq_ok _

end Entry

/-- The place of an element that is looked for in a row and a column of a matrix: it is computed
in words, it is where the element is stored, and an element is stored there. -/
structure ReadsPlace (t : Tensor) (columns row column : Nat) : Prop where
  wrap_eq : Shape.wrap (row * columns + column) = row * columns + column
  offset_eq : t.shape.offset [row, column] = row * columns + column
  reads : t.Reads [row, column]

theorem Filled.readsPlace
    {m n : Nat} {t : Tensor}
    (filled : t.Filled)
    (isMatrix : t.shape = ⟨[m, n]⟩)
    (i : Fin m) (j : Fin n) :
    t.ReadsPlace n i j where
  wrap_eq := filled.wrap_place isMatrix i j
  offset_eq := filled.offset_matrix isMatrix i j
  reads :=
    { rank_le := by
        rw [isMatrix]
        exact Nat.le_refl 2
      offset_lt := by
        rw [filled.offset_matrix isMatrix]
        exact entry_lt_size filled.complete isMatrix i j }

section Product

variable {m k n : Nat} {a b c : Tensor}

/-- The sum of the products of a row of one matrix and a column of another. -/
theorem dot_eq_ok
    (left : a.Filled)
    (right : b.Filled)
    (isLeft : a.shape = ⟨[m, k]⟩)
    (isRight : b.shape = ⟨[k, n]⟩)
    (i : Fin m) (j : Fin n) :
    dot a b k n i j = .ok ((List.ofFn fun p => a.entry left.complete isLeft i p *
      b.entry right.complete isRight p j).foldl (· + ·) (-0.0)) := by
  unfold dot
  refine Outcome.bind_eq_ok_iff.mpr ⟨_, ?_, rfl⟩
  rw [Steps.run_zero_eq, Outcome.mapM_eq_ok_iff]
  refine List.forall₂_iff_get.mpr ⟨by simp, fun p inside inside' => ?_⟩
  have bounded : p < k := by simpa using inside
  have ofLeft := left.read_eq_entry isLeft i ⟨p, bounded⟩
  have ofRight := right.read_eq_entry isRight ⟨p, bounded⟩ j
  simp only [List.get_eq_getElem, List.getElem_range, List.getElem_ofFn]
  rw [ofLeft, ofRight]
  rfl

/-- A tensor is the product of a matrix with `m` rows and `k` columns and one with `k` rows and `n`
columns. -/
structure Multiplies (m k n : Nat) (a b c : Tensor) (left : a.Filled) (right : b.Filled) :
    Prop where
  left_shape : a.shape = ⟨[m, k]⟩
  right_shape : b.shape = ⟨[k, n]⟩
  shape_eq : c.shape = ⟨[m, n]⟩
  complete : c.IsComplete
  size_data : c.data.size = m * n
  /-- The elements of a row are next to each other, and all of them are there. -/
  left_reads : ∀ (i : Fin m) (p : Fin k), a.ReadsPlace k i p
  /-- The elements of a column are one row apart, and all of them are there. -/
  right_reads : ∀ (p : Fin k) (j : Fin n), b.ReadsPlace n p j
  /-- Each element is a sum from left to right. -/
  entries : ∀ (i : Fin m) (j : Fin n),
    c.entry complete shape_eq i j = (List.ofFn fun p =>
      a.entry left.complete left_shape i p * b.entry right.complete right_shape p j).foldl
        (· + ·) (-0.0)
  empty_sums : k = 0 → ∀ x ∈ c.data, x = -0.0
  no_entries : m = 0 ∨ n = 0 → c.data = #[]

/-- The entries of what is computed for two matrices. -/
theorem entry_of_generate
    (left : a.Filled)
    (right : b.Filled)
    (isLeft : a.shape = ⟨[m, k]⟩)
    (isRight : b.shape = ⟨[k, n]⟩)
    (isMatrix : c.shape = ⟨[m, n]⟩)
    (formed : generate ⟨[m, n]⟩ (dotAt a b k n) = .ok c)
    (i : Fin m) (j : Fin n) :
    c.entry (isComplete_of_generate formed) isMatrix i j = (List.ofFn fun p =>
      a.entry left.complete isLeft i p * b.entry right.complete isRight p j).foldl
        (· + ·) (-0.0) := by
  have answered := element_of_generate formed (inBounds_of_isMatrix isMatrix i j)
  rw [element_eq_entry _ isMatrix] at answered
  exact Except.ok.inj (answered.symm.trans (dot_eq_ok left right isLeft isRight i j))

/-- What is computed for two matrices is their product. -/
theorem multiplies_of_generate
    (left : a.Filled)
    (right : b.Filled)
    (isLeft : a.shape = ⟨[m, k]⟩)
    (isRight : b.shape = ⟨[k, n]⟩)
    (formed : generate ⟨[m, n]⟩ (dotAt a b k n) = .ok c) :
    Multiplies m k n a b c left right := by
  have isMatrix := (generate_eq_ok_iff.mp formed).1
  have complete := isComplete_of_generate formed
  have size : c.data.size = m * n := by
    rw [complete, isMatrix]
    simp [Shape.places]
  have entries := entry_of_generate left right isLeft isRight isMatrix formed
  refine
    { left_shape := isLeft
      right_shape := isRight
      shape_eq := isMatrix
      complete := complete
      size_data := size
      left_reads := left.readsPlace isLeft
      right_reads := right.readsPlace isRight
      entries := entries
      empty_sums := ?_
      no_entries := ?_ }
  · rintro rfl x present
    obtain ⟨place, inside, rfl⟩ := Array.mem_iff_getElem.mp present
    -- the entry at a place is that of its row and column
    have columns : 0 < n := Nat.pos_of_ne_zero (by rintro rfl; omega)
    have row : place / n < m := Nat.div_lt_of_lt_mul (by rw [Nat.mul_comm]; omega)
    have split : place / n * n + place % n = place := by
      rw [Nat.mul_comm]
      exact Nat.div_add_mod place n
    have sum := entries ⟨place / n, row⟩ ⟨place % n, Nat.mod_lt _ columns⟩
    simp only [entry, split] at sum
    exact sum
  · rintro (rfl | rfl)
    · exact Array.eq_empty_of_size_eq_zero (size.trans (Nat.zero_mul n))
    · exact Array.eq_empty_of_size_eq_zero (size.trans (Nat.mul_zero m))

theorem matmul_eq_ok_iff :
    a.matmul b = .ok c ↔ ∃ m k n, a.shape = ⟨[m, k]⟩ ∧ b.shape = ⟨[k, n]⟩ ∧
      generate ⟨[m, n]⟩ (dotAt a b k n) = .ok c := by
  unfold matmul
  rw [Outcome.bind_eq_ok_iff]
  constructor
  · rintro ⟨shape, multiplied, formed⟩
    obtain ⟨m, k, n, isLeft, isRight, rfl⟩ := Shape.matmul_eq_ok_iff.mp multiplied
    rw [isLeft, isRight] at formed
    exact ⟨m, k, n, isLeft, isRight, formed⟩
  · rintro ⟨m, k, n, isLeft, isRight, formed⟩
    refine ⟨⟨[m, n]⟩, Shape.matmul_eq_ok_iff.mpr ⟨m, k, n, isLeft, isRight, rfl⟩, ?_⟩
    rw [isLeft, isRight]
    exact formed

theorem isComplete_of_matmul
    {c : Tensor}
    (multiplied : a.matmul b = .ok c) :
    c.IsComplete := by
  obtain ⟨shape, -, formed⟩ := Outcome.bind_eq_ok_iff.mp multiplied
  exact isComplete_of_generate formed

/-- Matrices with one inner dimension have a product. -/
theorem exists_matmul
    (left : a.Filled)
    (right : b.Filled)
    (isLeft : a.shape = ⟨[m, k]⟩)
    (isRight : b.shape = ⟨[k, n]⟩) :
    ∃ c, a.matmul b = .ok c := by
  have answers : ∀ index, Shape.InBounds [m, n] index → ∃ x, dotAt a b k n index = .ok x := by
    intro index inside
    obtain ⟨i, j, rfl⟩ := Shape.exists_of_inBounds_matrix inside
    exact ⟨_, dot_eq_ok left right isLeft isRight i j⟩
  obtain ⟨c, formed, -⟩ := exists_generate answers
  exact ⟨c, matmul_eq_ok_iff.mpr ⟨m, k, n, isLeft, isRight, formed⟩⟩

theorem read_matrix_ensures
    (isLeft : a.shape = ⟨[m, k]⟩)
    (i : Fin m) (p : Fin k) :
    Outcome.RefusedFor (a.read (Shape.wrap (i * k + p)))
      fun e => e.IsCrash ∧ ¬a.shape.IsCounted := by
  refine read_ensures fun counted => ?_
  have isPlace := Shape.position_lt (inBounds_of_isMatrix isLeft i p)
  rw [position_of_isMatrix isLeft] at isPlace
  rw [Shape.wrap_eq_self (Nat.lt_trans isPlace counted)]
  exact Nat.lt_of_lt_of_le isPlace (a.places_le_size counted)

theorem dot_ensures
    (isLeft : a.shape = ⟨[m, k]⟩)
    (isRight : b.shape = ⟨[k, n]⟩)
    (i : Fin m) (j : Fin n) :
    Outcome.RefusedFor (dot a b k n i j) (a.Overreads b) := by
  simp only [dot, Steps.run_zero_eq]
  refine (Outcome.RefusedFor.mapM fun p inside => ?_).bind fun _ _ => trivial
  have bounded := List.mem_range.mp inside
  exact combined_ensures (· * ·) (read_matrix_ensures isLeft i ⟨p, bounded⟩)
    (read_matrix_ensures isRight ⟨p, bounded⟩ j)

/-- Matrices with one inner dimension have a product unless words cannot count the places of
one. -/
theorem matmul_ensures
    {shape : Shape}
    (common : a.shape.matmul b.shape = .ok shape) :
    Outcome.Ensures (a.matmul b) (fun c => c.shape = shape) (a.Overreads b) := by
  obtain ⟨m, k, n, isLeft, isRight, rfl⟩ := Shape.matmul_eq_ok_iff.mp common
  rw [matmul, common]
  refine generate_ensures fun index inside => ?_
  obtain ⟨i, j, rfl⟩ := Shape.exists_of_inBounds_matrix inside
  rw [show a.shape.last?.getD 0 = k by rw [isLeft]; rfl,
    show b.shape.last?.getD 0 = n by rw [isRight]; rfl]
  exact dot_ensures isLeft isRight i j

/-- Tensors have a product if they are matrices with one inner dimension, and are refused for their
shapes otherwise.  Each element of a product is the sum of the products of a row and a column. -/
theorem matmul_sums_products
    (left : a.Filled)
    (right : b.Filled) :
    ((∃ c, a.matmul b = .ok c) ↔ ∃ m k n, a.shape = ⟨[m, k]⟩ ∧ b.shape = ⟨[k, n]⟩) ∧
      (∀ e, a.matmul b = .error e → e = .matrixShape a.shape b.shape) ∧
        ∀ c, a.matmul b = .ok c → ∃ m k n, Multiplies m k n a b c left right := by
  refine ⟨⟨?_, ?_⟩, ?_, ?_⟩
  · rintro ⟨c, multiplied⟩
    obtain ⟨m, k, n, isLeft, isRight, _⟩ := matmul_eq_ok_iff.mp multiplied
    exact ⟨m, k, n, isLeft, isRight⟩
  · rintro ⟨m, k, n, isLeft, isRight⟩
    exact exists_matmul left right isLeft isRight
  · intro e refused
    cases shaped : a.shape.matmul b.shape with
    | ok shape =>
        obtain ⟨m, k, n, isLeft, isRight, _⟩ := Shape.matmul_eq_ok_iff.mp shaped
        obtain ⟨c, multiplied⟩ := exists_matmul left right isLeft isRight
        cases multiplied.symm.trans refused
    | error e' =>
        rw [matmul, shaped] at refused
        cases refused
        exact Shape.matmul_eq_error shaped
  · intro c multiplied
    obtain ⟨m, k, n, isLeft, isRight, formed⟩ := matmul_eq_ok_iff.mp multiplied
    exact ⟨m, k, n, multiplies_of_generate left right isLeft isRight formed⟩

end Product

/-- Two numbers beside each other, as a matrix. -/
def pair : Tensor :=
  ⟨⟨[1, 2]⟩, #[2.0, 3.0], rfl⟩

/-- Two rows without elements. -/
def emptyRows : Tensor :=
  ⟨⟨[2, 0]⟩, #[], rfl⟩

/-- One column without elements. -/
def emptyColumn : Tensor :=
  ⟨⟨[0, 1]⟩, #[], rfl⟩

theorem filled_pair : pair.Filled :=
  ⟨rfl, by decide⟩

theorem filled_emptyRows : emptyRows.Filled :=
  ⟨rfl, by decide⟩

theorem filled_emptyColumn : emptyColumn.Filled :=
  ⟨rfl, by decide⟩

theorem matmul_sums_products_pair :
    pair.Filled ∧ column.Filled ∧ emptyRows.Filled ∧ emptyColumn.Filled ∧
      (∃ c, ∃ complete : c.IsComplete, ∃ isMatrix : c.shape = ⟨[1, 1]⟩,
        pair.matmul column = .ok c ∧
          c.entry complete isMatrix 0 0 = -0.0 + 2.0 * 10.0 + 3.0 * 20.0) ∧
      (∃ c, emptyRows.matmul emptyColumn = .ok c ∧ c.shape = ⟨[2, 1]⟩ ∧ ∀ x ∈ c.data, x = -0.0) ∧
        column.matmul column = .error (.matrixShape ⟨[2, 1]⟩ ⟨[2, 1]⟩) := by
  refine ⟨filled_pair, filled_column, filled_emptyRows, filled_emptyColumn, ?_, ?_, ?_⟩
  · obtain ⟨exists_iff, -, products⟩ := matmul_sums_products filled_pair filled_column
    obtain ⟨c, multiplied⟩ := exists_iff.mpr ⟨1, 2, 1, rfl, rfl⟩
    obtain ⟨m, k, n, multiplies⟩ := products c multiplied
    cases multiplies.left_shape
    cases multiplies.right_shape
    exact ⟨c, multiplies.complete, multiplies.shape_eq, multiplied, multiplies.entries 0 0⟩
  · obtain ⟨exists_iff, -, products⟩ := matmul_sums_products filled_emptyRows filled_emptyColumn
    obtain ⟨c, multiplied⟩ := exists_iff.mpr ⟨2, 0, 1, rfl, rfl⟩
    obtain ⟨m, k, n, multiplies⟩ := products c multiplied
    cases multiplies.left_shape
    cases multiplies.right_shape
    exact ⟨c, multiplied, multiplies.shape_eq, multiplies.empty_sums rfl⟩
  · have refusal := (matmul_sums_products filled_column filled_column).2.1
    cases refused : column.matmul column with
    | ok c => cases refused
    | error e => rw [refusal e refused]; rfl

end Tensor

end ModelGraph
