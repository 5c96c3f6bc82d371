import ModelGraph.Proofs.Crashes
import ModelGraph.Proofs.Shape.Digits
import ModelGraph.Proofs.Shape.Stretching
import ModelGraph.Tensor.Arithmetic

/-!
# Elementwise operations

Two tensors are combined where their axes can be stretched to each other.  Then each element of the
result comes of the elements of the operands at the same multi-index, as far as they have its axes,
and nothing is read that is not stored: `zipWith_combines_elements`.
-/

namespace ModelGraph

namespace Tensor

/-- There is an element for every place. -/
def IsComplete (t : Tensor) : Prop :=
  t.data.size = Shape.places t.shape.dims

/-- There is an element for every place, and the number of elements is a word. -/
structure Filled (t : Tensor) : Prop where
  complete : t.IsComplete
  isWord : t.data.size < UInt64.size

theorem Filled.counted
    {t : Tensor}
    (filled : t.Filled) :
    t.shape.IsCounted := by
  have isWord := filled.isWord
  rwa [filled.complete] at isWord

theorem IsComplete.position_lt_size
    {t : Tensor} {index : List Nat}
    (complete : t.IsComplete)
    (inside : Shape.InBounds t.shape.dims index) :
    Shape.position t.shape.dims index < t.data.size :=
  complete ▸ Shape.position_lt inside

/-- The element at a multi-index, in row-major order. -/
def element (t : Tensor) (complete : t.IsComplete) (index : List Nat)
    (inside : Shape.InBounds t.shape.dims index) : Float :=
  have stored := complete.position_lt_size inside
  t.data[Shape.position t.shape.dims index]

/-- What is read for a multi-index is stored: the multi-index has a component for each axis of the
tensor, and the element is within the data. -/
structure Reads (t : Tensor) (index : List Nat) : Prop where
  rank_le : t.shape.rank ≤ index.length
  offset_lt : t.shape.offset index < t.data.size

theorem read_eq_ok
    {t : Tensor} {place : Nat}
    (stored : place < t.data.size) :
    t.read place = .ok t.data[place] := by
  unfold read
  rw [Array.getElem?_eq_getElem stored]

theorem Filled.get_eq_ok
    {t : Tensor} {index : List Nat}
    (filled : t.Filled)
    (inside : Shape.InBounds t.shape.dims (t.shape.reading index)) :
    t.get index = .ok (t.element filled.complete (t.shape.reading index) inside) := by
  unfold get element
  rw [filled.counted.offset_eq_position_reading inside]
  exact read_eq_ok _

/-! ## Generated tensors -/

section Generate

variable {shape : Shape} {entry : List Nat → Except Error Float} {t : Tensor}

theorem isComplete_of_generate (formed : generate shape entry = .ok t) : t.IsComplete := by
  obtain ⟨rfl, mapped⟩ := generate_eq_ok_iff.mp formed
  have lengths := length_of_mapM_eq_ok mapped
  rw [Shape.length_indexList, Array.length_toList] at lengths
  exact lengths

/-- A generated tensor has the answers of the function as elements. -/
theorem element_of_generate
    {index : List Nat}
    (formed : generate shape entry = .ok t)
    (inside : Shape.InBounds t.shape.dims index) :
    entry index = .ok (t.element (isComplete_of_generate formed) index inside) := by
  have complete := isComplete_of_generate formed
  obtain ⟨rfl, mapped⟩ := generate_eq_ok_iff.mp formed
  have answers := Outcome.mapM_eq_ok_iff.mp mapped
  obtain ⟨visited, visit⟩ :=
    List.getElem?_eq_some_iff.mp (Shape.getElem?_indexList_position inside)
  have answered := answers.get visited (complete.position_lt_size inside)
  rw [List.get_eq_getElem, visit] at answered
  exact answered

/-- A tensor is generated unless the function is refused somewhere. -/
theorem generate_ensures
    {reason : Error → Prop}
    (each : ∀ index, Shape.InBounds shape.dims index → Outcome.RefusedFor (entry index) reason) :
    Outcome.Ensures (generate shape entry) (fun t => t.shape = shape) reason := by
  have mapped : Outcome.RefusedFor (shape.indexList.mapM entry) reason := by
    refine Outcome.RefusedFor.mapM fun index visited => ?_
    obtain ⟨k, visit⟩ := List.mem_iff_getElem?.mp visited
    exact each index (Shape.getElem?_indexList visit).1
  cases formed : generate shape entry with
  | ok t => exact (generate_eq_ok_iff.mp formed).1
  | error e => exact mapped.of_error (generate_eq_error_iff.mp formed)

theorem exists_generate
    (answers : ∀ index, Shape.InBounds shape.dims index → ∃ x, entry index = .ok x) :
    ∃ t, generate shape entry = .ok t ∧ t.shape = shape := by
  refine (generate_ensures fun index inside => ?_).exists_ok
  obtain ⟨x, answered⟩ := answers index inside
  rw [answered]
  trivial

end Generate

/-! ## Combined tensors -/

theorem reads_of_stretchesTo
    {t : Tensor} {c : Shape} {index : List Nat}
    (filled : t.Filled)
    (stretches : t.shape.StretchesTo c)
    (inside : Shape.InBounds c.dims index) :
    t.Reads index where
  rank_le := by
    rw [inside.length_eq]
    exact stretches.rank_le
  offset_lt := by
    have read := stretches.inBounds_reading inside
    rw [filled.counted.offset_eq_position_reading read]
    exact filled.complete.position_lt_size read

/-- What is combined of two operands has their common shape and an element for each of its places,
which is the value of the function on what is read of the operands there. -/
structure Combines (f : Float → Float → Float) (a b c : Tensor) (left : a.Filled)
    (right : b.Filled) : Prop where
  rank_eq : c.shape.rank = max a.shape.rank b.shape.rank
  axis_eq : ∀ k, c.shape.axis k =
    if a.shape.axis k = 1 then b.shape.axis k else a.shape.axis k
  complete : c.IsComplete
  size_data : c.shape.IsCounted → c.data.size = c.shape.elementCount
  reads : ∀ index ∈ c.shape.indexList, a.Reads index ∧ b.Reads index
  elements : ∀ index (inside : Shape.InBounds c.shape.dims index),
    ∃ (ofLeft : Shape.InBounds a.shape.dims (a.shape.reading index))
      (ofRight : Shape.InBounds b.shape.dims (b.shape.reading index)),
      c.element complete index inside =
        f (a.element left.complete (a.shape.reading index) ofLeft)
          (b.element right.complete (b.shape.reading index) ofRight)

section Combine

variable {f : Float → Float → Float} {a b : Tensor} {shape : Shape}

theorem isComplete_of_zipWith
    {c : Tensor}
    (combined : a.zipWith f b = .ok c) :
    c.IsComplete := by
  obtain ⟨shape, -, formed⟩ := Outcome.bind_eq_ok_iff.mp combined
  exact isComplete_of_generate formed

theorem combined_eq_ok
    {index : List Nat}
    (left : a.Filled)
    (right : b.Filled)
    (ofLeft : Shape.InBounds a.shape.dims (a.shape.reading index))
    (ofRight : Shape.InBounds b.shape.dims (b.shape.reading index)) :
    (do return f (← a.get index) (← b.get index) : Except Error Float) =
      .ok (f (a.element left.complete (a.shape.reading index) ofLeft)
        (b.element right.complete (b.shape.reading index) ofRight)) := by
  rw [left.get_eq_ok ofLeft, right.get_eq_ok ofRight]
  rfl

theorem combines_of_generate
    {c : Tensor}
    (left : a.Filled)
    (right : b.Filled)
    (common : a.shape.broadcast b.shape = .ok shape)
    (formed : generate shape (fun index => do return f (← a.get index) (← b.get index)) = .ok c) :
    Combines f a b c left right := by
  obtain ⟨rank, sizes⟩ := Shape.broadcast_eq_ok_iff.mp common
  obtain ⟨fromLeft, fromRight⟩ := Shape.stretchesTo_of_broadcast common
  have complete := isComplete_of_generate formed
  obtain rfl := (generate_eq_ok_iff.mp formed).1
  refine
    { rank_eq := rank
      axis_eq := fun k => (Shape.stretch?_eq_some_iff.mp (sizes k)).2
      complete := complete
      size_data := fun counted => complete.trans counted.elementCount_eq.symm
      reads := ?_
      elements := ?_ }
  · intro index visited
    obtain ⟨k, visit⟩ := List.mem_iff_getElem?.mp visited
    obtain ⟨inside, _⟩ := Shape.getElem?_indexList visit
    exact ⟨reads_of_stretchesTo left fromLeft inside, reads_of_stretchesTo right fromRight inside⟩
  · intro index inside
    have ofLeft := fromLeft.inBounds_reading inside
    have ofRight := fromRight.inBounds_reading inside
    have answered := element_of_generate formed inside
    exact ⟨ofLeft, ofRight, Except.ok.inj
      (answered.symm.trans (combined_eq_ok left right ofLeft ofRight))⟩

theorem exists_combined
    (left : a.Filled)
    (right : b.Filled)
    (common : a.shape.broadcast b.shape = .ok shape) :
    ∃ c, a.zipWith f b = .ok c ∧ Combines f a b c left right := by
  obtain ⟨fromLeft, fromRight⟩ := Shape.stretchesTo_of_broadcast common
  have answers : ∀ index, Shape.InBounds shape.dims index →
      ∃ x, (do return f (← a.get index) (← b.get index) : Except Error Float) = .ok x :=
    fun index inside => ⟨_, combined_eq_ok left right (fromLeft.inBounds_reading inside)
      (fromRight.inBounds_reading inside)⟩
  obtain ⟨c, formed, _⟩ := exists_generate answers
  exact ⟨c, Outcome.bind_eq_ok_iff.mpr ⟨shape, common, formed⟩,
    combines_of_generate left right common formed⟩

theorem read_ensures
    {t : Tensor} {place : Nat}
    (stored : t.shape.IsCounted → place < t.data.size) :
    Outcome.RefusedFor (t.read place) fun e => e.IsCrash ∧ ¬t.shape.IsCounted := by
  unfold read
  split
  · trivial
  · next missing =>
      rw [Array.getElem?_eq_none_iff, ← Nat.not_lt] at missing
      exact ⟨⟨_, rfl⟩, fun counted => missing (stored counted)⟩

theorem get_ensures
    {t : Tensor} {index : List Nat}
    (stretches : t.shape.StretchesTo shape)
    (inside : Shape.InBounds shape.dims index) :
    Outcome.RefusedFor (t.get index) fun e => e.IsCrash ∧ ¬t.shape.IsCounted := by
  refine read_ensures fun counted => ?_
  have isPlace := stretches.inBounds_reading inside
  rw [counted.offset_eq_position_reading isPlace]
  exact Nat.lt_of_lt_of_le (Shape.position_lt isPlace) (t.places_le_size counted)

/-- An operation on two tensors crashes, and words cannot count the places of one of them. -/
structure Overreads (a b : Tensor) (e : Error) : Prop where
  isCrash : e.IsCrash
  uncounted : ¬(a.shape.IsCounted ∧ b.shape.IsCounted)

theorem combined_ensures
    (f : Float → Float → Float) {x y : Except Error Float}
    (left : Outcome.RefusedFor x fun e => e.IsCrash ∧ ¬a.shape.IsCounted)
    (right : Outcome.RefusedFor y fun e => e.IsCrash ∧ ¬b.shape.IsCounted) :
    Outcome.RefusedFor (do return f (← x) (← y)) (a.Overreads b) := by
  have left' : Outcome.RefusedFor x (a.Overreads b) :=
    left.refusedFor fun e refused => ⟨refused.1, fun both => refused.2 both.1⟩
  have right' : Outcome.RefusedFor y (a.Overreads b) :=
    right.refusedFor fun e refused => ⟨refused.1, fun both => refused.2 both.2⟩
  exact left'.bind fun _ _ => right'.bind fun _ _ => trivial

/-- Tensors of a common shape are combined unless words cannot count the places of one. -/
theorem zipWith_ensures
    (f : Float → Float → Float)
    (common : a.shape.broadcast b.shape = .ok shape) :
    Outcome.Ensures (a.zipWith f b) (fun c => c.shape = shape) (a.Overreads b) := by
  obtain ⟨fromLeft, fromRight⟩ := Shape.stretchesTo_of_broadcast common
  rw [zipWith, common]
  exact generate_ensures fun index inside =>
    combined_ensures f (get_ensures fromLeft inside) (get_ensures fromRight inside)

/-- Tensors are refused for their shapes if two aligned axes differ and neither can be stretched.
Otherwise they are combined element by element. -/
theorem zipWith_combines_elements
    (f : Float → Float → Float) {a b : Tensor}
    (left : a.Filled)
    (right : b.Filled) :
    (a.zipWith f b = .error (.shapeMismatch a.shape b.shape) ↔ a.shape.Clashes b.shape) ∧
      (¬a.shape.Clashes b.shape → ∃ c, a.zipWith f b = .ok c ∧ Combines f a b c left right) := by
  cases common : a.shape.broadcast b.shape with
  | error e =>
      obtain ⟨rfl, clash⟩ := Shape.broadcast_eq_error_iff.mp common
      refine ⟨iff_of_true ?_ clash, absurd clash⟩
      rw [zipWith, common]
      rfl
  | ok shape =>
      have noClash : ¬a.shape.Clashes b.shape := by
        rw [← Shape.broadcast?_eq_none_iff]
        intro nowhere
        rw [Shape.broadcast, nowhere] at common
        cases common
      obtain ⟨c, combined, combines⟩ := exists_combined (f := f) left right common
      refine ⟨iff_of_false (fun refused => ?_) noClash, fun _ => ⟨c, combined, combines⟩⟩
      cases refused.symm.trans combined

end Combine

/-- Two numbers below each other. -/
def column : Tensor :=
  ⟨⟨[2, 1]⟩, #[10.0, 20.0], rfl⟩

/-- Three numbers beside each other. -/
def row : Tensor :=
  .vector #[1.0, 2.0, 3.0]

theorem filled_column : column.Filled :=
  ⟨rfl, by decide⟩

theorem filled_row : row.Filled :=
  ⟨rfl, by decide⟩

theorem zipWith_combines_elements_columnAndRow :
    column.Filled ∧ row.Filled ∧
      ∃ c, ∃ complete : c.IsComplete, column.zipWith (· + ·) row = .ok c ∧ c.shape = ⟨[2, 3]⟩ ∧
        ∃ inside, c.element complete [1, 2] inside = 20.0 + 3.0 := by
  have noClash : ¬column.shape.Clashes row.shape := by
    rintro ⟨k, differ, left, right⟩
    match k with
    | 0 => exact left rfl
    | 1 => exact right rfl
    | k + 2 => exact differ rfl
  obtain ⟨c, combined, combines⟩ :=
    (zipWith_combines_elements (· + ·) filled_column filled_row).2 noClash
  have isWide : c.shape = ⟨[2, 3]⟩ := by
    obtain ⟨shape, common, formed⟩ := Outcome.bind_eq_ok_iff.mp combined
    rw [(generate_eq_ok_iff.mp formed).1]
    exact (Except.ok.inj common).symm
  have inside : Shape.InBounds c.shape.dims [1, 2] := by
    rw [isWide]
    exact ⟨by decide, by decide, trivial⟩
  obtain ⟨_, _, sum⟩ := combines.elements [1, 2] inside
  exact ⟨filled_column, filled_row, c, combines.complete, combined, isWide, inside, sum⟩

end Tensor

end ModelGraph
