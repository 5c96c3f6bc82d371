import ModelGraph.Shape.Indices

/-!
# The walk follows the storage order

The elements of an array are stored in the order in which the walk visits their multi-indices:
the multi-index that is visited after `k` others is that of the element with `k` others before
it.  The strides lead there as far as words can count, so without fail where they can count the
places of the array.
-/

namespace ModelGraph

namespace Shape

theorem InBounds.length_eq
    {dims index : List Nat}
    (inside : InBounds dims index) :
    index.length = dims.length := by
  induction dims generalizing index with
  | nil =>
      cases index with
      | nil => rfl
      | cons i rest => exact inside.elim
  | cons size sizes ih =>
      cases index with
      | nil => exact inside.elim
      | cons i rest => simp [ih inside.2]

/-- The positions at which axes are read: there is but one on an axis of size one. -/
def clamp (dims index : List Nat) : List Nat :=
  List.zipWith (fun size i => if size = 1 then 0 else i) dims index

/-- The multi-index at which an array of this shape is read: outermost axes that it lacks are
dropped, and axes of size one are read at zero. -/
def reading (s : Shape) (index : List Nat) : List Nat :=
  clamp s.dims (index.drop (index.length - s.rank))

theorem clamp_of_inBounds
    {dims index : List Nat}
    (inside : InBounds dims index) :
    clamp dims index = index := by
  induction dims generalizing index with
  | nil =>
      cases index with
      | nil => rfl
      | cons i rest => exact inside.elim
  | cons size sizes ih =>
      cases index with
      | nil => exact inside.elim
      | cons i rest =>
          obtain ⟨bounded, inner⟩ := inside
          have first : (if size = 1 then 0 else i) = i := by split <;> omega
          have others : List.zipWith (fun size i => if size = 1 then 0 else i) sizes rest = rest :=
            ih inner
          rw [clamp, List.zipWith_cons_cons, first, others]

theorem wrap_add_congr
    {m m' n n' : Nat}
    (left : wrap m = wrap m')
    (right : wrap n = wrap n') :
    wrap (m + n) = wrap (m' + n') := by
  unfold wrap at *
  rw [Nat.add_mod, left, right, ← Nat.add_mod]

/-- Elements are stored by the places of the multi-indices at which they are read. -/
theorem wrap_distance_strides (dims index : List Nat) :
    wrap (distance dims (strides dims) index) = wrap (position dims (clamp dims index)) := by
  induction dims generalizing index with
  | nil => rfl
  | cons size sizes ih =>
      cases index with
      | nil => rfl
      | cons i rest =>
          have first : wrap (if size = 1 then 0 else i * count sizes) =
              wrap ((if size = 1 then 0 else i) * places sizes) := by
            rw [count_eq]
            split
            · rw [Nat.zero_mul]
            · exact wrap_mul_wrap _ _
          exact wrap_add_congr first (ih rest)

theorem offset_eq_wrap_position (s : Shape) (index : List Nat) :
    s.offset index = wrap (position s.dims (s.reading index)) :=
  wrap_distance_strides s.dims _

/-- Where words can count the places, the strides lead to the place that is read. -/
theorem IsCounted.offset_eq_position_reading
    {s : Shape} {index : List Nat}
    (counted : s.IsCounted)
    (inside : InBounds s.dims (s.reading index)) :
    s.offset index = position s.dims (s.reading index) := by
  rw [offset_eq_wrap_position]
  exact wrap_eq_self (Nat.lt_trans (position_lt inside) counted)

theorem reading_of_inBounds
    {s : Shape} {index : List Nat}
    (inside : InBounds s.dims index) :
    s.reading index = index := by
  unfold reading rank
  rw [inside.length_eq, Nat.sub_self, List.drop_zero, clamp_of_inBounds inside]

theorem IsCounted.offset_eq_position
    {s : Shape} {index : List Nat}
    (counted : s.IsCounted)
    (inside : InBounds s.dims index) :
    s.offset index = position s.dims index := by
  have read := reading_of_inBounds inside
  rw [counted.offset_eq_position_reading (read.symm ▸ inside), read]

/-- A walk visits places one after the other. -/
theorem getElem?_take
    {dims index visited : List Nat} {limit k : Nat}
    (inside : InBounds dims index)
    (visit : (Indices.take limit ⟨dims, some index⟩)[k]? = some visited) :
    InBounds dims visited ∧ position dims visited = position dims index + k := by
  induction limit generalizing index k with
  | zero => simp [Indices.take] at visit
  | succ limit ih =>
      simp only [Indices.take, Indices.step?, Option.map_some] at visit
      cases k with
      | zero =>
          cases visit
          exact ⟨inside, rfl⟩
      | succ k =>
          rw [List.getElem?_cons_succ] at visit
          cases moved : advance? dims index with
          | none =>
              rw [moved] at visit
              cases limit <;> simp [Indices.take, Indices.step?] at visit
          | some next =>
              rw [moved] at visit
              obtain ⟨nextInside, onward⟩ := (position_advance? inside).1 next moved
              obtain ⟨visitedInside, place⟩ := ih nextInside visit
              exact ⟨visitedInside, by omega⟩

/-- The walk over a whole array visits the multi-index of the element with `k` others before it
after `k` others. -/
theorem getElem?_indexList
    {s : Shape} {k : Nat} {visited : List Nat}
    (visit : s.indexList[k]? = some visited) :
    InBounds s.dims visited ∧ position s.dims visited = k := by
  have counted : k < places s.dims := by
    rw [← length_indexList]
    exact (List.getElem?_eq_some_iff.mp visit).1
  have nonempty : 0 ∉ s.dims := fun empty => by
    have noPlace := places_eq_zero empty
    omega
  unfold indexList indices at visit
  rw [if_neg nonempty] at visit
  obtain ⟨inside, place⟩ := getElem?_take (inBounds_zeros nonempty) visit
  rw [position_zeros, Nat.zero_add] at place
  exact ⟨inside, place⟩

end Shape

end ModelGraph
