import ModelGraph.Shape.Basic

/-!
# Multi-indices

The elements of an array are visited in row-major order, the innermost axis fastest.
`Shape.indices` walks the multi-indices one by one, and `Shape.offset` says where the
element at a multi-index is stored.  `length_indexList` says that the walk visits every place
of an array, also where words cannot count the places.
-/

namespace ModelGraph

namespace Shape

/-- The multi-index after `index`: the innermost axis with room moves on, and all axes
inside it start again. -/
def advance? : (dims index : List Nat) → Option (List Nat)
  | size :: sizes, i :: rest =>
    match advance? sizes rest with
    | some rest' => some (i :: rest')
    | none => if i + 1 < size then some ((i + 1) :: sizes.map fun _ => 0) else none
  | _, _ => none

/-- The multi-indices of an array that are still to be visited. -/
structure Indices where
  /-- The dimensions of the array. -/
  dims : List Nat
  /-- The multi-index to visit next. -/
  next? : Option (List Nat)

/-- All multi-indices of an array; none if an axis is empty. -/
def indices (s : Shape) : Indices :=
  ⟨s.dims, if 0 ∈ s.dims then none else some (s.dims.map fun _ => 0)⟩

namespace Indices

/-- Visits one multi-index. -/
def step? (walk : Indices) : Option (List Nat × Indices) :=
  walk.next?.map fun index => (index, { walk with next? := advance? walk.dims index })

/-- The first `limit` multi-indices of a walk. -/
def take : (limit : Nat) → Indices → List (List Nat)
  | 0, _ => []
  | limit + 1, walk =>
    match walk.step? with
    | none => []
    | some (index, walk) => index :: walk.take limit

/-- Folds the first `limit` multi-indices of a walk; no index is formed after a failure. -/
def foldlM {m : Type → Type} [Monad m] {α : Type} (f : α → List Nat → m α) :
    (limit : Nat) → α → Indices → m α
  | 0, acc, _ => pure acc
  | limit + 1, acc, walk =>
    match walk.step? with
    | none => pure acc
    | some (index, walk) => do
      let acc ← f acc index
      foldlM f limit acc walk

/-- Applies a function to the first `limit` multi-indices of a walk; no index is formed after a
failure. -/
def mapM {m : Type → Type} [Monad m] {β : Type} (f : List Nat → m β) :
    (limit : Nat) → Indices → m (List β)
  | 0, _ => pure []
  | limit + 1, walk =>
    match walk.step? with
    | none => pure []
    | some (index, walk) => do
      let b ← f index
      return b :: (← mapM f limit walk)

/-- Folding a walk is folding the list of its multi-indices. -/
theorem foldlM_eq {m : Type → Type} [Monad m] [LawfulMonad m] {α : Type}
    (f : α → List Nat → m α) (limit : Nat) (acc : α) (walk : Indices) :
    foldlM f limit acc walk = (walk.take limit).foldlM f acc := by
  induction limit generalizing acc walk with
  | zero => rfl
  | succ limit ih =>
    unfold foldlM take
    cases walk.step? with
    | none => rfl
    | some visit => simp [ih]

/-- Going along a walk is going along the list of its multi-indices. -/
theorem mapM_eq {m : Type → Type} [Monad m] [LawfulMonad m] {β : Type}
    (f : List Nat → m β) (limit : Nat) (walk : Indices) :
    mapM f limit walk = (walk.take limit).mapM f := by
  induction limit generalizing walk with
  | zero => rfl
  | succ limit ih =>
    unfold mapM take
    cases walk.step? with
    | none => rfl
    | some visit => simp [ih]

end Indices

/-- Every multi-index, in row-major order. -/
def indexList (s : Shape) : List (List Nat) :=
  s.indices.take (places s.dims)

/-- The distance in storage between neighbours along each axis, computed in words. -/
def strides : (dims : List Nat) → List Nat
  | [] => []
  | _ :: sizes => count sizes :: strides sizes

/-- The storage distance of an index from the start; axes of size one are read at zero. -/
def distance : (dims strides index : List Nat) → Nat
  | size :: sizes, stride :: strides, i :: rest =>
    (if size = 1 then 0 else i * stride) + distance sizes strides rest
  | _, _, _ => 0

/-- Where an array of this shape keeps the element at an index, computed in words.  The index may
have more axes than the shape; the outermost ones are then dropped. -/
def offset (s : Shape) (index : List Nat) : Nat :=
  wrap (distance s.dims (strides s.dims) (index.drop (index.length - s.rank)))

/-! ### The walk visits every element -/

/-- The place of a multi-index in the walk. -/
def position : (dims index : List Nat) → Nat
  | _ :: sizes, i :: rest => i * places sizes + position sizes rest
  | _, _ => 0

/-- A multi-index with one component below each dimension. -/
def InBounds : (dims index : List Nat) → Prop
  | [], [] => True
  | size :: sizes, i :: rest => i < size ∧ InBounds sizes rest
  | _, _ => False

theorem position_zeros (dims : List Nat) : position dims (dims.map fun _ => 0) = 0 := by
  induction dims with
  | nil => rfl
  | cons size sizes ih => simp only [List.map_cons, position, ih, Nat.zero_mul, Nat.add_zero]

theorem inBounds_zeros {dims : List Nat} (nonempty : 0 ∉ dims) :
    InBounds dims (dims.map fun _ => 0) := by
  induction dims with
  | nil => trivial
  | cons size sizes ih =>
    simp only [List.mem_cons, not_or] at nonempty
    exact ⟨Nat.pos_of_ne_zero (Ne.symm nonempty.1), ih nonempty.2⟩

theorem InBounds.zero_notMem {dims index : List Nat} (inside : InBounds dims index) :
    0 ∉ dims := by
  induction dims generalizing index with
  | nil => simp
  | cons size sizes ih =>
    cases index with
    | nil => exact inside.elim
    | cons i rest =>
      have positive : 0 < size := Nat.lt_of_le_of_lt (Nat.zero_le i) inside.1
      simp only [List.mem_cons, not_or]
      exact ⟨by omega, ih inside.2⟩

theorem position_lt {dims index : List Nat} (inside : InBounds dims index) :
    position dims index < places dims := by
  induction dims generalizing index with
  | nil => cases index <;> simp_all [InBounds, position, places]
  | cons size sizes ih =>
    cases index with
    | nil => exact inside.elim
    | cons i rest =>
      have inner := ih inside.2
      have outer : (i + 1) * places sizes ≤ size * places sizes :=
        Nat.mul_le_mul_right _ inside.1
      simp only [position, places]
      rw [Nat.add_mul] at outer
      omega

/-- A walk that goes on does so to the next place, and one that ends does so at the last. -/
theorem position_advance? {dims index : List Nat} (inside : InBounds dims index) :
    (∀ index', advance? dims index = some index' →
        InBounds dims index' ∧ position dims index' = position dims index + 1) ∧
      (advance? dims index = none → position dims index + 1 = places dims) := by
  induction dims generalizing index with
  | nil => cases index <;> simp_all [InBounds, advance?, position, places]
  | cons size sizes ih =>
    cases index with
    | nil => exact inside.elim
    | cons i rest =>
      obtain ⟨outer, inner⟩ := inside
      cases moved : advance? sizes rest with
      | some rest' =>
        have next := (ih inner).1 rest' moved
        simp only [advance?, moved, Option.some.injEq, reduceCtorEq, false_implies, and_true]
        rintro _ rfl
        exact ⟨⟨outer, next.1⟩, by simp only [position, next.2]; omega⟩
      | none =>
        have last := (ih inner).2 moved
        simp only [advance?, moved]
        split
        · next room =>
          simp only [Option.some.injEq, reduceCtorEq, false_implies, and_true]
          rintro _ rfl
          refine ⟨⟨room, inBounds_zeros inner.zero_notMem⟩, ?_⟩
          simp only [position, position_zeros, Nat.add_mul]
          omega
        · next full =>
          simp only [reduceCtorEq, false_implies, true_and, forall_const]
          have whole : size = i + 1 := by omega
          simp only [position, places, whole, Nat.add_mul]
          omega

/-- A walk from a place visits it and every later one. -/
theorem length_take {dims index : List Nat} (inside : InBounds dims index) (limit : Nat) :
    (Indices.take limit ⟨dims, some index⟩).length
      = min limit (places dims - position dims index) := by
  induction limit generalizing index with
  | zero => simp [Indices.take]
  | succ limit ih =>
    have room := position_lt inside
    simp only [Indices.take, Indices.step?, Option.map_some, List.length_cons]
    cases moved : advance? dims index with
    | some index' =>
      have next := (position_advance? inside).1 index' moved
      rw [ih next.1, next.2]
      omega
    | none =>
      have last := (position_advance? inside).2 moved
      have ended : (Indices.take limit ⟨dims, none⟩).length = 0 := by
        cases limit <;> simp [Indices.take, Indices.step?]
      rw [ended]
      omega

theorem places_eq_zero {dims : List Nat} (empty : 0 ∈ dims) : places dims = 0 := by
  induction dims with
  | nil => simp at empty
  | cons size sizes ih =>
    rcases List.mem_cons.1 empty with rfl | inner
    · simp [places]
    · simp [places, ih inner]

/-- The walk visits as many multi-indices as an array has places. -/
@[simp] theorem length_indexList (s : Shape) : s.indexList.length = places s.dims := by
  unfold indexList indices
  split
  · next empty =>
    have none_left : places s.dims = 0 := places_eq_zero empty
    simp [none_left, Indices.take]
  · next nonempty =>
    rw [length_take (inBounds_zeros nonempty), position_zeros]
    simp

end Shape

end ModelGraph
