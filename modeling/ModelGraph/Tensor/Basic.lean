import ModelGraph.Digest
import ModelGraph.Error
import ModelGraph.Shape.Indices

/-!
# Tensors

A tensor is a shape together with reals for its places, in row-major order.  The number of reals
is compared with the dimensions in words only: if words cannot count the places, a tensor may
hold fewer reals than it has places, and an element that it lacks cannot be read.
-/

namespace ModelGraph

/-- An array of reals. -/
structure Tensor where
  /-- The dimensions. -/
  shape : Shape
  /-- The elements, the innermost axis fastest. -/
  data : Array Float
  /-- In words, there is one element for every place. -/
  size_data : Shape.wrap data.size = shape.elementCount

namespace Tensor

/-- Two tensors are alike when their shapes are equal and their elements compare equal one
by one. -/
instance : BEq Tensor where
  beq a b := a.shape == b.shape && a.data == b.data

/-- The tensor with the given elements, if their number fits the shape. -/
def ofArray (shape : Shape) (data : Array Float) : Except Error Tensor :=
  if agree : Shape.wrap data.size = shape.elementCount then
    .ok ⟨shape, data, agree⟩
  else
    .error (.dataLength shape data.size)

/-- A single number as a tensor without axes. -/
def scalar (x : Float) : Tensor :=
  ⟨.scalar, #[x], rfl⟩

/-- A row of numbers as a tensor with one axis. -/
def vector (data : Array Float) : Tensor :=
  ⟨⟨[data.size]⟩, data, by simp⟩

theorem length_of_mapM_eq_ok {ε α β : Type} {f : α → Except ε β} {items : List α}
    {results : List β} (mapped : items.mapM f = .ok results) : results.length = items.length := by
  induction items generalizing results with
  | nil =>
    cases mapped
    rfl
  | cons item items ih =>
    rw [List.mapM_cons] at mapped
    cases here : f item with
    | error e => simp [here, bind, Except.bind] at mapped
    | ok b =>
      cases later : items.mapM f with
      | error e => simp [here, later, bind, Except.bind] at mapped
      | ok bs =>
        simp only [here, later, bind, Except.bind, pure, Except.pure, Except.ok.injEq] at mapped
        rw [← mapped, List.length_cons, List.length_cons, ih later]

/-- The tensor whose element at each multi-index is the answer of a function there. -/
def generate (shape : Shape) (element : List Nat → Except Error Float) : Except Error Tensor :=
  match made : Shape.Indices.mapM element (Shape.places shape.dims) shape.indices with
  | .ok data =>
    .ok ⟨shape, data.toArray, by
      rw [Shape.Indices.mapM_eq] at made
      have counted : data.length = Shape.places shape.dims :=
        (length_of_mapM_eq_ok made).trans shape.length_indexList
      rw [List.size_toArray, counted, shape.elementCount_eq]⟩
  | .error e => .error e

/-- The element at a place in storage. -/
def read (t : Tensor) (place : Nat) : Except Error Float :=
  match t.data[place]? with
  | some x => .ok x
  | none => .error (.crash (.outside place t.data.size))

/-- The element at a multi-index; outermost axes that the tensor lacks are ignored and axes
of size one are read at zero. -/
def get (t : Tensor) (index : List Nat) : Except Error Float :=
  t.read (t.shape.offset index)

/-- The number in a tensor of one element. -/
def item (t : Tensor) : Except Error Float :=
  match t.data.toList with
  | [x] => .ok x
  | _ => .error (.notScalar t.shape)

/-- Applies a function to every element. -/
def map (t : Tensor) (f : Float → Float) : Tensor :=
  ⟨t.shape, t.data.map f, by simp [t.size_data]⟩

/-- What the digest of a tensor is computed from. -/
def contentBytes (t : Tensor) : List UInt8 :=
  Digest.arrayBytes t.shape.dims t.data.toList

/-- The digest of shape and elements. -/
def digest (t : Tensor) : Digest :=
  .ofBytes t.contentBytes

/-- A tensor has an element for every place that words can count. -/
theorem places_le_size (t : Tensor) (counted : t.shape.IsCounted) :
    Shape.places t.shape.dims ≤ t.data.size := by
  rw [← counted.elementCount_eq, ← t.size_data]
  exact Nat.mod_le _ _

@[simp] theorem shape_scalar (x : Float) : (scalar x).shape = .scalar := rfl

@[simp] theorem data_scalar (x : Float) : (scalar x).data = #[x] := rfl

@[simp] theorem shape_vector (data : Array Float) : (vector data).shape = ⟨[data.size]⟩ := rfl

theorem generate_eq_ok_iff {shape : Shape} {element : List Nat → Except Error Float}
    {t : Tensor} :
    generate shape element = .ok t ↔
      t.shape = shape ∧ shape.indexList.mapM element = .ok t.data.toList := by
  rw [Shape.indexList, ← Shape.Indices.mapM_eq]
  unfold generate
  split
  · next data made =>
    constructor
    · intro same
      obtain rfl := Except.ok.inj same
      exact ⟨rfl, made⟩
    · rintro ⟨rfl, mapped⟩
      obtain rfl := Except.ok.inj (made.symm.trans mapped)
      rfl
  · next made => simp [made]

theorem generate_eq_error_iff {shape : Shape} {element : List Nat → Except Error Float}
    {e : Error} :
    generate shape element = .error e ↔ shape.indexList.mapM element = .error e := by
  rw [Shape.indexList, ← Shape.Indices.mapM_eq]
  unfold generate
  split
  · next made => simp [made]
  · next made => simp [made]

@[simp] theorem shape_map (t : Tensor) (f : Float → Float) : (t.map f).shape = t.shape := rfl

@[simp] theorem data_map (t : Tensor) (f : Float → Float) : (t.map f).data = t.data.map f := rfl

end Tensor

end ModelGraph
