/-!
# Shapes

The shape of an array is the list of its dimensions, outermost first.  The empty list is
the shape of a single number.  Sizes are 64-bit words: where an array has more places than
words can count, what is computed from its dimensions is a remainder.
-/

namespace ModelGraph

/-- The dimensions of an array, outermost first. -/
structure Shape where
  /-- The size of each axis. -/
  dims : List Nat
  deriving DecidableEq, Repr

namespace Shape

/-- The shape of a single number. -/
def scalar : Shape :=
  ⟨[]⟩

instance : Inhabited Shape :=
  ⟨scalar⟩

/-- The number of axes. -/
def rank (s : Shape) : Nat :=
  s.dims.length

/-- Whether the shape has no axis. -/
def isScalar (s : Shape) : Bool :=
  s.dims.isEmpty

/-- The number of places of an array with given axes. -/
def places : (dims : List Nat) → Nat
  | [] => 1
  | size :: sizes => size * places sizes

/-- What a 64-bit word keeps of a size. -/
def wrap (size : Nat) : Nat :=
  size % UInt64.size

/-- The product of sizes, computed in words. -/
def count (sizes : List Nat) : Nat :=
  sizes.foldl (fun product size => wrap (product * size)) 1

/-- The number of elements of an array of this shape, computed in words. -/
def elementCount (s : Shape) : Nat :=
  count s.dims

/-- Words can count the places of an array of this shape. -/
def IsCounted (s : Shape) : Prop :=
  places s.dims < UInt64.size

instance (s : Shape) : Decidable s.IsCounted :=
  inferInstanceAs (Decidable (places s.dims < UInt64.size))

/-- The size of the innermost axis. -/
def last? (s : Shape) : Option Nat :=
  s.dims.getLast?

/-- The shape of the innermost rows' positions: all axes but the last. -/
def withoutLast? (s : Shape) : Option Shape :=
  if s.dims.isEmpty then none else some ⟨s.dims.dropLast⟩

instance : ToString Shape where
  toString s := "[" ++ ", ".intercalate (s.dims.map toString) ++ "]"

/-! ### Sizes in words -/

@[simp] theorem wrap_wrap (n : Nat) : wrap (wrap n) = wrap n :=
  Nat.mod_mod n _

theorem wrap_eq_self {n : Nat} (small : n < UInt64.size) : wrap n = n :=
  Nat.mod_eq_of_lt small

theorem wrap_mul_wrap (m n : Nat) : wrap (m * wrap n) = wrap (m * n) := by
  simp only [wrap, Nat.mul_mod_mod]

theorem foldl_count (sizes : List Nat) (start : Nat) :
    sizes.foldl (fun product size => wrap (product * size)) (wrap start) =
      wrap (start * places sizes) := by
  induction sizes generalizing start with
  | nil => rw [List.foldl_nil, places, Nat.mul_one]
  | cons size sizes ih =>
    rw [List.foldl_cons, Nat.mul_comm, wrap_mul_wrap, ih, places, Nat.mul_comm size,
      Nat.mul_assoc]

/-- Words count the places up to a multiple of their size. -/
theorem count_eq (sizes : List Nat) : count sizes = wrap (places sizes) := by
  have started : (1 : Nat) = wrap 1 := (wrap_eq_self (by decide)).symm
  rw [count, started, foldl_count, Nat.one_mul]

theorem elementCount_eq (s : Shape) : s.elementCount = wrap (places s.dims) :=
  count_eq s.dims

/-- The number of elements is right where words can count the places. -/
theorem IsCounted.elementCount_eq {s : Shape} (counted : s.IsCounted) :
    s.elementCount = places s.dims := by
  rw [Shape.elementCount_eq, wrap_eq_self counted]

theorem isCounted_scalar : scalar.IsCounted := by decide

@[simp] theorem elementCount_vector (n : Nat) : (Shape.mk [n]).elementCount = wrap n := by
  simp [elementCount, count]

end Shape

end ModelGraph
