import ModelGraph.Steps
import ModelGraph.Tensor.Basic

/-!
# Tensor arithmetic

Elementwise operations stretch both operands to a common shape; the matrix product sums
its terms from left to right.
-/

namespace ModelGraph

namespace Tensor

/-- Combines two tensors element by element. -/
def zipWith (f : Float → Float → Float) (a b : Tensor) : Except Error Tensor := do
  let shape ← a.shape.broadcast b.shape
  generate shape fun index => do
    return f (← a.get index) (← b.get index)

/-- The sum of a list of reals from left to right; the empty sum is the negative zero,
which changes no number that is added to it. -/
def sum (terms : List Float) : Float :=
  terms.foldl (· + ·) (-0.0)

/-- One element of a product of matrices with `inner` columns on the left and `columns` columns on
the right. -/
def dot (a b : Tensor) (inner columns row column : Nat) : Except Error Float := do
  let term (k : Nat) : Except Error Float := do
    return (← a.read (Shape.wrap (row * inner + k))) *
      (← b.read (Shape.wrap (k * columns + column)))
  return sum (← Steps.run term inner 0)

/-- The element of a product of matrices at a multi-index. -/
def dotAt (a b : Tensor) (inner columns : Nat) : (index : List Nat) → Except Error Float
  | [row, column] => dot a b inner columns row column
  | _ => return 0.0

/-- The product of two matrices. -/
def matmul (a b : Tensor) : Except Error Tensor := do
  let shape ← a.shape.matmul b.shape
  generate shape (dotAt a b (a.shape.last?.getD 0) (b.shape.last?.getD 0))

end Tensor

end ModelGraph
