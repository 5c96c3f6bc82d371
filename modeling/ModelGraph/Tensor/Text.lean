import ModelGraph.Decimal.Layout
import ModelGraph.Steps
import ModelGraph.Tensor.Basic

/-!
# Tensor text

A tensor is written as nested bracketed rows, each cut out of the elements by its place.  In
labels the rows of an array with two or more axes are separated by a comma and a line break
escape.
-/

namespace ModelGraph

namespace Tensor

/-- The part of an array between two places. -/
def slice (data : List Float) (start stop : Nat) : Except Error (List Float) :=
  if stop < start then
    .error (.crash (.reversed start stop))
  else if data.length < stop then
    .error (.crash (.overrun stop data.length))
  else
    .ok ((data.drop start).take (stop - start))

/-- Writes nested rows.  The separator may depend on the number of axes of what is being
written; an array with no axes is its element. -/
def nest (separator : Nat → String) (element : Float → String) :
    (dims : List Nat) → List Float → Except Error String
  | [], data => return (data.head?.map element).getD ""
  | size :: sizes, data => do
    let length := Shape.count sizes
    let row (i : Nat) : Except Error String := do
      let part ← slice data (Shape.wrap (i * length)) (Shape.wrap ((i + 1) * length))
      nest separator element sizes part
    let rows ← Steps.run row size 0
    return "[" ++ (separator (sizes.length + 1)).intercalate rows ++ "]"

/-- Writes a tensor as nested rows with the given text for each element. -/
def render (t : Tensor) (element : Float → String) : Except Error String :=
  nest (fun _ => ",") element t.shape.dims t.data.toList

/-- Writes a tensor for a node label. -/
def label (t : Tensor) : Except Error String :=
  nest (fun rank => if rank < 2 then "," else ",\\n") Decimal.ofReal t.shape.dims t.data.toList

/-- Writes a tensor as an expression. -/
def text (t : Tensor) : Except Error String :=
  return "tensor(" ++ (← t.render Decimal.ofReal) ++ ")"

end Tensor

end ModelGraph
