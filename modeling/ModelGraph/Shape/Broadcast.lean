import ModelGraph.Shape.Basic

/-!
# Combining shapes

Elementwise operations align two shapes at their innermost axes and stretch axes of size
one.  Matrix products ask for two matrices that share their inner dimension.
-/

namespace ModelGraph

namespace Shape

/-- The common size of two aligned axes, if one of them can be stretched to the other. -/
def stretch? (a b : Nat) : Option Nat :=
  if a = b then some a
  else if a = 1 then some b
  else if b = 1 then some a
  else none

/-- Stretches two lists of axes, both innermost first; axes that one side lacks are kept. -/
def stretchAll? : List Nat → List Nat → Option (List Nat)
  | [], bs => some bs
  | as, [] => some as
  | a :: as, b :: bs =>
    match stretch? a b, stretchAll? as bs with
    | some d, some ds => some (d :: ds)
    | _, _ => none

/-- The shape that both shapes can be stretched to, aligned at their innermost axes. -/
def broadcast? (s t : Shape) : Option Shape :=
  (stretchAll? s.dims.reverse t.dims.reverse).map fun dims => ⟨dims.reverse⟩

/-- The shape of a product of matrices. -/
def matmul? (s t : Shape) : Option Shape :=
  match s.dims, t.dims with
  | [m, k], [k', n] => if k = k' then some ⟨[m, n]⟩ else none
  | _, _ => none

end Shape

end ModelGraph
