import ModelGraph.Node.Operator
import ModelGraph.Value.Basic

/-!
# Operations on values

What the operators compute: unary operations on values, and arithmetic on tensors.
-/

namespace ModelGraph

/-- The arithmetic of a binary operation, with a given function for powers.  Looking up an entry
of a map is none. -/
def BinaryOp.arithmeticWith? (power : Float → Float → Float) :
    BinaryOp → Option (Tensor → Tensor → Except Error Tensor)
  | .addition => some (Tensor.zipWith (· + ·))
  | .division => some (Tensor.zipWith (· / ·))
  | .multiplication => some (Tensor.zipWith (· * ·))
  | .power => some (Tensor.zipWith power)
  | .matrixMultiplication => some Tensor.matmul
  | .index => none

/-- The arithmetic of a binary operation. -/
def BinaryOp.arithmetic? : BinaryOp → Option (Tensor → Tensor → Except Error Tensor) :=
  BinaryOp.arithmeticWith? Float.pow

/-- The truth value opposite to a number: one for zero and zero for anything else. -/
def negation (x : Float) : Float :=
  if x == 0.0 then 1.0 else 0.0

/-- Applies a unary operation.  The opposite of a boolean is a boolean; of other values it
is taken element by element. -/
def UnaryOp.apply (op : UnaryOp) (v : Value) : Except Error Value :=
  match op, v with
  | .exp, v => return .tensor (v.toTensor.map Float.exp)
  | .log, v => return .tensor (v.toTensor.map Float.log)
  | .negate, v => return .tensor (v.toTensor.map fun x => -x)
  | .not, .boolean b => return .boolean !b
  | .not, v => return .tensor (v.toTensor.map negation)
  | .toReal, v => return .real (← v.toReal)
  | .toTensor, v => return .tensor v.toTensor

end ModelGraph
