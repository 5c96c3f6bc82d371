import ModelGraph.Node.Id

/-!
# Operators

Operators compute values from the values of other nodes; a sample draws its value from a
distribution.
-/

namespace ModelGraph

/-- An operation on two values. -/
inductive BinaryOp where
  | addition
  | division
  | index
  | matrixMultiplication
  | multiplication
  | power
  deriving DecidableEq, Repr

/-- Every operation on two values once. -/
def BinaryOp.all : List BinaryOp :=
  [.addition, .division, .index, .matrixMultiplication, .multiplication, .power]

/-- The name of an operation. -/
def BinaryOp.name : BinaryOp → String
  | .addition => "Addition"
  | .division => "Division"
  | .index => "Index"
  | .matrixMultiplication => "MatrixMultiplication"
  | .multiplication => "Multiplication"
  | .power => "Power"

/-- The sign of an operation in labels and expressions. -/
def BinaryOp.label : BinaryOp → String
  | .addition => "+"
  | .division => "/"
  | .index => "index"
  | .matrixMultiplication | .multiplication => "*"
  | .power => "**"

/-- An operation on one value. -/
inductive UnaryOp where
  | exp
  | log
  | negate
  | not
  | toReal
  | toTensor
  deriving DecidableEq, Repr

/-- Every operation on one value once. -/
def UnaryOp.all : List UnaryOp :=
  [.exp, .log, .negate, .not, .toReal, .toTensor]

/-- The name of an operation. -/
def UnaryOp.name : UnaryOp → String
  | .exp => "Exp"
  | .log => "Log"
  | .negate => "Negate"
  | .not => "Not"
  | .toReal => "ToReal"
  | .toTensor => "ToTensor"

/-- The sign of an operation in labels and expressions. -/
def UnaryOp.label : UnaryOp → String
  | .exp => "Exp"
  | .log => "Log"
  | .negate => "-"
  | .not => "not"
  | .toReal => "ToReal"
  | .toTensor => "ToTensor"

/-- An operator with its inputs. -/
inductive Operator where
  | ifThenElse (condition consequence alternative : NodeId)
  | binary (op : BinaryOp) (left right : NodeId)
  | unary (op : UnaryOp) (operand : NodeId)
  | sample (distribution : NodeId)
  deriving DecidableEq, Repr

namespace Operator

/-- The nodes an operator works on. -/
def inputs : Operator → List NodeId
  | .ifThenElse condition consequence alternative => [condition, consequence, alternative]
  | .binary _ left right => [left, right]
  | .unary _ operand => [operand]
  | .sample distribution => [distribution]

/-- The names of the inputs. -/
def edges : Operator → List String
  | .ifThenElse .. => ["condition", "consequence", "alternative"]
  | .binary .. => ["left", "right"]
  | .unary .. | .sample _ => ["operand"]

/-- The operator with another node for the input of a name, if there is such an input. -/
def rewire? (input : NodeId) : Operator → (edge : String) → Option Operator
  | .ifThenElse _ consequence alternative, "condition" =>
    some (.ifThenElse input consequence alternative)
  | .ifThenElse condition _ alternative, "consequence" =>
    some (.ifThenElse condition input alternative)
  | .ifThenElse condition consequence _, "alternative" =>
    some (.ifThenElse condition consequence input)
  | .binary op _ right, "left" => some (.binary op input right)
  | .binary op left _, "right" => some (.binary op left input)
  | .unary op _, "operand" => some (.unary op input)
  | .sample _, "operand" => some (.sample input)
  | _, _ => none

/-- The sign of an operator in labels. -/
def label : Operator → String
  | .ifThenElse .. => "if"
  | .binary op .. => op.label
  | .unary op _ => op.label
  | .sample _ => "Sample"

theorem length_edges (op : Operator) : op.edges.length = op.inputs.length := by
  cases op <;> rfl

end Operator

end ModelGraph
