import ModelGraph.Graph.Typing

/-!
# Shapes of nodes

The shape of the value of a node, found without computing the value.  Elementwise operators
stretch their operands to a common shape; conditionals and conversions to a real are single
numbers.
-/

namespace ModelGraph

namespace Graph

/-- The shape of the samples of a distribution, given the shapes of its parameters. -/
def distributionShapeFrom (shapeOf : NodeId → Except Error Shape) (id : NodeId)
    (d : Distribution) : Except Error Shape :=
  match d.typesFixed, d.parameters with
  | true, .bernoulli .. | true, .binomial .. => return .scalar
  | _, .bernoulli probability _ => shapeOf probability
  | _, .beta a _ => shapeOf a
  | _, .binomial count probability _ => do (← shapeOf count).broadcast (← shapeOf probability)
  | _, .categorical probability _ => do
    let shape ← shapeOf probability
    match shape.withoutLast? with
    | some leading => return leading
    | none => throw (.invalidParameterShape id "probability" shape)
  | _, .dirichlet concentration => shapeOf concentration
  | _, .halfCauchy scale => shapeOf scale
  | _, .normal mu _ => shapeOf mu
  | _, .studentT df _ _ => shapeOf df
  | _, .uniform low _ => shapeOf low

/-- The shape of an operator, given the shapes of the nodes below it. -/
def operatorShapeFrom (shapeOf : NodeId → Except Error Shape) : Operator → Except Error Shape
  | .ifThenElse .. => return .scalar
  | .binary .index left _ => shapeOf left
  | .binary .matrixMultiplication left right => do (← shapeOf left).matmul (← shapeOf right)
  | .binary _ left right => do (← shapeOf left).broadcast (← shapeOf right)
  | .unary .toReal _ => return .scalar
  | .unary _ operand => shapeOf operand
  | .sample distribution => shapeOf distribution

/-- The shape of a node, given the shapes of the nodes below it.  A map has the shape of its
first value. -/
def shapeRule : Rule Shape := fun id node shapeOf =>
  match node with
  | .constant value | .observation _ value => return value.shape
  | .distribution d => distributionShapeFrom shapeOf id d
  | .operator op => operatorShapeFrom shapeOf op
  | .map [] => throw .emptyMap
  | .map (first :: _) => shapeOf first.2
  | .query queried => shapeOf queried

/-- The shape of the value of a node. -/
def shapeOf (g : Graph) (id : NodeId) : Except Error Shape :=
  g.ask shapeRule id

end Graph

end ModelGraph
