import ModelGraph.Graph.Lookup
import ModelGraph.Graph.Shapes
import ModelGraph.Value.Operation
import ModelGraph.Value.Support

/-!
# Enumeration

The support of a node lists every value that the node can take.  Operators are applied to
all combinations of the values of their inputs, and results of equal contents are listed
once.  Continuous distributions, binomial distributions and conditionals have no finite
support.
-/

namespace ModelGraph

namespace Graph

/-- The values of the samples of a distribution. -/
def distributionSupport (g : Graph) (id : NodeId) (d : Distribution) : Except Error Support :=
  match d.typesFixed, d.parameters with
  | true, .bernoulli .. => return .listed [.boolean false, .boolean true]
  | _, .bernoulli probability _ => return .outcomes 2 (← g.shapeOf probability)
  | _, .categorical probability _ => do
    let shape ← g.shapeOf probability
    match shape.last?, shape.withoutLast? with
    | some bound, some leading => return .outcomes bound leading
    | _, _ => throw (.invalidParameterShape id "probability" shape)
  | _, _ => throw (.noFiniteSupport id d.family.name)

/-- The results of an operation on every pair of values, the left value varying slowest. -/
def productSupport (operation : Tensor → Tensor → Except Error Tensor)
    (left : Support) (right : List Value) : Except Error ValueSet :=
  let rights := right.map Value.toTensor
  let withRight (l : Tensor) (set : ValueSet) (r : Tensor) : Except Error ValueSet := do
    return set.insert (.tensor (← operation l r))
  left.foldlM (fun set l => rights.foldlM (withRight l.toTensor) set) ∅

/-- The results of an operation on every value. -/
def imageSupport (op : UnaryOp) (operand : Support) : Except Error ValueSet :=
  operand.foldlM (fun set value => do return set.insert (← op.apply value)) ∅

/-- The values of the entries of a map that the values of a key select. -/
def indexSupport (g : Graph) (supportOf : NodeId → Except Error Support) (map : NodeId)
    (keys : Support) : Except Error ValueSet :=
  let withKey (set : ValueSet) (key : Value) : Except Error ValueSet := do
    let entry ← g.lookup map key
    return set.insertMany (← supportOf entry).toList
  keys.foldlM withKey ∅

/-- The values of an operator, given the values of the nodes below it. -/
def operatorSupport (g : Graph) (supportOf : NodeId → Except Error Support) (id : NodeId) :
    Operator → Except Error Support
  | .sample distribution => supportOf distribution
  | .ifThenElse .. => throw (.noFiniteSupport id "IfThenElse")
  | .binary op left right =>
    match op.arithmetic? with
    | some operation => do
      let rights := (← supportOf right).toList
      return .listed (← productSupport operation (← supportOf left) rights).toList
    | none => do
      return .listed (← g.indexSupport supportOf left (← supportOf right)).toList
  | .unary op operand => do
    return .listed (← imageSupport op (← supportOf operand)).toList

/-- The values of a node, given the values of the nodes below it. -/
def supportRule (g : Graph) : Rule Support := fun id node supportOf =>
  match node with
  | .constant value => return .listed [value]
  | .distribution d => g.distributionSupport id d
  | .operator op => g.operatorSupport supportOf id op
  | .map _ | .observation .. | .query _ => return .listed []

/-- The values that a node can take. -/
def supportOf (g : Graph) (id : NodeId) : Except Error Support :=
  g.ask g.supportRule id

/-- The different values that a node can take. -/
def supportSet (g : Graph) (id : NodeId) : Except Error ValueSet :=
  return (← g.supportOf id).toSet

end Graph

end ModelGraph
