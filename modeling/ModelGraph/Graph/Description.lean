import ModelGraph.Graph.Descent

/-!
# Descriptions

The expression that a node stands for, written out down to the constants.
-/

namespace ModelGraph

namespace Graph

/-- The expression of an operator, given the expressions of its inputs. -/
def operatorDescription (describe : NodeId → Except Error String) :
    Operator → Except Error String
  | .ifThenElse condition consequence alternative => do
    let condition ← describe condition
    let consequence ← describe consequence
    let alternative ← describe alternative
    return s!"(if {condition} then {consequence} else {alternative})"
  | .binary .index left right => do
    let left ← describe left
    let right ← describe right
    return s!"{left}[{right}]"
  | .binary op left right => do
    let left ← describe left
    let right ← describe right
    return s!"({left}{op.label}{right})"
  | .unary .negate operand => return "-" ++ (← describe operand)
  | .unary .not operand => return "not " ++ (← describe operand)
  | .unary op operand => return op.label ++ "(" ++ (← describe operand) ++ ")"
  | .sample distribution => return "Sample(" ++ (← describe distribution) ++ ")"

/-- The expression of an entry of a map. -/
def entryDescription (describe : NodeId → Except Error String) (entry : NodeId × NodeId) :
    Except Error String := do
  let key ← describe entry.1
  let value ← describe entry.2
  return s!"{key}: {value}"

/-- The expression of a node, given the expressions of its inputs. -/
def descriptionRule : Rule String := fun _ node describe =>
  match node with
  | .constant value => value.text
  | .distribution d => do
    let arguments ← d.parameters.inputs.mapM describe
    return d.family.name ++ "(" ++ ",".intercalate arguments ++ ")"
  | .operator op => operatorDescription describe op
  | .map entries => do
    let entries ← entries.mapM (entryDescription describe)
    return "map\x7b" ++ ", ".intercalate entries ++ "\x7d"
  | .observation observed value => return (← describe observed) ++ "=" ++ (← value.text)
  | .query queried => return "Query(" ++ (← describe queried) ++ ")"

/-- The expression that a node stands for. -/
def describe (g : Graph) (id : NodeId) : Except Error String :=
  g.ask descriptionRule id

/-- The text of a node without its inputs. -/
def label (g : Graph) (id : NodeId) : Except Error String := do
  (← g.node id).label

end Graph

end ModelGraph
