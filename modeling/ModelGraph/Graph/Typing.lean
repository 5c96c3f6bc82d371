import ModelGraph.Graph.Descent
import ModelGraph.NodeType

/-!
# Typing

The type of a node follows from its own sort and the types of its inputs.  A disagreement
of two inputs makes a malformed type and no failure.
-/

namespace ModelGraph

/-- The kind of the samples of a family, where the family alone determines it. -/
def Family.sampleKind? : Family → Option Refinement
  | .bernoulli => some .boolean
  | .beta => some .probability
  | .binomial => some .natural
  | .halfCauchy => some .positiveReal
  | .normal | .studentT => some .real
  | .categorical | .dirichlet | .uniform => none

/-- The parameter whose type and shape the samples take on.  The samples of a binomial
distribution take on those of none. -/
def Parameters.leading? : Parameters → Option NodeId
  | .bernoulli probability _ | .categorical probability _ => some probability
  | .beta a _ => some a
  | .binomial .. => none
  | .dirichlet concentration => some concentration
  | .halfCauchy scale => some scale
  | .normal mu _ => some mu
  | .studentT df _ _ => some df
  | .uniform low _ => some low

/-- The kind of the samples, if it does not follow a parameter. -/
def Distribution.fixedKind? (d : Distribution) : Option Refinement :=
  if d.typesFixed then d.family.sampleKind? else none

namespace Graph

/-- The type of the samples of a distribution, given the types of its parameters. -/
def sampleTypeFrom (g : Graph) (typeOf : NodeId → Except Error NodeType) (id : NodeId) :
    Except Error NodeType := do
  match ← g.node id with
  | .distribution d =>
    match d.fixedKind?, d.parameters.leading? with
    | some kind, _ => return .value kind
    | none, some parameter => typeOf parameter
    | none, none => return .value .tensor
  | _ => throw (.notADistribution id)

/-- The common type of the values of a map, unified from the first entry on. -/
def entriesTypeFrom (typeOf : NodeId → Except Error NodeType) :
    List (NodeId × NodeId) → Except Error NodeType
  | [] => .error .emptyMap
  | first :: rest => do
    rest.foldlM (fun type entry => return type.unify (← typeOf entry.2)) (← typeOf first.2)

/-- The common type of two nodes. -/
def unifiedTypeFrom (typeOf : NodeId → Except Error NodeType) (left right : NodeId) :
    Except Error NodeType := do
  return (← typeOf left).unify (← typeOf right)

/-- The type of an operator, given the types of the nodes below it. -/
def operatorTypeFrom (g : Graph) (typeOf : NodeId → Except Error NodeType) :
    Operator → Except Error NodeType
  | .ifThenElse _ consequence _ => typeOf consequence
  | .binary .index left right => do
    match ← g.node left with
    | .map entries => entriesTypeFrom typeOf entries
    | _ => unifiedTypeFrom typeOf left right
  | .binary _ left right => unifiedTypeFrom typeOf left right
  | .unary .not _ => return .value .boolean
  | .unary .toReal _ => return .value .real
  | .unary .toTensor _ => return .value .tensor
  | .unary _ operand => typeOf operand
  | .sample distribution => g.sampleTypeFrom typeOf distribution

/-- The type of a node, given the types of the nodes below it. -/
def typeRule (g : Graph) : Rule NodeType := fun _ node typeOf =>
  match node with
  | .constant value | .observation _ value => return .value value.refinement
  | .distribution d => return .distribution d.family
  | .operator op => g.operatorTypeFrom typeOf op
  | .map _ => return .map
  | .query queried => typeOf queried

/-- The type of the value of a node. -/
def typeOf (g : Graph) (id : NodeId) : Except Error NodeType :=
  g.ask g.typeRule id

/-- The type of the samples of a distribution. -/
def sampleTypeOf (g : Graph) (id : NodeId) : Except Error NodeType :=
  g.sampleTypeFrom g.typeOf id

end Graph

end ModelGraph
