import ModelGraph.Emission.Handle
import ModelGraph.Graph.Basic

/-!
# Instructions

An engine is told about a model one instruction at a time: most instructions add a vertex,
observations and queries only point at one.  `Graph.lower` finds the instruction of a node
from the handles of its inputs, so that every way of emitting a node says the same.
-/

namespace ModelGraph

/-- A family of distributions that an engine knows. -/
inductive DistributionTag where
  | bernoulli
  | bernoulliLogit
  | beta
  | binomial
  | halfCauchy
  | normal
  | studentT
  deriving DecidableEq, Repr

/-- The word for a family. -/
def DistributionTag.word : DistributionTag → String
  | .bernoulli => "BERNOULLI"
  | .bernoulliLogit => "BERNOULLI_LOGIT"
  | .beta => "BETA"
  | .binomial => "BINOMIAL"
  | .halfCauchy => "HALF_CAUCHY"
  | .normal => "NORMAL"
  | .studentT => "STUDENT_T"

/-- An operator that an engine knows. -/
inductive OperatorTag where
  | ifThenElse
  | add
  | multiply
  | exp
  | negate
  | sample
  | toReal
  | toTensor
  deriving DecidableEq, Repr

/-- The word for an operator. -/
def OperatorTag.word : OperatorTag → String
  | .ifThenElse => "IF_THEN_ELSE"
  | .add => "ADD"
  | .multiply => "MULTIPLY"
  | .exp => "EXP"
  | .negate => "NEGATE"
  | .sample => "SAMPLE"
  | .toReal => "TO_REAL"
  | .toTensor => "TO_TENSOR"

/-- The word for a kind of value. -/
def Refinement.word : Refinement → String
  | .boolean => "BOOLEAN"
  | .natural => "NATURAL"
  | .probability => "PROBABILITY"
  | .positiveReal => "POS_REAL"
  | .real => "REAL"
  | .tensor => "TENSOR"

/-- A vertex of a model in an engine. -/
inductive Vertex where
  | constant (value : Value)
  | positiveReal (x : Float)
  | probability (x : Float)
  | distribution (tag : DistributionTag) (kind : Refinement) (inputs : List Handle)
  | operator (tag : OperatorTag) (inputs : List Handle)
  deriving BEq

/-- The handles of the inputs of a vertex. -/
def Vertex.inputs : Vertex → List Handle
  | .distribution _ _ inputs | .operator _ inputs => inputs
  | _ => []

/-- What an engine can be told. -/
inductive Instruction where
  /-- Add a vertex. -/
  | add (vertex : Vertex)
  /-- A vertex was seen to have a value. -/
  | observe (vertex : Handle) (value : Value)
  /-- The value of a vertex is asked for. -/
  | query (vertex : Handle)
  deriving BEq

/-- Whether an instruction adds a vertex. -/
def Instruction.addsVertex : Instruction → Bool
  | .add _ => true
  | _ => false

/-- The vertex of a constant; positive reals and probabilities have their own. -/
def Vertex.ofValue : Value → Vertex
  | .positiveReal x => .positiveReal x
  | .probability x => .probability x
  | value => .constant value

/-- The engine's name of a family and the kind of its samples. -/
def Parameters.tag? : Parameters → Option (DistributionTag × Refinement)
  | .bernoulli _ false => some (.bernoulli, .boolean)
  | .bernoulli _ true => some (.bernoulliLogit, .boolean)
  | .beta .. => some (.beta, .probability)
  | .binomial _ _ false => some (.binomial, .natural)
  | .halfCauchy _ => some (.halfCauchy, .positiveReal)
  | .normal .. => some (.normal, .real)
  | .studentT .. => some (.studentT, .real)
  | .binomial _ _ true | .categorical .. | .dirichlet _ | .uniform .. => none

/-- The engine's name of an operation on two values. -/
def BinaryOp.tag? : BinaryOp → Option OperatorTag
  | .addition => some .add
  | .multiplication => some .multiply
  | .division | .index | .matrixMultiplication | .power => none

/-- The engine's name of an operation on one value. -/
def UnaryOp.tag? : UnaryOp → Option OperatorTag
  | .exp => some .exp
  | .negate => some .negate
  | .toReal => some .toReal
  | .toTensor => some .toTensor
  | .log | .not => none

/-- The engine's name of an operator, or what the engine lacks. -/
def Operator.tag : Operator → Except String OperatorTag
  | .ifThenElse .. => .ok .ifThenElse
  | .binary op .. => op.tag?.elim (.error op.name) .ok
  | .unary op _ => op.tag?.elim (.error op.name) .ok
  | .sample _ => .ok .sample

namespace Graph

/-- The instruction of a node, given the handles of its inputs. -/
def lower (g : Graph) (handles : Handles) (id : NodeId) : Except Error Instruction := do
  match ← g.node id with
  | .constant value => return .add (.ofValue value)
  | .distribution d =>
    match d.parameters.tag? with
    | some (tag, kind) =>
      return .add (.distribution tag kind (← handles.resolve d.parameters.inputs))
    | none => throw (.emissionNotImplemented id d.label)
  | .operator op =>
    match op.tag with
    | .ok tag => return .add (.operator tag (← handles.resolve op.inputs))
    | .error what => throw (.emissionNotImplemented id what)
  | .map _ => throw (.emissionNotImplemented id "Map")
  | .observation observed value => return .observe (← handles.get observed) value
  | .query queried => return .query (← handles.get queried)

end Graph

end ModelGraph
