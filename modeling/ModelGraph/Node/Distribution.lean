import ModelGraph.Node.Id

/-!
# Distributions

A distribution has a family and one input for each parameter of the family.  Once the
types of a distribution are fixed, the family alone says what its samples are.
-/

namespace ModelGraph

/-- A family of probability distributions. -/
inductive Family where
  | bernoulli
  | beta
  | binomial
  | categorical
  | dirichlet
  | halfCauchy
  | normal
  | studentT
  | uniform
  deriving DecidableEq, Repr

namespace Family

/-- Every family once. -/
def all : List Family :=
  [.bernoulli, .beta, .binomial, .categorical, .dirichlet, .halfCauchy, .normal, .studentT,
    .uniform]

/-- The name of a family. -/
def name : Family → String
  | .bernoulli => "Bernoulli"
  | .beta => "Beta"
  | .binomial => "Binomial"
  | .categorical => "Categorical"
  | .dirichlet => "Dirichlet"
  | .halfCauchy => "HalfCauchy"
  | .normal => "Normal"
  | .studentT => "StudentT"
  | .uniform => "Uniform"

instance : ToString Family where
  toString := name

end Family

/-- A family together with the nodes that give its parameters.  Where `logits` is set, the
probability is given by its log-odds. -/
inductive Parameters where
  | bernoulli (probability : NodeId) (logits : Bool)
  | beta (alpha beta : NodeId)
  | binomial (count probability : NodeId) (logits : Bool)
  | categorical (probability : NodeId) (logits : Bool)
  | dirichlet (concentration : NodeId)
  | halfCauchy (scale : NodeId)
  | normal (mu sigma : NodeId)
  | studentT (df loc scale : NodeId)
  | uniform (low high : NodeId)
  deriving DecidableEq, Repr

namespace Parameters

/-- The family that the parameters belong to. -/
def family : Parameters → Family
  | .bernoulli .. => .bernoulli
  | .beta .. => .beta
  | .binomial .. => .binomial
  | .categorical .. => .categorical
  | .dirichlet .. => .dirichlet
  | .halfCauchy .. => .halfCauchy
  | .normal .. => .normal
  | .studentT .. => .studentT
  | .uniform .. => .uniform

/-- Whether the probability is given by its log-odds, in the families that allow both. -/
def logits? : Parameters → Option Bool
  | .bernoulli _ logits | .binomial _ _ logits | .categorical _ logits => some logits
  | _ => none

/-- Whether a probability is given by its log-odds. -/
def isLogits (p : Parameters) : Bool :=
  p.logits?.getD false

/-- The nodes that give the parameters. -/
def inputs : Parameters → List NodeId
  | .bernoulli probability _ => [probability]
  | .beta a b => [a, b]
  | .binomial count probability _ => [count, probability]
  | .categorical probability _ => [probability]
  | .dirichlet concentration => [concentration]
  | .halfCauchy scale => [scale]
  | .normal mu sigma => [mu, sigma]
  | .studentT df loc scale => [df, loc, scale]
  | .uniform low high => [low, high]

/-- The names of the parameters. -/
def edges : Parameters → List String
  | .bernoulli .. | .categorical .. => ["probability"]
  | .beta .. => ["alpha", "beta"]
  | .binomial .. => ["count", "probability"]
  | .dirichlet .. => ["concentration"]
  | .halfCauchy .. => ["scale"]
  | .normal .. => ["mu", "sigma"]
  | .studentT .. => ["df", "loc", "scale"]
  | .uniform .. => ["low", "high"]

/-- The parameters with another node for the parameter of a name, if there is such a parameter. -/
def rewire? (input : NodeId) : Parameters → (edge : String) → Option Parameters
  | .bernoulli _ logits, "probability" => some (.bernoulli input logits)
  | .binomial count _ logits, "probability" => some (.binomial count input logits)
  | .categorical _ logits, "probability" => some (.categorical input logits)
  | .beta _ b, "alpha" => some (.beta input b)
  | .beta a _, "beta" => some (.beta a input)
  | .binomial _ probability logits, "count" => some (.binomial input probability logits)
  | .dirichlet _, "concentration" => some (.dirichlet input)
  | .halfCauchy _, "scale" => some (.halfCauchy input)
  | .studentT df loc _, "scale" => some (.studentT df loc input)
  | .normal _ sigma, "mu" => some (.normal input sigma)
  | .normal mu _, "sigma" => some (.normal mu input)
  | .studentT _ loc scale, "df" => some (.studentT input loc scale)
  | .studentT df _ scale, "loc" => some (.studentT df input scale)
  | .uniform _ high, "low" => some (.uniform input high)
  | .uniform low _, "high" => some (.uniform low input)
  | _, _ => none

theorem length_edges (p : Parameters) : p.edges.length = p.inputs.length := by
  cases p <;> rfl

end Parameters

/-- A distribution. -/
structure Distribution where
  /-- The family and its parameters. -/
  parameters : Parameters
  /-- Whether the kind of a sample no longer follows the parameters. -/
  typesFixed : Bool
  deriving DecidableEq, Repr

namespace Distribution

/-- A distribution whose samples follow its parameters. -/
def ofParameters (parameters : Parameters) : Distribution :=
  ⟨parameters, false⟩

/-- The family of a distribution. -/
def family (d : Distribution) : Family :=
  d.parameters.family

/-- The name of the family, with a remark if log-odds are given. -/
def label (d : Distribution) : String :=
  if d.parameters.isLogits then d.family.name ++ "(logits)" else d.family.name

end Distribution

end ModelGraph
