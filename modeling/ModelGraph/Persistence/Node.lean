import ModelGraph.Node.Basic
import ModelGraph.Persistence.Value

/-!
# Persisted nodes

The data form of nodes and of what they are made of.  The inputs of distributions and
operators are parts named for their edges; whether a probability is given by its log-odds
is a part of its own.
-/

namespace ModelGraph

/-- Writes a node number. -/
def NodeId.toJson (id : NodeId) : Json :=
  .ofNat id.index

/-- Reads a node number. -/
def NodeId.ofJson (json : Json) : Read NodeId :=
  NodeId.mk <$> json.toCount

/-- Reads an input. -/
def Json.Parts.input (parts : Json.Parts) (edge : String) : Read NodeId :=
  parts.read edge NodeId.ofJson

/-- Reads whether a probability is given by its log-odds. -/
def Json.Parts.logits (parts : Json.Parts) : Read Bool :=
  parts.read "is_logits" Json.toBool

/-- The family with a name. -/
def Family.ofName? (name : String) : Option Family :=
  Family.all.find? fun family => family.name = name

/-- The parameters of a distribution as parts of a record. -/
def Parameters.toParts (p : Parameters) : Json.Parts :=
  p.edges.zip (p.inputs.map NodeId.toJson)
    ++ (p.logits?.map fun logits => ("is_logits", Json.bool logits)).toList

/-- Reads the parameters of a family. -/
def Parameters.ofParts (parts : Json.Parts) : Family → Read Parameters
  | .bernoulli => return .bernoulli (← parts.input "probability") (← parts.logits)
  | .beta => return .beta (← parts.input "alpha") (← parts.input "beta")
  | .binomial =>
    return .binomial (← parts.input "count") (← parts.input "probability") (← parts.logits)
  | .categorical => return .categorical (← parts.input "probability") (← parts.logits)
  | .dirichlet => return .dirichlet (← parts.input "concentration")
  | .halfCauchy => return .halfCauchy (← parts.input "scale")
  | .normal => return .normal (← parts.input "mu") (← parts.input "sigma")
  | .studentT =>
    return .studentT (← parts.input "df") (← parts.input "loc") (← parts.input "scale")
  | .uniform => return .uniform (← parts.input "low") (← parts.input "high")

/-- Writes a family with its parameters. -/
def Parameters.toJson (p : Parameters) : Json :=
  .object [(p.family.name, .object p.toParts)]

/-- Reads a family with its parameters. -/
def Parameters.ofJson (json : Json) : Read Parameters := do
  let choice ← json.toChoice
  let family ← Json.Parts.need (Family.ofName? choice.name)
  choice.parts fun parts => Parameters.ofParts parts family

/-- Writes a distribution. -/
def Distribution.toJson (d : Distribution) : Json :=
  .object [("kind", d.parameters.toJson), ("types_fixed", .bool d.typesFixed)]

/-- Reads a distribution. -/
def Distribution.ofJson : Json → Read Distribution :=
  Json.toRecord ["kind", "types_fixed"] fun parts => do
    return ⟨← parts.read "kind" Parameters.ofJson, ← parts.read "types_fixed" Json.toBool⟩

/-- Reads an operation on two values. -/
def BinaryOp.ofJson (json : Json) : Read BinaryOp := do
  let name ← json.toName
  Json.Parts.need (BinaryOp.all.find? fun op => op.name = name)

/-- Reads an operation on one value. -/
def UnaryOp.ofJson (json : Json) : Read UnaryOp := do
  let name ← json.toName
  Json.Parts.need (UnaryOp.all.find? fun op => op.name = name)

/-- Writes an operator. -/
def Operator.toJson : Operator → Json
  | .ifThenElse condition consequence alternative =>
    .object [("IfThenElse", .object [("condition", condition.toJson),
      ("consequence", consequence.toJson), ("alternative", alternative.toJson)])]
  | .binary op left right =>
    .object [("Binary", .object [("op", .text op.name), ("left", left.toJson),
      ("right", right.toJson)])]
  | .unary op operand =>
    .object [("Unary", .object [("op", .text op.name), ("operand", operand.toJson)])]
  | .sample distribution =>
    .object [("Sample", .object [("distribution", distribution.toJson)])]

/-- Reads an operator. -/
def Operator.ofJson (json : Json) : Read Operator := do
  let choice ← json.toChoice
  match choice.name with
  | "IfThenElse" => choice.parts fun parts => do
    return .ifThenElse (← parts.input "condition") (← parts.input "consequence")
      (← parts.input "alternative")
  | "Binary" => choice.parts fun parts => do
    return .binary (← parts.read "op" BinaryOp.ofJson) (← parts.input "left")
      (← parts.input "right")
  | "Unary" => choice.parts fun parts => do
    return .unary (← parts.read "op" UnaryOp.ofJson) (← parts.input "operand")
  | "Sample" => choice.parts fun parts => do
    return .sample (← parts.input "distribution")
  | _ => throw .form

/-- Writes an entry of a map. -/
def Node.entryToJson (entry : NodeId × NodeId) : Json :=
  .array [entry.1.toJson, entry.2.toJson]

/-- Writes a node. -/
def Node.toJson : Node → Json
  | .constant value => .object [("Constant", value.toJson)]
  | .distribution d => .object [("Distribution", d.toJson)]
  | .operator op => .object [("Operator", op.toJson)]
  | .map entries =>
    .object [("Map", .object [("entries", .array (entries.map entryToJson))])]
  | .observation observed value =>
    .object [("Observation", .object [("observed", observed.toJson), ("value", value.toJson)])]
  | .query queried => .object [("Query", .object [("operator", queried.toJson)])]

/-- Reads a map. -/
def Node.mapOfJson : Json → Read Node :=
  Json.toRecord ["entries"] fun parts => do
    return .map (← parts.read "entries" (Json.toList (Json.toPair NodeId.ofJson NodeId.ofJson)))

/-- Reads an observation.  A value that is refused is reported even if the observed node is
missing. -/
def Node.observationOfJson : Json → Read Node :=
  Json.toRecord ["observed", "value"] fun parts => do
    let observed ← parts.read? "observed" NodeId.ofJson
    let value ← parts.read? "value" Value.ofJson
    return .observation (← Json.Parts.need observed) (← Json.Parts.need value)

/-- Reads a query. -/
def Node.queryOfJson : Json → Read Node :=
  Json.toRecord ["operator"] fun parts => do
    return .query (← parts.input "operator")

/-- Reads a node. -/
def Node.ofJson (json : Json) : Read Node := do
  let choice ← json.toChoice
  match choice.name with
  | "Constant" => choice.read fun content => .constant <$> Value.ofJson content
  | "Distribution" => choice.read fun content => .distribution <$> Distribution.ofJson content
  | "Operator" => choice.read fun content => .operator <$> Operator.ofJson content
  | "Map" => choice.read mapOfJson
  | "Observation" => choice.read observationOfJson
  | "Query" => choice.read queryOfJson
  | _ => throw .form

end ModelGraph
