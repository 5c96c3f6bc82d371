import ModelGraph.Node.Distribution
import ModelGraph.Node.Operator
import ModelGraph.Numeral
import ModelGraph.Value.Basic

/-!
# Nodes

A node of a model graph lists its inputs in a fixed order and has a name for the edge to
each of them.  `Node.rewire?` replaces the input at the end of an edge.
-/

namespace ModelGraph

/-- A node of a model graph. -/
inductive Node where
  | constant (value : Value)
  | distribution (d : Distribution)
  | operator (op : Operator)
  /-- A finite map; each entry is a key and the node that gives its value. -/
  | map (entries : List (NodeId × NodeId))
  /-- The statement that a sample was seen to have a value. -/
  | observation (observed : NodeId) (value : Value)
  /-- The wish to know the value of an operator. -/
  | query (queried : NodeId)
  deriving BEq

/-- A sort of node. -/
inductive Category where
  | constant
  | distribution
  | operator
  | map
  | marker
  deriving DecidableEq, Repr

namespace Node

/-- The sort of a node; observations and queries are markers. -/
def category : Node → Category
  | .constant _ => .constant
  | .distribution _ => .distribution
  | .operator _ => .operator
  | .map _ => .map
  | .observation .. | .query _ => .marker

/-- Whether a node only says something about another one. -/
def isMarker (node : Node) : Bool :=
  node.category == .marker

/-- The inputs of a node; those of a map are each key followed by its value. -/
def inputs : Node → List NodeId
  | .constant _ => []
  | .distribution d => d.parameters.inputs
  | .operator op => op.inputs
  | .map entries => entries.flatMap fun entry => [entry.1, entry.2]
  | .observation observed _ => [observed]
  | .query queried => [queried]

/-- The names of the edges to the inputs; those of a map are numbered. -/
def edges : Node → List String
  | .constant _ => []
  | .distribution d => d.parameters.edges
  | .operator op => op.edges
  | .map entries => (List.range (2 * entries.length)).map toString
  | .observation .. => ["operand"]
  | .query _ => ["operator"]

/-- The text of a node without its inputs. -/
def label : Node → Except Error String
  | .constant value => value.text
  | .distribution d => return d.label
  | .operator op => return op.label
  | .map _ => return "map"
  | .observation _ value => return "Observation " ++ (← value.text)
  | .query _ => return "Query"

/-- The entries of a map with another node at the end of an edge, if there is such an edge.  Edges
are found by number, however the number is written; an even one leads to a key. -/
def rewireEntries? (input : NodeId) (entries : List (NodeId × NodeId)) (edge : String) :
    Option (List (NodeId × NodeId)) := do
  let position ← Numeral.readSigned? edge.toList
  let (key, value) ← entries[position / 2]?
  return entries.set (position / 2) (if position % 2 = 0 then (input, value) else (key, input))

/-- The node with another input at the end of an edge, if it has such an edge. -/
def rewire? (input : NodeId) (node : Node) (edge : String) : Option Node :=
  match node with
  | .constant _ => none
  | .distribution d => do
    return .distribution { d with parameters := ← d.parameters.rewire? input edge }
  | .operator op => .operator <$> op.rewire? input edge
  | .map entries => .map <$> rewireEntries? input entries edge
  | .observation _ value => if edge = "operand" then some (.observation input value) else none
  | .query _ => if edge = "operator" then some (.query input) else none

theorem length_edges (node : Node) : node.edges.length = node.inputs.length := by
  cases node with
  | distribution d => exact d.parameters.length_edges
  | operator op => exact op.length_edges
  | map entries =>
    induction entries with
    | nil => rfl
    | cons entry entries ih =>
      simp only [edges, inputs, List.length_map, List.length_range, List.flatMap_cons,
        List.length_append, List.length_cons, List.length_nil] at ih ⊢
      omega
  | _ => rfl

end Node

end ModelGraph
