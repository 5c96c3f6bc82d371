import ModelGraph.Graph.Basic

/-!
# Questions about nodes

Many questions about a node are answered from the answers at nodes below it.
`Graph.descend` does the recursion for all of them.  In a graph without cycles no chain of
inputs is longer than the number of nodes, so that is how far down a question may go.
-/

namespace ModelGraph

namespace Graph

/-- How the answer at a node depends on the answers at other nodes. -/
abbrev Rule (α : Type) :=
  NodeId → Node → (NodeId → Except Error α) → Except Error α

/-- Answers a question at a node, going at most `depth` nodes down. -/
def descend {α : Type} (g : Graph) (rule : Rule α) : (depth : Nat) → NodeId → Except Error α
  | 0, id => do
    g.require id
    throw (.depthExceeded id)
  | depth + 1, id => do
    rule id (← g.node id) (g.descend rule depth)

/-- Answers a question at a node. -/
def ask {α : Type} (g : Graph) (rule : Rule α) (id : NodeId) : Except Error α :=
  g.descend rule g.size id

end Graph

end ModelGraph
