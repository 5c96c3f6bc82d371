import ModelGraph.Graph.Order
import ModelGraph.Persistence.Node

/-!
# Persisted graphs

The data form of a graph is the list of its nodes.  What is read is a graph only if every
node fits and the nodes can be ordered.
-/

namespace ModelGraph

namespace Graph

/-- Writes a graph. -/
def toJson (g : Graph) : Json :=
  .object [("nodes", .array (g.nodes.toList.map Node.toJson))]

/-- The graph of a list of nodes, as a matter of reading. -/
def assemble (nodes : List Node) : Read Graph :=
  (Graph.ofNodes nodes).mapError .invalid

/-- Reads a graph. -/
def ofJson (json : Json) : Read Graph := do
  assemble (← json.toRecord ["nodes"] fun parts => parts.read "nodes" (Json.toList Node.ofJson))

end Graph

end ModelGraph
