import ModelGraph.Graph.Basic

/-!
# Drawings

The drawing of a graph in the DOT language: a line for each node with its label, and a line
for each input with the name of its edge, leading from a node to its input.
-/

namespace ModelGraph

namespace Graph

/-- Puts a backslash before every double quote. -/
def escapeQuotes (s : String) : String :=
  String.ofList (s.toList.flatMap fun c => if c = '"' then ['\\', '"'] else [c])

/-- The line of a node with a label. -/
def nodeLine (id : NodeId) (label : String) : String :=
  s!"  {id}[label=\"" ++ escapeQuotes label ++ "\"];\n"

/-- The line of an input. -/
def edgeLine (id input : NodeId) (edge : String) : String :=
  s!"  {id} -> {input}[label=\"" ++ escapeQuotes edge ++ "\"];\n"

/-- The nodes with their numbers. -/
def numbered (g : Graph) : List (NodeId × Node) :=
  g.ids.zip g.nodes.toList

/-- The lines of the inputs of a node. -/
def edgeLines (id : NodeId) (node : Node) : List String :=
  (node.inputs.zip node.edges).map fun (input, edge) => edgeLine id input edge

/-- The drawing of a graph. -/
def toDot (g : Graph) : Except Error String := do
  let nodeLines ← g.numbered.mapM fun (id, node) => do
    return nodeLine id (← node.label)
  let edgeLines := g.numbered.flatMap fun (id, node) => edgeLines id node
  return "digraph \"graph\" \x7b\n" ++ String.join nodeLines ++ String.join edgeLines ++ "\x7d\n"

end Graph

end ModelGraph
