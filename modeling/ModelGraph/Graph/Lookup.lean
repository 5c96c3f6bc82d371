import ModelGraph.Graph.Basic

/-!
# Map entries

An entry of a map is found by the contents of its key.  Keys are constants; entries are
tried in order.
-/

namespace ModelGraph

namespace Graph

/-- The value node of the first entry whose key has the given contents. -/
def findEntry (g : Graph) (map : NodeId) (key : Value) :
    List (NodeId × NodeId) → Except Error NodeId
  | [] => do throw (.keyNotFound map (← key.text))
  | (keyNode, valueNode) :: rest => do
    match ← g.node keyNode with
    | .constant candidate =>
      if candidate.sameContents key then return valueNode else g.findEntry map key rest
    | _ => throw (.nonConstantKey map keyNode)

/-- The node that gives the value under a key of a map. -/
def lookup (g : Graph) (map : NodeId) (key : Value) : Except Error NodeId := do
  match ← g.node map with
  | .map entries => g.findEntry map key entries
  | _ => throw (.notAMap map)

/-- The node that gives the value under a key that is a constant node. -/
def lookupNode (g : Graph) (map key : NodeId) : Except Error NodeId := do
  match ← g.node key with
  | .constant value => g.lookup map value
  | _ => throw (.nonConstantKey map key)

end Graph

end ModelGraph
