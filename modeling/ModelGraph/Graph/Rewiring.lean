import ModelGraph.Graph.Reachability

/-!
# Rewiring graphs

An input of a node can be replaced by any node that does not depend on it and that its
place admits.  The types of distributions can be fixed, one by one or all at once.
-/

namespace ModelGraph

namespace Graph

/-- Replaces the input at the end of an edge. -/
def setInput (g : Graph) (id : NodeId) (edge : String) (input : NodeId) :
    Except Error Graph := do
  g.require input
  if ← g.reaches input id then
    throw (.wouldCycle id edge input)
  let node ← g.node id
  match node.rewire? input edge with
  | none => throw (.unknownEdge id edge)
  | some rewired => do
    g.check rewired
    return g.replace id rewired

/-- Says whether the samples of a distribution follow its family alone. -/
def setTypesFixed (g : Graph) (id : NodeId) (fixed : Bool) : Except Error Graph := do
  match ← g.node id with
  | .distribution d => return g.replace id (.distribution { d with typesFixed := fixed })
  | _ => throw (.notADistribution id)

/-- Fixes the types of a distribution and leaves other nodes alone. -/
def fixTypes : Node → Node
  | .distribution d => .distribution { d with typesFixed := true }
  | node => node

/-- Fixes the types of all distributions. -/
def fixAllTypes (g : Graph) : Graph :=
  { g with nodes := g.nodes.map fixTypes }

end Graph

end ModelGraph
