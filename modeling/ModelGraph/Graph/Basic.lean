import ModelGraph.Node.Basic

/-!
# Model graphs

A graph is a list of nodes that refer to each other by number.  `Graph.check` says which
nodes may be part of a graph: inputs exist, distributions feed samples and nothing else,
observations are of samples, queries are of operators, and markers are no inputs at all.
-/

namespace ModelGraph

/-- A probabilistic model. -/
structure Graph where
  /-- The nodes in the order of their numbers. -/
  nodes : Array Node := #[]
  deriving BEq

namespace Graph

/-- The graph without nodes. -/
def empty : Graph := {}

instance : EmptyCollection Graph :=
  ⟨empty⟩

/-- The number of nodes. -/
def size (g : Graph) : Nat :=
  g.nodes.size

/-- Whether there is no node. -/
def isEmpty (g : Graph) : Bool :=
  g.nodes.isEmpty

/-- The numbers of all nodes, ascending. -/
def ids (g : Graph) : List NodeId :=
  (List.range g.size).map NodeId.mk

/-- The node with a number. -/
def node (g : Graph) (id : NodeId) : Except Error Node :=
  match g.nodes[id.index]? with
  | some node => .ok node
  | none => .error (.unknownNode id)

/-- Insists that a node exists. -/
def require (g : Graph) (id : NodeId) : Except Error Unit := do
  let _ ← g.node id

/-- Insists that a node can be drawn from. -/
def requireDistribution (g : Graph) (id : NodeId) : Except Error Unit := do
  match ← g.node id with
  | .distribution _ => return
  | _ => throw (.notADistribution id)

/-- Insists that a node is a draw. -/
def requireSample (g : Graph) (id : NodeId) : Except Error Unit := do
  match ← g.node id with
  | .operator (.sample _) => return
  | _ => throw (.notASample id)

/-- Insists that a node is an operator. -/
def requireOperator (g : Graph) (id : NodeId) : Except Error Unit := do
  match ← g.node id with
  | .operator _ => return
  | _ => throw (.notAnOperator id)

/-- Insists that a node has a value of its own. -/
def requireOperand (g : Graph) (id : NodeId) : Except Error Unit := do
  match ← g.node id with
  | .observation .. | .query _ => throw (.markerInput id)
  | .distribution _ => throw (.distributionInput id)
  | _ => return

/-- Insists that a node fits into a graph: first that its inputs exist, then what its own
sort demands of them, then that each input has a value. -/
def check (g : Graph) (node : Node) : Except Error Unit := do
  node.inputs.forM g.require
  match node with
  | .operator (.sample distribution) => g.requireDistribution distribution
  | .map [] => throw .emptyMap
  | .observation observed _ => do
    g.requireSample observed
    node.inputs.forM g.requireOperand
  | .query queried => do
    g.requireOperator queried
    node.inputs.forM g.requireOperand
  | _ => node.inputs.forM g.requireOperand

/-- Adds a node that fits and returns its number. -/
def insert (g : Graph) (node : Node) : Except Error (NodeId × Graph) := do
  g.check node
  return (⟨g.size⟩, { g with nodes := g.nodes.push node })

/-- Puts another node in the place of one. -/
def replace (g : Graph) (id : NodeId) (node : Node) : Graph :=
  { g with nodes := g.nodes.setIfInBounds id.index node }

theorem node_eq_ok_iff {g : Graph} {id : NodeId} {node : Node} :
    g.node id = .ok node ↔ g.nodes[id.index]? = some node := by
  unfold Graph.node
  split <;> simp_all

@[simp] theorem size_replace (g : Graph) (id : NodeId) (node : Node) :
    (g.replace id node).size = g.size := by
  simp [replace, size]

@[simp] theorem mem_ids (g : Graph) (id : NodeId) : id ∈ g.ids ↔ id.index < g.size := by
  cases id
  simp [ids]

end Graph

end ModelGraph
