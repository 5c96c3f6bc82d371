import ModelGraph.Emission.Statement
import ModelGraph.Graph.Order

/-!
# Programs

The program that builds a graph: a statement for each node in dependency order.  Vertices
are numbered in the order in which a fresh engine numbers them.
-/

namespace ModelGraph

namespace Graph

/-- The statement of a node.  A node that adds a vertex must have a handle already. -/
def statement (g : Graph) (target : Target) (handles : Handles) (id : NodeId) :
    Except Error String := do
  let instruction ← g.lower handles id
  let own ← if instruction.addsVertex then some <$> handles.get id else pure none
  target.statement instruction own

/-- The statements of nodes.  Each node that is no marker takes the next handle before its
statement is written. -/
def statements (g : Graph) (target : Target) :
    (next : Nat) → Handles → List NodeId → Except Error (List String)
  | _, _, [] => return []
  | next, handles, id :: rest => do
    let marker := (← g.node id).isMarker
    let handles := if marker then handles else handles.insert id (.ofNat next)
    let statement ← g.statement target handles id
    let later ← g.statements target (if marker then next else next + 1) handles rest
    return statement :: later

/-- The program that builds a graph. -/
def program (g : Graph) (target : Target) (config : Config) : Except Error String := do
  config.validate
  let header := if config.includeHeader then target.header config else ""
  let statements ← g.statements target 0 ∅ (← g.topologicalOrder)
  return header ++ String.join (statements.map fun statement => statement ++ "\n")

end Graph

end ModelGraph
