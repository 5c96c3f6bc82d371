import ModelGraph.Emission.Instruction
import ModelGraph.Graph.Order

/-!
# Recordings

A recording keeps everything an engine is told.  `Graph.record` tells it about a whole graph
in dependency order; what was told before a failure stays in the recording.
-/

namespace ModelGraph

/-- All that an engine was told. -/
structure Recording where
  /-- The vertices; the handle of a vertex is its place. -/
  vertices : Array Vertex := #[]
  /-- The observed vertices with the values they were seen to have. -/
  observations : Array (Handle × Value) := #[]
  /-- The vertices whose values are asked for. -/
  queries : Array Handle := #[]

namespace Recording

instance : EmptyCollection Recording :=
  ⟨{}⟩

/-- The vertex with a handle. -/
def vertex? (r : Recording) (handle : Handle) : Option Vertex :=
  r.vertices[handle.toNat]?

/-- Takes an instruction, and returns the handle of the vertex it adds. -/
def run (r : Recording) : Instruction → Option Handle × Recording
  | .add vertex =>
    (some (.ofNat r.vertices.size), { r with vertices := r.vertices.push vertex })
  | .observe vertex value =>
    (none, { r with observations := r.observations.push (vertex, value) })
  | .query vertex => (none, { r with queries := r.queries.push vertex })

end Recording

/-- Gives a node the handle of its vertex, if it has one. -/
def Handles.insert? (handles : Handles) (node : NodeId) : Option Handle → Handles
  | some handle => handles.insert node handle
  | none => handles

namespace Graph

/-- Tells a recording about a node. -/
def recordNode (g : Graph) (handles : Handles) (r : Recording) (id : NodeId) :
    Except Error (Option Handle × Recording) :=
  return r.run (← g.lower handles id)

/-- Tells a recording about nodes one after the other, up to the first failure. -/
def recordNodes (g : Graph) :
    (handles : Handles) → Recording → List NodeId → Except Error Handles × Recording
  | handles, r, [] => (.ok handles, r)
  | handles, r, id :: rest =>
    match g.recordNode handles r id with
    | .error e => (.error e, r)
    | .ok (handle?, r) => g.recordNodes (handles.insert? id handle?) r rest

/-- Tells a recording about a whole graph. -/
def record (g : Graph) (r : Recording) : Except Error Handles × Recording :=
  match g.topologicalOrder with
  | .error e => (.error e, r)
  | .ok order => g.recordNodes ∅ r order

end Graph

end ModelGraph
