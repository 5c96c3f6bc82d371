import ModelGraph.Emission.Recording

/-!
# Engines

An engine builds a model as it is told about it.  It hands out a handle for every vertex it
adds; how it numbers vertices and what else it does with what it is told is its own affair.
`Graph.build` tells any engine about a whole graph, and a recording is the engine that only
writes down.
-/

namespace ModelGraph

/-- How an engine takes what it is told; `σ` is what it remembers. -/
structure Engine (σ : Type) where
  /-- Adds a vertex and returns its handle. -/
  add : σ → Vertex → Handle × σ
  /-- Takes that a vertex was seen to have a value. -/
  observe : σ → Handle → Value → σ
  /-- Takes that the value of a vertex is asked for. -/
  query : σ → Handle → σ

/-- Takes an instruction, and returns the handle of the vertex it adds. -/
def Engine.run {σ : Type} (engine : Engine σ) (s : σ) : Instruction → Option Handle × σ
  | .add vertex =>
    let (handle, s) := engine.add s vertex
    (some handle, s)
  | .observe vertex value => (none, engine.observe s vertex value)
  | .query vertex => (none, engine.query s vertex)

/-- The engine that keeps everything it is told. -/
def Recording.engine : Engine Recording where
  add r vertex := (.ofNat r.vertices.size, { r with vertices := r.vertices.push vertex })
  observe r vertex value := { r with observations := r.observations.push (vertex, value) }
  query r vertex := { r with queries := r.queries.push vertex }

namespace Graph

/-- Tells an engine about nodes one after the other, up to the first failure. -/
def buildNodes {σ : Type} (g : Graph) (engine : Engine σ) :
    (handles : Handles) → σ → List NodeId → Except Error Handles × σ
  | handles, s, [] => (.ok handles, s)
  | handles, s, id :: rest =>
    match g.lower handles id with
    | .error e => (.error e, s)
    | .ok instruction =>
      let (handle?, s) := engine.run s instruction
      g.buildNodes engine (handles.insert? id handle?) s rest

/-- Tells an engine about a whole graph. -/
def build {σ : Type} (g : Graph) (engine : Engine σ) (s : σ) : Except Error Handles × σ :=
  match g.topologicalOrder with
  | .error e => (.error e, s)
  | .ok order => g.buildNodes engine ∅ s order

end Graph

end ModelGraph
