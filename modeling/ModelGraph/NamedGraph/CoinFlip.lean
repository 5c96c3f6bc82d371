import ModelGraph.Graph.Order
import ModelGraph.NamedGraph.Basic

/-!
# A coin flip

The standing example of a named graph: the bias of a coin is asked for after one flip.
`ofNodes_coinFlip` says that it is a graph in its own right.
-/

namespace ModelGraph

namespace NamedGraph

/-- A coin of unknown bias: the bias has the uniform prior `Beta(1, 1)`, one flip came up
true, and the bias is asked for. -/
def coinFlip : NamedGraph where
  graph := {
    nodes := #[
      .constant (.positiveReal 1.0),
      .distribution (.ofParameters (.beta ⟨0⟩ ⟨0⟩)),
      .operator (.sample ⟨1⟩),
      .distribution (.ofParameters (.bernoulli ⟨2⟩ false)),
      .operator (.sample ⟨3⟩),
      .observation ⟨4⟩ (.boolean true),
      .query ⟨2⟩] }
  names := [("one", ⟨0⟩), ("beta", ⟨1⟩), ("p", ⟨2⟩), ("coin", ⟨3⟩), ("flip", ⟨4⟩),
    ("observation", ⟨5⟩), ("query", ⟨6⟩)]

theorem ofNodes_coinFlip :
    Graph.ofNodes coinFlip.graph.nodes.toList = .ok coinFlip.graph := by
  have fits : coinFlip.graph.nodes.toList.forM coinFlip.graph.check = .ok () := rfl
  have placed : (coinFlip.graph.sweep 7 coinFlip.graph.startSweep).placed.length = 7 := by
    decide +kernel
  have ordered : ∃ order, coinFlip.graph.topologicalOrder = .ok order := ⟨_, if_pos placed⟩
  obtain ⟨order, ordered⟩ := ordered
  simp only [Graph.ofNodes, Array.toArray_toList, fits, ordered]
  rfl

end NamedGraph

end ModelGraph
