import ModelGraph.Emission.Engine
import ModelGraph.Proofs.Emission.Agreement
import ModelGraph.Proofs.Graph.Acceptance

/-!
# Why emission is refused

Emitting a well-formed graph fails only at a node that engines have no counterpart for.  While
an engine is told about one node after the other, every node that has a vertex has a handle
from then on.  The inputs of a node come before it and have vertices, since markers are never
inputs; so no handle is ever missing, whatever the engine does.
-/

namespace ModelGraph

open Outcome (Ensures RefusedFor)

namespace Graph

variable {g : Graph} {handles : Handles} {done : List NodeId} {id : NodeId}

/-- The nodes of a list that have a vertex have a handle. -/
def Handled (g : Graph) (handles : Handles) (done : List NodeId) : Prop :=
  ∀ id ∈ done, ∀ node, g.node id = .ok node → node.hasVertex = true →
    ∃ handle, handles.get? id = some handle

theorem Handled.step
    {node : Node} {handle? : Option Handle}
    (handled : g.Handled handles done)
    (found : g.node id = .ok node)
    (adds : handle?.isSome = node.hasVertex) :
    g.Handled (handles.insert? id handle?) (done ++ [id]) := by
  intro other present node' found' hasVertex
  cases handle? with
  | none =>
      rcases List.mem_append.mp present with before | here
      · exact handled other before node' found' hasVertex
      · obtain rfl : other = id := List.mem_singleton.mp here
        cases found.symm.trans found'
        cases adds.trans hasVertex
  | some handle =>
      change ∃ given, (handles.insert id handle).get? other = some given
      rw [Handles.get?_insert]
      split
      · exact ⟨handle, rfl⟩
      · next different =>
          rcases List.mem_append.mp present with before | here
          · exact handled other before node' found' hasVertex
          · exact absurd (List.mem_singleton.mp here) different

end Graph

end ModelGraph
