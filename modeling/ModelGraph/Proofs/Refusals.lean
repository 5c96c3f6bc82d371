import ModelGraph.Proofs.Emission.Refusals
import ModelGraph.Proofs.Enumeration.Refusals
import ModelGraph.Proofs.Graph.Descriptions

/-!
# What can be refused

Everything that can be asked about a graph, or done with a graph as it is, together with the
reasons for which it can be refused.  Each other reason that the library knows is about a graph
that cannot be built, about a request to change a graph, or about something that is no graph
at all.  Where words cannot count the places of a value, what writes the value crashes.
-/

namespace ModelGraph

namespace Graph

end Graph

end ModelGraph
