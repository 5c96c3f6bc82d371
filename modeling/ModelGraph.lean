import ModelGraph.Json.Text
import ModelGraph.Persistence.Config
import ModelGraph.Persistence.Graph
import ModelGraph.Persistence.NodeType
import ModelGraph.Graph.Rewiring
import ModelGraph.Graph.Enumeration
import ModelGraph.Graph.Description
import ModelGraph.Graph.Dot
import ModelGraph.Emission.Recording
import ModelGraph.Emission.Program
import ModelGraph.NamedGraph.Agreement
import ModelGraph.NamedGraph.CoinFlip
import ModelGraph.Proofs.Graph.History
import ModelGraph.Proofs.Graph.Descent
import ModelGraph.Proofs.Graph.Acceptance
import ModelGraph.Proofs.Enumeration.Evaluation
import ModelGraph.Proofs.Enumeration.ShapeSoundness
import ModelGraph.Proofs.Emission.Mirror
import ModelGraph.Proofs.Emission.Agreement
import ModelGraph.Proofs.Graph.Answers
import ModelGraph.Proofs.Enumeration.Refusals
import ModelGraph.Emission.Engine
import ModelGraph.Proofs.Emission.Refusals
import ModelGraph.Proofs.Refusals
import ModelGraph.Proofs.Persistence.Restoring
import ModelGraph.Proofs.Persistence.RoundTrip
import ModelGraph.Proofs.Graph.Growth
import ModelGraph.Proofs.Emission.Growth
import ModelGraph.Proofs.Graph.Questions
import ModelGraph.Proofs.Graph.Locality
import ModelGraph.Proofs.Graph.Budget
import ModelGraph.Proofs.NamedGraph.Agreement
import ModelGraph.Proofs.Graph.Cycles
import ModelGraph.Proofs.Graph.LeastOrder
import ModelGraph.Proofs.Enumeration.Representatives
import ModelGraph.Proofs.Emission.Targets
import ModelGraph.Proofs.Enumeration.Exactness
import ModelGraph.Proofs.Enumeration.Outcomes
import ModelGraph.Proofs.Enumeration.TypeFixing
import ModelGraph.Proofs.Enumeration.IndexShapes
import ModelGraph.Proofs.Graph.Edges
import ModelGraph.Proofs.Graph.Undoing
import ModelGraph.Proofs.Enumeration.NaturalKeys
import ModelGraph.Proofs.Enumeration.Distinctness
import ModelGraph.Proofs.Tensor.Elementwise
import ModelGraph.Proofs.Tensor.Product
import ModelGraph.Proofs.Graph.Chains
import ModelGraph.Proofs.Graph.Types
import ModelGraph.Proofs.Emission.Continuation
import ModelGraph.Proofs.Shape.RowMajor
import ModelGraph.Proofs.Tensor.NestedRows
import ModelGraph.Proofs.Emission.ModulePaths
import ModelGraph.Proofs.Graph.Drawing
