import ModelGraph.Node.Id
import ModelGraph.Shape.Broadcast

/-!
# Errors

Everything that the library refuses to do, by cause, and the sentence that reports it.  A
computation that reads an array beyond its bounds is not refused but crashes.
-/

namespace ModelGraph

/-- What is wrong with the name of a module to import. -/
inductive ModuleFault where
  /-- There is no name. -/
  | empty
  /-- The name is no path of identifiers. -/
  | notAPath (name : String)
  deriving DecidableEq, Repr

/-- How a computation reads an array beyond its bounds. -/
inductive Fault where
  /-- A part of the array ends before it starts. -/
  | reversed (start stop : Nat)
  /-- A part of the array ends after the array. -/
  | overrun (stop length : Nat)
  /-- There is no element at a place. -/
  | outside (index length : Nat)
  deriving DecidableEq, Repr

/-- Why a request about a graph, a tensor or a program is not granted. -/
inductive Error where
  /-- The values of a node cannot be listed. -/
  | noFiniteSupport (node : NodeId) (what : String)
  /-- A key of a map is not a constant. -/
  | nonConstantKey (map key : NodeId)
  /-- No entry of a map has the key. -/
  | keyNotFound (map : NodeId) (key : String)
  /-- The node is not a map. -/
  | notAMap (node : NodeId)
  /-- A map has no entry. -/
  | emptyMap
  /-- Two arrays cannot be stretched to one shape. -/
  | shapeMismatch (left right : Shape)
  /-- Two arrays are not matrices with a common inner dimension. -/
  | matrixShape (left right : Shape)
  /-- A parameter of a distribution has a shape the distribution cannot use. -/
  | invalidParameterShape (node : NodeId) (parameter : String) (shape : Shape)
  /-- There are too few or too many elements for a shape. -/
  | dataLength (shape : Shape) (length : Nat)
  /-- An array of several elements, or of none, stands where a number is needed. -/
  | notScalar (shape : Shape)
  /-- The node is not a distribution. -/
  | notADistribution (node : NodeId)
  /-- The node is not a sample. -/
  | notASample (node : NodeId)
  /-- The node is not an operator. -/
  | notAnOperator (node : NodeId)
  /-- An observation or a query is used as an input. -/
  | markerInput (node : NodeId)
  /-- A distribution is used as an input of something other than a sample. -/
  | distributionInput (node : NodeId)
  /-- The graph has no such node. -/
  | unknownNode (node : NodeId)
  /-- The node has no input of that name. -/
  | unknownEdge (node : NodeId) (edge : String)
  /-- The new input depends on the node itself. -/
  | wouldCycle (node : NodeId) (edge : String) (input : NodeId)
  /-- The nodes cannot be ordered because some depend on themselves. -/
  | cycleDetected (nodes : List NodeId)
  /-- A node that is referred to has not been emitted. -/
  | missingHandle (node : NodeId)
  /-- The target has no counterpart of the node. -/
  | emissionNotImplemented (node : NodeId) (what : String)
  /-- The configuration of a program is unusable. -/
  | invalidConfig (fault : ModuleFault)
  /-- A question descended through more nodes than the graph has. -/
  | depthExceeded (node : NodeId)
  /-- The computation does not end in an orderly way. -/
  | crash (fault : Fault)
  deriving DecidableEq, Repr

/-- The sentence that reports a faulty module name. -/
def ModuleFault.message : ModuleFault → String
  | .empty => "python_module must not be empty"
  | .notAPath name => s!"python_module '{name}' is not a dotted module path"

/-- The sentence that a crash leaves behind. -/
def Fault.message : Fault → String
  | .reversed start stop => s!"slice index starts at {start} but ends at {stop}"
  | .overrun stop length =>
    s!"range end index {stop} out of range for slice of length {length}"
  | .outside index length =>
    s!"index out of bounds: the len is {length} but the index is {index}"

/-- The sentence that reports an error. -/
def Error.message : Error → String
  | .noFiniteSupport node what => s!"{what} does not have finite support (node {node})"
  | .nonConstantKey map key =>
    s!"map {map} must be indexed with a constant value, got node {key}"
  | .keyNotFound map key => s!"key {key} not found in map {map}"
  | .notAMap node => s!"node {node} is not a map"
  | .emptyMap => "map must have at least one key/value pair"
  | .shapeMismatch left right => s!"shapes {left} and {right} cannot be broadcast together"
  | .matrixShape left right => s!"cannot matrix-multiply shapes {left} and {right}"
  | .invalidParameterShape node parameter shape =>
    s!"{parameter} of node {node} has invalid shape {shape}"
  | .dataLength shape length => s!"tensor data of length {length} does not fit shape {shape}"
  | .notScalar shape => s!"expected a single-element value, got shape {shape}"
  | .notADistribution node => s!"node {node} is not a distribution"
  | .notASample node => s!"node {node} is not a sample"
  | .notAnOperator node => s!"node {node} is not an operator"
  | .markerInput node => s!"{node} is an observation or query and cannot be an input"
  | .distributionInput node => s!"distribution {node} can only be consumed by a sample"
  | .unknownNode node => s!"unknown node {node}"
  | .unknownEdge node edge => s!"node {node} has no input named '{edge}'"
  | .wouldCycle node edge input =>
    s!"setting '{edge}' of node {node} to {input} would create a cycle"
  | .cycleDetected nodes =>
    let names := ", ".intercalate (nodes.map fun id => s!"NodeId({id.index})")
    s!"dependency cycle through nodes [{names}]"
  | .missingHandle node => s!"no handle assigned to node {node}"
  | .emissionNotImplemented node what => s!"{what} cannot be emitted yet (node {node})"
  | .invalidConfig fault => s!"invalid emit configuration: {fault.message}"
  | .depthExceeded node => s!"the inputs of node {node} are nested too deeply"
  | .crash fault => fault.message

instance : ToString Error where
  toString := Error.message

namespace Shape

/-- The shape that both shapes can be stretched to. -/
def broadcast (s t : Shape) : Except Error Shape :=
  match s.broadcast? t with
  | some shape => .ok shape
  | none => .error (.shapeMismatch s t)

/-- The shape of a product of matrices. -/
def matmul (s t : Shape) : Except Error Shape :=
  match s.matmul? t with
  | some shape => .ok shape
  | none => .error (.matrixShape s t)

end Shape

end ModelGraph
