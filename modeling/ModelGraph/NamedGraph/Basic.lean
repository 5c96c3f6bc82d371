import ModelGraph.Emission.Program
import ModelGraph.Emission.Recording
import ModelGraph.Graph.Enumeration
import ModelGraph.Graph.Typing

/-!
# Named graphs

A graph whose nodes of interest have names, for examples and checks.  Questions are asked
by name, and a failure says which question about which name went wrong.
-/

namespace ModelGraph

/-- A graph with names for some of its nodes. -/
structure NamedGraph where
  /-- The graph. -/
  graph : Graph := ∅
  /-- The named nodes, the latest first; a later name hides an earlier one. -/
  names : List (String × NodeId) := []

/-- A way of emitting a whole graph. -/
inductive EmissionPath where
  /-- Telling a recording. -/
  | recording
  /-- Writing a program. -/
  | program (target : Target)
  deriving DecidableEq, Repr

/-- The word for a way of emitting. -/
def EmissionPath.word : EmissionPath → String
  | .recording => "native"
  | .program .python => "python"
  | .program .cpp => "c++"

/-- Why a request about a named graph fails. -/
inductive NamedGraph.Failure where
  /-- A node was refused. -/
  | construction (cause : Error)
  /-- No node has the name. -/
  | unnamed (name : String)
  /-- The node of that name has a type that is no kind of value. -/
  | notAValue (name : String) (type : NodeType)
  /-- The graph does not have the node that the name was given to. -/
  | astray (name : String) (node : NodeId)
  /-- The values of the node cannot be listed. -/
  | support (name : String) (cause : Error)
  /-- A value of the node is no number. -/
  | notScalar (name : String) (cause : Error)
  /-- The graph cannot be emitted. -/
  | emission (path : EmissionPath) (cause : Error)
  /-- A handle belongs to no vertex of the recording. -/
  | dangling (node : NodeId) (handle : Handle)
  /-- A recorded node has no statement. -/
  | noStatement (cause : Error)
  /-- A statement does not start with the call of its vertex. -/
  | otherCall (statement : String)
  /-- A statement does not mention a part of its vertex. -/
  | lacks (statement part : String)
  deriving DecidableEq

/-- A type as a term: the name of the alternative and what it holds. -/
def NodeType.term : NodeType → String
  | .value kind => "Value(" ++ kind.tag ++ ")"
  | .distribution family => "Distribution(" ++ family.name ++ ")"
  | .map => "Map"
  | .malformed left right =>
    "Malformed \x7b left: " ++ left.term ++ ", right: " ++ right.term ++ " \x7d"

/-- The sentence that reports a failure with its cause.  A crash does not come to be reported. -/
def Error.messageAfter (start : String) : Error → String
  | .crash fault => fault.message
  | cause => start ++ cause.message

/-- The sentence that reports a failure. -/
def NamedGraph.Failure.message : NamedGraph.Failure → String
  | .construction cause => cause.messageAfter "graph construction failed: "
  | .unnamed name => s!"no node named '{name}'"
  | .notAValue name type => s!"'{name}' is not a value: Ok({type.term})"
  | .astray name node =>
    s!"'{name}' is not a value: Err(UnknownNode \x7b node: NodeId({node.index}) \x7d)"
  | .support name cause => cause.messageAfter s!"support of '{name}' failed: "
  | .notScalar name cause => cause.messageAfter s!"'{name}' support is not scalar: "
  | .emission path cause => cause.messageAfter s!"{path.word} emission failed: "
  | .dangling node handle => s!"{node} has dangling handle {handle}"
  | .noStatement cause => cause.message
  | .otherCall statement => statement
  | .lacks statement part => s!"{statement} lacks {part}"

namespace NamedGraph

instance : EmptyCollection NamedGraph :=
  ⟨{}⟩

/-- Adds a node. -/
def insert (m : NamedGraph) (node : Node) : Except Failure (NodeId × NamedGraph) := do
  let (id, graph) ← (m.graph.insert node).mapError .construction
  return (id, { m with graph })

/-- Names a node. -/
def bind (m : NamedGraph) (name : String) (id : NodeId) : NamedGraph :=
  { m with names := (name, id) :: m.names }

/-- The node with a name. -/
def id (m : NamedGraph) (name : String) : Except Failure NodeId :=
  match m.names.lookup name with
  | some id => .ok id
  | none => .error (.unnamed name)

/-- The kind of the node with a name.  Only a node that is not there has no type. -/
def kindOf (m : NamedGraph) (name : String) : Except Failure Refinement := do
  let id ← m.id name
  match m.graph.typeOf id with
  | .ok (.value kind) => return kind
  | .ok type => throw (.notAValue name type)
  | .error _ => throw (.astray name id)

/-- The different numbers that the node with a name can be. -/
def supportReals (m : NamedGraph) (name : String) : Except Failure (List Float) := do
  let values ← (m.graph.supportSet (← m.id name)).mapError (.support name)
  values.toList.mapM fun value => value.toReal.mapError (.notScalar name)

/-- What a fresh recording is told about the graph, and the handles of the nodes. -/
def record (m : NamedGraph) : Except Failure (Handles × Recording) :=
  match m.graph.record ∅ with
  | (.ok handles, recording) => .ok (handles, recording)
  | (.error cause, _) => .error (.emission .recording cause)

/-- The program that builds the graph. -/
def program (m : NamedGraph) (target : Target) : Except Failure String :=
  (m.graph.program target {}).mapError (.emission (.program target))

end NamedGraph

end ModelGraph
