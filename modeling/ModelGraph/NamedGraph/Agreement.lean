import ModelGraph.NamedGraph.Basic

/-!
# Agreement of emissions

A node can be emitted to a recording, in Python and in C++.  `NamedGraph.checkAgreement`
looks into the texts of both statements of each recorded node for what the recorded vertex
holds: the same call with the same handle, the same words and the same inputs.
-/

namespace ModelGraph

/-- Whether a pattern stands somewhere in a text. -/
def occurs (pattern : List Char) : List Char → Bool
  | [] => pattern.isEmpty
  | c :: rest => pattern.isPrefixOf (c :: rest) || occurs pattern rest

/-- The name of the call that adds a vertex. -/
def Vertex.callName : Vertex → String
  | .constant _ => "add_constant"
  | .positiveReal _ => "add_constant_pos_real"
  | .probability _ => "add_constant_probability"
  | .distribution .. => "add_distribution"
  | .operator .. => "add_operator"

/-- The words of the engine in a vertex. -/
def Vertex.words : Vertex → List String
  | .distribution tag kind _ => [tag.word, kind.word]
  | .operator tag _ => [tag.word]
  | _ => []

namespace NamedGraph

/-- Insists that a statement starts with given text. -/
def requireStart (statement start : String) : Except Failure Unit :=
  if start.toList.isPrefixOf statement.toList then .ok () else .error (.otherCall statement)

/-- Insists that a statement mentions a part of its vertex in a certain form. -/
def requirePart (statement form part : String) : Except Failure Unit :=
  if occurs form.toList statement.toList then .ok () else .error (.lacks statement part)

/-- Insists that both statements of a vertex mention a word of the engine. -/
def requireWord (python cpp word : String) : Except Failure Unit := do
  requirePart python ("." ++ word ++ ",") word
  requirePart cpp ("::" ++ word ++ ",") word

/-- Insists that both statements of a vertex list its inputs, if it has some. -/
def requireInputs (python cpp : String) (inputs : List Handle) : Except Failure Unit := do
  let names := ", ".intercalate (inputs.map toString)
  let bracketed := "[" ++ names ++ "]"
  let braced := "\x7b" ++ names ++ "\x7d"
  if inputs.isEmpty then
    return
  requirePart python bracketed bracketed
  requirePart cpp ("(" ++ braced ++ ")") braced

/-- Insists that both statements of a recorded node say what its vertex holds. -/
def checkVertex (python cpp : String) (handle : Handle) (vertex : Vertex) :
    Except Failure Unit := do
  let call := toString handle ++ " = g." ++ vertex.callName ++ "("
  requireStart python call
  requireStart cpp ("uint " ++ call)
  vertex.words.forM (requireWord python cpp)
  requireInputs python cpp vertex.inputs

/-- Insists that the emissions of a recorded node agree. -/
def checkNode (m : NamedGraph) (handles : Handles) (recording : Recording)
    (node : NodeId) (handle : Handle) : Except Failure Unit := do
  match recording.vertex? handle with
  | none => throw (.dangling node handle)
  | some vertex => do
    let python ← (m.graph.statement .python handles node).mapError .noStatement
    let cpp ← (m.graph.statement .cpp handles node).mapError .noStatement
    checkVertex python cpp handle vertex

/-- Insists that the emissions of the whole graph agree. -/
def checkAgreement (m : NamedGraph) : Except Failure Unit := do
  let (handles, recording) ← m.record
  handles.toList.forM fun (node, handle) => m.checkNode handles recording node handle

end NamedGraph

end ModelGraph
