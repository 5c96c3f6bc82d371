import ModelGraph.Persistence.Graph
import ModelGraph.Proofs.Graph.Acceptance
import ModelGraph.Proofs.Persistence.Restoring

/-!
# Graphs that are read back

The data of a graph is read back, part by part, as the graph itself: each node stands at its
place again with its inputs, kinds and flags.  A graph that was read is checked like any other
list of nodes, and passes because every history leads to a well-formed graph.  A graph with a
real that is no finite number is not read at all.
-/

namespace ModelGraph

/-! ## Names -/

@[simp] theorem Refinement.ofTag?_tag (r : Refinement) : ofTag? r.tag = some r := by
  cases r <;> rfl

@[simp] theorem Family.ofName?_name (family : Family) : ofName? family.name = some family := by
  cases family <;> rfl

@[simp] theorem BinaryOp.ofJson_name (op : BinaryOp) : ofJson (.text op.name) = .ok op := by
  cases op <;> rfl

@[simp] theorem UnaryOp.ofJson_name (op : UnaryOp) : ofJson (.text op.name) = .ok op := by
  cases op <;> rfl

/-! ## Values -/

@[simp] theorem Shape.ofJson_toJson (s : Shape) : ofJson s.toJson = .ok s := by
  simp [ofJson, toJson, Json.toRecord, Json.toList_map_of_ok Json.toCount_ofNat]

/-- The elements of a tensor fit its shape. -/
theorem Tensor.assemble_data (t : Tensor) : assemble t.shape t.data.toList = .ok t :=
  Outcome.mapError_eq_ok_iff.mpr (by simp [ofArray, t.size_data])

@[simp] theorem Tensor.ofJson_toJson (t : Tensor) :
    ofJson t.toJson = Read.provided (t.data.toList.all Float.isFinite) t := by
  have parts : ofJson t.toJson =
      Read.provided (t.data.toList.all Float.isFinite) t.data.toList >>= assemble t.shape := by
    simp [ofJson, toJson, Json.toRecord, Json.toList_map Json.toReal_ofReal]
  rw [parts]
  exact Read.provided_bind _ t.assemble_data

/-- The reals that a value is made of. -/
def Value.reals : Value → List Float
  | .boolean _ | .natural _ => []
  | .positiveReal x | .probability x | .real x => [x]
  | .tensor t => t.data.toList

@[simp] theorem Value.ofJson_toJson (v : Value) :
    ofJson v.toJson = Read.provided (v.reals.all Float.isFinite) v := by
  have content : contentOfJson v.contentToJson v.refinement =
      Read.provided (v.reals.all Float.isFinite) v := by
    cases v <;> simp [contentOfJson, contentToJson, refinement, reals, Json.toBool]
  simp [ofJson, toJson, Json.toChoice, Json.Parts.need, Json.Choice.read, content]

/-! ## Nodes -/

@[simp] theorem NodeId.ofJson_toJson (id : NodeId) : ofJson id.toJson = .ok id := rfl

theorem Parameters.ofParts_toParts (p : Parameters) : ofParts p.toParts p.family = .ok p := by
  cases p <;>
    simp [ofParts, toParts, family, edges, inputs, logits?, Json.Parts.input, Json.Parts.logits,
      Json.toBool]

@[simp] theorem Parameters.ofJson_toJson (p : Parameters) : ofJson p.toJson = .ok p := by
  simp [ofJson, toJson, Json.toChoice, Json.Parts.need, Json.Choice.parts, ofParts_toParts]

@[simp] theorem Distribution.ofJson_toJson (d : Distribution) : ofJson d.toJson = .ok d := by
  simp [ofJson, toJson, Json.toRecord, Json.toBool]

@[simp] theorem Operator.ofJson_toJson (op : Operator) : ofJson op.toJson = .ok op := by
  cases op <;>
    simp [ofJson, toJson, Json.toChoice, Json.Choice.parts, Json.Parts.input]

@[simp] theorem Node.mapOfJson_entries (entries : List (NodeId × NodeId)) :
    mapOfJson (.object [("entries", .array (entries.map entryToJson))]) = .ok (.map entries) := by
  have pair (entry : NodeId × NodeId) :
      Json.toPair NodeId.ofJson NodeId.ofJson (entryToJson entry) = .ok entry :=
    Json.toPair_of_ok entry.1.ofJson_toJson entry.2.ofJson_toJson
  simp [mapOfJson, Json.toRecord, Json.toList_map_of_ok pair]

@[simp] theorem Node.observationOfJson_parts (observed : NodeId) (value : Value) :
    observationOfJson (.object [("observed", observed.toJson), ("value", value.toJson)]) =
      Read.provided (value.reals.all Float.isFinite) (.observation observed value) := by
  -- the value is read before it is asked whether there was one
  cases finite : value.reals.all Float.isFinite <;>
    simp [observationOfJson, Json.toRecord, Json.Parts.need, finite]

@[simp] theorem Node.queryOfJson_parts (queried : NodeId) :
    queryOfJson (.object [("operator", queried.toJson)]) = .ok (.query queried) := by
  simp [queryOfJson, Json.toRecord, Json.Parts.input]

/-- The reals that a node is made of. -/
def Node.reals : Node → List Float
  | .constant value | .observation _ value => value.reals
  | _ => []

@[simp] theorem Node.ofJson_toJson (node : Node) :
    ofJson node.toJson = Read.provided (node.reals.all Float.isFinite) node := by
  cases node <;> simp [ofJson, toJson, Json.toChoice, Json.Choice.read, reals]

namespace Graph

/-- The reals in the constants and the observed values of a graph. -/
def reals (g : Graph) : List Float :=
  g.nodes.toList.flatMap Node.reals

/-- What is read of the data of a graph is its list of nodes, if all of its reals are finite
numbers; this list is then checked. -/
theorem ofJson_toJson (g : Graph) :
    ofJson g.toJson =
      Read.provided (g.reals.all Float.isFinite) g.nodes.toList >>= assemble := by
  have finite : g.reals.all Float.isFinite =
      g.nodes.toList.all fun node => node.reals.all Float.isFinite := by
    rw [reals, List.all_flatMap]
  simp [ofJson, toJson, Json.toRecord, Json.toList_map Node.ofJson_toJson, finite]

/-- Whatever data a graph is read from, it could have been built. -/
theorem reachable_of_ofJson_eq_ok
    {g : Graph} {json : Json}
    (read : ofJson json = .ok g) :
    g.Reachable := by
  obtain ⟨nodes, _, assembled⟩ := Outcome.bind_eq_ok_iff.mp read
  exact reachable_of_ofNodes (Outcome.mapError_eq_ok_iff.mp assembled)

end Graph

end ModelGraph
