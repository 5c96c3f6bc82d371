import ModelGraph.Proofs.Graph.History
import ModelGraph.Proofs.Numeral

/-!
# Finding inputs by the names of their edges

An input is asked for by the name of its edge.  The edges of a map are numbered, and their names
are read as numbers, so that a plus sign and zeros may stand before the digits.  All other names
are taken as they are.  `Node.position?_eq_some_iff` says which texts lead to which input, and
`setInput_eq_unknownEdge_iff` that a new input is refused for its edge just where none does.
-/

namespace ModelGraph

open Outcome (Ensures RefusedFor)

namespace Node

/-- A text is taken for the name of an edge: it is that name, or the number of an edge of a map
with zeros and a plus sign before it. -/
def Spells (node : Node) (edge label : String) : Prop :=
  edge = label ∨
    node.category = .map ∧ ∃ padding, Numeral.IsPadding padding ∧ edge = padding ++ label

theorem spells_self (node : Node) (label : String) : node.Spells label label :=
  .inl rfl

/-- Only the names of the edges of a map may be spelled in other ways. -/
theorem spells_iff_eq
    {node : Node} {edge label : String}
    (notMap : node.category ≠ .map) :
    node.Spells edge label ↔ edge = label := by
  constructor
  · rintro (same | ⟨isMap, _⟩)
    · exact same
    · exact absurd isMap notMap
  · exact .inl

theorem nodup_edges_of_ne_map
    {node : Node}
    (notMap : node.category ≠ .map) :
    node.edges.Nodup := by
  cases node with
  | distribution d =>
      change d.parameters.edges.Nodup
      cases d.parameters <;> simp [Parameters.edges]
  | operator op =>
      change op.edges.Nodup
      cases op <;> simp [Operator.edges]
  | map entries => exact absurd rfl notMap
  | _ => simp [edges]

theorem position?_of_ne_map
    {node : Node}
    (notMap : node.category ≠ .map)
    (edge : String) :
    node.position? edge = node.edges.idxOf? edge := by
  cases node with
  | map entries => exact absurd rfl notMap
  | _ => rfl

/-- Where no name occurs twice, a name is found where it stands. -/
theorem idxOf?_eq_some_iff_of_nodup
    {names : List String} {name : String} {position : Nat}
    (nodup : names.Nodup) :
    names.idxOf? name = some position ↔ names[position]? = some name := by
  rw [List.idxOf?_eq_some_iff, List.getElem?_eq_some_iff]
  constructor
  · rintro ⟨inside, here, _⟩
    exact ⟨inside, here⟩
  · rintro ⟨inside, here⟩
    refine ⟨inside, here, fun earlier before same => ?_⟩
    have equal := (nodup.getElem_inj_iff).mp (same.trans here.symm)
    omega

theorem edges_map_getElem?_eq_some_iff
    {entries : List (NodeId × NodeId)} {position : Nat} {label : String} :
    (Node.map entries).edges[position]? = some label ↔
      position < 2 * entries.length ∧ label = position.repr := by
  by_cases inside : position < 2 * entries.length
  · simp [edges, inside, eq_comm]
  · simp [edges, inside]

/-- A text leads to an input if it is taken for the name of the edge at its place. -/
theorem position?_eq_some_iff {node : Node} {edge : String} {position : Nat} :
    node.position? edge = some position ↔
      ∃ label, node.edges[position]? = some label ∧ node.Spells edge label := by
  by_cases isMap : node.category = .map
  · cases node with
    | map entries =>
        simp only [position?, Option.filter_eq_some_iff, Numeral.readSigned?_eq_some_iff,
          edges_map_getElem?_eq_some_iff, decide_eq_true_eq]
        constructor
        · rintro ⟨⟨padding, isPadding, rfl⟩, inside⟩
          exact ⟨_, ⟨inside, rfl⟩, .inr ⟨rfl, padding, isPadding, rfl⟩⟩
        · rintro ⟨label, ⟨inside, rfl⟩, rfl | ⟨_, padding, isPadding, rfl⟩⟩
          · exact ⟨⟨"", Numeral.isPadding_empty, String.empty_append.symm⟩, inside⟩
          · exact ⟨⟨padding, isPadding, rfl⟩, inside⟩
    | _ => cases isMap
  · rw [position?_of_ne_map isMap, idxOf?_eq_some_iff_of_nodup (nodup_edges_of_ne_map isMap)]
    simp only [spells_iff_eq isMap, exists_eq_right']

/-- The name of an edge leads to the input at its place. -/
theorem position?_of_getElem?_edges
    {node : Node} {edge : String} {position : Nat}
    (labelled : node.edges[position]? = some edge) :
    node.position? edge = some position :=
  position?_eq_some_iff.mpr ⟨edge, labelled, node.spells_self edge⟩

theorem position?_eq_none_iff {node : Node} {edge : String} :
    node.position? edge = none ↔ ∀ label ∈ node.edges, ¬node.Spells edge label := by
  rw [Option.eq_none_iff_forall_ne_some]
  constructor
  · intro nowhere label present spells
    obtain ⟨position, labelled⟩ := List.mem_iff_getElem?.mp present
    exact nowhere position (position?_eq_some_iff.mpr ⟨label, labelled, spells⟩)
  · intro unlike position somewhere
    obtain ⟨label, labelled, spells⟩ := position?_eq_some_iff.mp somewhere
    exact unlike label (List.mem_of_getElem? labelled) spells

/-- The edge of a name leads to one of the inputs. -/
theorem lt_length_of_position?_eq_some
    {node : Node} {edge : String} {position : Nat}
    (place : node.position? edge = some position) :
    position < node.inputs.length := by
  obtain ⟨label, labelled, _⟩ := position?_eq_some_iff.mp place
  rw [← node.length_edges]
  exact (List.getElem?_eq_some_iff.mp labelled).1

end Node

/-! ## Refusals of a new input -/

/-- Whether a refusal is one of a node that does not fit into a graph. -/
def Error.isMisfit : Error → Bool
  | .unknownNode _ | .notADistribution _ | .notASample _ | .notAnOperator _ | .markerInput _
  | .distributionInput _ | .emptyMap => true
  | _ => false

namespace Graph

section Check

variable {g : Graph}

theorem node_ensures (id : NodeId) :
    RefusedFor (g.node id) fun e => e.isMisfit = true := by
  unfold Graph.node
  split
  · trivial
  · rfl

theorem require_ensures (id : NodeId) :
    RefusedFor (g.require id) fun e => e.isMisfit = true :=
  (node_ensures id).bind fun _ _ => trivial

theorem requireDistribution_ensures (id : NodeId) :
    RefusedFor (g.requireDistribution id) fun e => e.isMisfit = true := by
  refine (node_ensures id).bind fun node _ => ?_
  split
  · trivial
  · rfl

theorem requireSample_ensures (id : NodeId) :
    RefusedFor (g.requireSample id) fun e => e.isMisfit = true := by
  refine (node_ensures id).bind fun node _ => ?_
  split
  · trivial
  · rfl

theorem requireOperator_ensures (id : NodeId) :
    RefusedFor (g.requireOperator id) fun e => e.isMisfit = true := by
  refine (node_ensures id).bind fun node _ => ?_
  split
  · trivial
  · rfl

theorem requireOperand_ensures (id : NodeId) :
    RefusedFor (g.requireOperand id) fun e => e.isMisfit = true := by
  refine (node_ensures id).bind fun node _ => ?_
  split
  · rfl
  · rfl
  · rfl
  · trivial

/-- A node is refused only for its place in the graph. -/
theorem check_ensures (node : Node) :
    RefusedFor (g.check node) fun e => e.isMisfit = true := by
  have operands : RefusedFor (node.inputs.forM g.requireOperand) fun e => e.isMisfit = true :=
    .forM fun input _ => requireOperand_ensures input
  refine (RefusedFor.forM fun input _ => require_ensures input).bind fun _ _ => ?_
  split
  · exact requireDistribution_ensures _
  · rfl
  · exact (requireSample_ensures _).bind fun _ _ => operands
  · exact (requireOperator_ensures _).bind fun _ _ => operands
  · exact operands

end Check

section SetInput

variable {g : Graph} {id input : NodeId} {node : Node} {edge : String}

/-- What is left of giving a node another input that exists and does not lead back. -/
theorem setInput_eq
    (inputsExist : g.InputsExist)
    (found : g.node id = .ok node)
    (inside : input.index < g.size)
    (apart : ¬g.Reaches input id) :
    g.setInput id edge input =
      match node.position? edge with
      | none => .error (.unknownEdge id edge)
      | some position => do
        g.check (node.withInput position input)
        return g.replace id (node.withInput position input) := by
  obtain ⟨answer, answered, correct⟩ := reaches_eq_ok inputsExist inside id
  cases answer with
  | true => exact absurd (correct.mp rfl) apart
  | false =>
      unfold setInput
      rw [require_eq_ok_iff.mpr inside, answered, found]
      simp only [Outcome.ok_bind, Bool.false_eq_true, if_false, Node.rewire?_eq]
      cases node.position? edge <;> rfl

/-- A new input that exists and does not lead back is refused for its edge just where the node
has no such edge. -/
theorem setInput_eq_unknownEdge_iff
    (inputsExist : g.InputsExist)
    (found : g.node id = .ok node)
    (inside : input.index < g.size)
    (apart : ¬g.Reaches input id) :
    g.setInput id edge input = .error (.unknownEdge id edge) ↔ node.position? edge = none := by
  rw [setInput_eq inputsExist found inside apart]
  cases place : node.position? edge with
  | none => simp
  | some position =>
      simp only [reduceCtorEq, iff_false]
      intro refused
      have misfit : RefusedFor
          (g.check (node.withInput position input) >>= fun _ =>
            pure (g.replace id (node.withInput position input)))
          fun e => e.isMisfit = true :=
        (check_ensures _).bind fun _ _ => trivial
      cases misfit.of_error refused

end SetInput

/-- A text leads to an input if it is taken for the name of its edge: it is that name, or the node
is a map and the text is that name with zeros and a plus sign before it.  The input at the place of
the edge is then the one that the table of the node replaces.  A new input that exists and does not
lead back is refused for its edge just where the text is taken for no name. -/
theorem inputs_found_by_edges
    {g : Graph} {id : NodeId} {node : Node}
    (reachable : g.Reachable)
    (found : g.node id = .ok node)
    (edge : String) :
    (∀ position, node.position? edge = some position ↔
      ∃ label, node.edges[position]? = some label ∧ node.Spells edge label) ∧
    (∀ input, node.rewire? input edge =
      (node.position? edge).map fun position => node.withInput position input) ∧
    (∀ position input, node.position? edge = some position →
      position < node.inputs.length ∧
        (node.withInput position input).inputs = node.inputs.set position input) ∧
    ∀ input, input.index < g.size → ¬g.Reaches input id →
      (g.setInput id edge input = .error (.unknownEdge id edge) ↔
        ∀ label ∈ node.edges, ¬node.Spells edge label) := by
  refine ⟨fun position => Node.position?_eq_some_iff, fun input => node.rewire?_eq input edge,
    ?_, ?_⟩
  · intro position input place
    exact ⟨Node.lt_length_of_position?_eq_some place, node.inputs_withInput position input⟩
  · intro input inside apart
    rw [← Node.position?_eq_none_iff]
    exact setInput_eq_unknownEdge_iff reachable.wellFormed.inputsExist found inside apart

/-- Two numbers and a map from the first to the second. -/
def numberedMap : Graph :=
  (∅ : Graph).edits
    [.addConstant (.natural 0), .addConstant (.natural 1), .addMap [(⟨0⟩, ⟨1⟩)]]

theorem not_reaches_numberedMap : ¬numberedMap.Reaches ⟨0⟩ ⟨2⟩ := by
  intro path
  have isConstant : numberedMap.node ⟨0⟩ = .ok (.constant (.natural 0)) := rfl
  cases eq_of_reaches isConstant rfl path

/-- The value of the entry is found under the number of its edge, and also under that number
with a plus sign and a zero before it.  With a minus sign before it, it is not. -/
theorem inputs_found_by_edges_numberedMap :
    numberedMap.Reachable ∧ numberedMap.node ⟨2⟩ = .ok (.map [(⟨0⟩, ⟨1⟩)]) ∧
      Node.position? (.map [(⟨0⟩, ⟨1⟩)]) "+01" = some 1 ∧
      numberedMap.setInput ⟨2⟩ "-1" ⟨0⟩ = .error (.unknownEdge ⟨2⟩ "-1") := by
  have reachable : numberedMap.Reachable := ⟨_, rfl⟩
  have isMap : numberedMap.node ⟨2⟩ = .ok (.map [(⟨0⟩, ⟨1⟩)]) := rfl
  refine ⟨reachable, isMap, ?_, ?_⟩
  · apply ((inputs_found_by_edges reachable isMap "+01").1 1).mpr
    exact ⟨"1", by decide +kernel, .inr ⟨rfl, "+0", ⟨1, .inr rfl⟩, by decide +kernel⟩⟩
  · have refused := (inputs_found_by_edges reachable isMap "-1").2.2.2 ⟨0⟩ (by decide)
    apply (refused not_reaches_numberedMap).mpr
    rw [← Node.position?_eq_none_iff]
    decide +kernel

/-- A text that is the name of no edge leads to an input, and the input is replaced. -/
theorem unnamed_edge_is_found :
    numberedMap.Reachable ∧ numberedMap.node ⟨2⟩ = .ok (.map [(⟨0⟩, ⟨1⟩)]) ∧
      "+1" ∉ (Node.map [(⟨0⟩, ⟨1⟩)]).edges ∧
      Node.position? (.map [(⟨0⟩, ⟨1⟩)]) "+1" = some 1 ∧
      ¬numberedMap.Reaches ⟨0⟩ ⟨2⟩ ∧
      numberedMap.setInput ⟨2⟩ "+1" ⟨0⟩ =
        .ok ⟨#[.constant (.natural 0), .constant (.natural 1), .map [(⟨0⟩, ⟨0⟩)]]⟩ := by
  have reachable : numberedMap.Reachable := ⟨_, rfl⟩
  have isMap : numberedMap.node ⟨2⟩ = .ok (.map [(⟨0⟩, ⟨1⟩)]) := rfl
  have place : Node.position? (.map [(⟨0⟩, ⟨1⟩)]) "+1" = some 1 := by decide +kernel
  refine ⟨reachable, isMap, by decide +kernel, place, not_reaches_numberedMap, ?_⟩
  rw [setInput_eq reachable.wellFormed.inputsExist isMap (by decide) not_reaches_numberedMap, place]
  rfl

end Graph

end ModelGraph
