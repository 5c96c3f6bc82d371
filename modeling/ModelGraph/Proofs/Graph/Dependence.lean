import Mathlib.Logic.Relation
import ModelGraph.Graph.Rewiring
import ModelGraph.Proofs.Node.Inputs

/-!
# Dependence between nodes

A node depends on its inputs, on their inputs, and so on.  This module names the paths of
inputs through a graph and says what the changes of a graph do to them.  The main fact is
that redirecting the edges out of one node closes no cycle unless a new input leads back to
that node.
-/

namespace ModelGraph

namespace Graph

/-- One node is an input of another. -/
def DependsOn (g : Graph) (id input : NodeId) : Prop :=
  ∃ node, g.node id = .ok node ∧ input ∈ node.inputs

/-- A path of one or more inputs leads from one node down to another. -/
def Above (g : Graph) : NodeId → NodeId → Prop :=
  Relation.TransGen g.DependsOn

/-- A path of zero or more inputs leads from one node down to another. -/
def Reaches (g : Graph) : NodeId → NodeId → Prop :=
  Relation.ReflTransGen g.DependsOn

/-- No node depends on itself. -/
def Acyclic (g : Graph) : Prop :=
  ∀ id, ¬g.Above id id

/-- All inputs are nodes of the graph. -/
def InputsExist (g : Graph) : Prop :=
  ∀ id input, g.DependsOn id input → input.index < g.size

theorem dependsOn_iff
    {g : Graph} {id : NodeId} {node : Node}
    (found : g.node id = .ok node)
    (input : NodeId) :
    g.DependsOn id input ↔ input ∈ node.inputs := by
  constructor
  · rintro ⟨node', found', present⟩
    rw [found] at found'
    cases found'
    exact present
  · intro present
    exact ⟨node, found, present⟩

theorem index_lt_of_node_eq_ok
    {g : Graph} {id : NodeId} {node : Node}
    (found : g.node id = .ok node) :
    id.index < g.size := by
  rw [node_eq_ok_iff] at found
  exact (Array.getElem?_eq_some_iff.mp found).1

theorem exists_node
    {g : Graph} {id : NodeId}
    (inside : id.index < g.size) :
    ∃ node, g.node id = .ok node :=
  ⟨g.nodes[id.index], node_eq_ok_iff.mpr (Array.getElem?_eq_getElem inside)⟩

theorem node_eq_error_of_size_le
    {g : Graph} {id : NodeId}
    (outside : g.size ≤ id.index) :
    g.node id = .error (.unknownNode id) := by
  unfold Graph.node
  rw [Array.getElem?_eq_none outside]

theorem DependsOn.index_lt
    {g : Graph} {id input : NodeId}
    (depends : g.DependsOn id input) :
    id.index < g.size := by
  obtain ⟨node, found, _⟩ := depends
  exact index_lt_of_node_eq_ok found

theorem Above.index_lt
    {g : Graph} {id lower : NodeId}
    (above : g.Above id lower) :
    id.index < g.size := by
  obtain ⟨input, first, _⟩ := Relation.TransGen.head'_iff.mp above
  exact first.index_lt

theorem Above.lower_index_lt
    {g : Graph} {id lower : NodeId}
    (inputsExist : g.InputsExist)
    (above : g.Above id lower) :
    lower.index < g.size := by
  obtain ⟨last, _, step⟩ := Relation.TransGen.tail'_iff.mp above
  exact inputsExist last lower step

theorem Reaches.index_lt
    {g : Graph} {id lower : NodeId}
    (inputsExist : g.InputsExist)
    (inside : id.index < g.size)
    (reaches : g.Reaches id lower) :
    lower.index < g.size := by
  rcases Relation.ReflTransGen.cases_tail reaches with rfl | ⟨last, _, step⟩
  · exact inside
  · exact inputsExist last lower step

/-- A node without inputs leads to nothing but itself. -/
theorem eq_of_reaches
    {g : Graph} {id lower : NodeId} {node : Node}
    (found : g.node id = .ok node)
    (noInputs : node.inputs = [])
    (path : g.Reaches id lower) :
    lower = id := by
  rcases Relation.ReflTransGen.cases_head path with rfl | ⟨input, depends, _⟩
  · rfl
  · rw [dependsOn_iff found, noInputs] at depends
    cases depends

/-- A node and all nodes below it have a property. -/
def Throughout (g : Graph) (id : NodeId) (P : Node → Prop) : Prop :=
  ∀ lower node, g.Reaches id lower → g.node lower = .ok node → P node

theorem Throughout.of_reaches
    {g : Graph} {id lower : NodeId} {P : Node → Prop}
    (throughout : g.Throughout id P)
    (path : g.Reaches id lower) :
    g.Throughout lower P :=
  fun _ _ further => throughout _ _ (path.trans further)

theorem throughout_of_nodes
    {g : Graph} {P : Node → Prop}
    (all : ∀ node ∈ g.nodes.toList, P node)
    (id : NodeId) :
    g.Throughout id P := by
  intro lower node _ found
  rw [node_eq_ok_iff, ← Array.getElem?_toList] at found
  exact all node (List.mem_of_getElem? found)

theorem inputsExist_iff {g : Graph} :
    g.InputsExist ↔
      ∀ node ∈ g.nodes.toList, ∀ input ∈ node.inputs, input.index < g.size := by
  constructor
  · intro inputsExist node present input used
    obtain ⟨i, place⟩ := List.mem_iff_getElem?.mp present
    rw [Array.getElem?_toList] at place
    exact inputsExist ⟨i⟩ input ⟨node, node_eq_ok_iff.mpr place, used⟩
  · rintro all id input ⟨node, found, used⟩
    rw [node_eq_ok_iff, ← Array.getElem?_toList] at found
    exact all node (List.mem_of_getElem? found) input used

theorem length_ids (g : Graph) : g.ids.length = g.size := by
  simp [ids]

theorem nodup_ids (g : Graph) : g.ids.Nodup := by
  unfold ids
  refine List.pairwise_map.mpr (List.nodup_range.imp ?_)
  intro a b different equal
  exact different (congrArg NodeId.index equal)

/-- The numbers of all nodes ascend. -/
theorem pairwise_ids (g : Graph) : g.ids.Pairwise (· < ·) :=
  List.pairwise_map.mpr List.pairwise_lt_range

/-! ## Nodes after a change -/

theorem node_push (g : Graph) (added : Node) (id : NodeId) :
    (Graph.mk (g.nodes.push added)).node id =
      if id.index = g.size then .ok added else g.node id := by
  unfold Graph.node size
  rw [Array.getElem?_push]
  by_cases last : id.index = g.nodes.size <;> simp [last]

theorem node_push_of_lt
    {g : Graph} {id : NodeId}
    (added : Node)
    (inside : id.index < g.size) :
    (Graph.mk (g.nodes.push added)).node id = g.node id := by
  rw [node_push, if_neg (Nat.ne_of_lt inside)]

theorem node_push_last (g : Graph) (added : Node) :
    (Graph.mk (g.nodes.push added)).node ⟨g.size⟩ = .ok added := by
  rw [node_push, if_pos rfl]

theorem node_replace (g : Graph) (changed : NodeId) (node : Node) (id : NodeId) :
    (g.replace changed node).node id =
      if id = changed ∧ id.index < g.size then .ok node else g.node id := by
  obtain ⟨changed⟩ := changed
  obtain ⟨id⟩ := id
  unfold Graph.node replace size
  rw [Array.getElem?_setIfInBounds]
  by_cases same : changed = id
  · subst same
    by_cases inside : changed < g.nodes.size
    · simp [inside]
    · simp [inside]
  · simp [same, Ne.symm same]

theorem node_fixAllTypes (g : Graph) (id : NodeId) :
    g.fixAllTypes.node id = (g.node id).map fixTypes := by
  unfold Graph.node fixAllTypes
  rw [Array.getElem?_map]
  cases g.nodes[id.index]? <;> rfl

/-- A change that leaves the inputs of every node alone leaves all paths alone. -/
theorem dependsOn_eq_of_inputs_eq
    {g g' : Graph}
    (same : ∀ id, (g'.node id).map Node.inputs = (g.node id).map Node.inputs) :
    g'.DependsOn = g.DependsOn := by
  have forward : ∀ {a b : Graph},
      (∀ id, (b.node id).map Node.inputs = (a.node id).map Node.inputs) →
        ∀ id input, a.DependsOn id input → b.DependsOn id input := by
    rintro a b same id input ⟨node, found, present⟩
    have here := same id
    rw [found] at here
    cases found' : b.node id with
    | error e =>
        rw [found'] at here
        cases here
    | ok node' =>
        rw [found'] at here
        have inputs : node'.inputs = node.inputs := Except.ok.inj here
        exact ⟨node', found', inputs ▸ present⟩
  funext id input
  exact propext ⟨forward (fun id => (same id).symm) id input, forward same id input⟩

/-! ## Redirecting the edges out of one node -/

/-- A path after new edges out of one node were added is a path as before, or goes to that
node and on from one of its new inputs. -/
theorem transGen_of_redirect {α : Type} {old new : α → α → Prop}
    {changed : α} {added : α → Prop}
    (edge : ∀ a b, new a b → old a b ∨ a = changed ∧ added b)
    {start target : α}
    (path : Relation.TransGen new start target) :
    Relation.TransGen old start target ∨
      Relation.ReflTransGen old start changed ∧
        ∃ input, added input ∧ Relation.ReflTransGen old input target := by
  induction path with
  | single step =>
      rcases edge _ _ step with step | ⟨rfl, isNew⟩
      · exact .inl (.single step)
      · exact .inr ⟨.refl, _, isNew, .refl⟩
  | tail _ step ih =>
      rcases ih with before | ⟨toChanged, input, isNew, fromInput⟩
      · rcases edge _ _ step with step | ⟨rfl, isNew⟩
        · exact .inl (before.tail step)
        · exact .inr ⟨before.to_reflTransGen, _, isNew, .refl⟩
      · rcases edge _ _ step with step | ⟨rfl, isNew⟩
        · exact .inr ⟨toChanged, input, isNew, fromInput.tail step⟩
        · exact .inr ⟨toChanged, _, isNew, .refl⟩

/-- New edges out of one node close no cycle if no new input leads back to the node. -/
theorem Acyclic.of_redirect
    {g g' : Graph}
    (acyclic : g.Acyclic)
    (changed : NodeId)
    (added : NodeId → Prop)
    (edge : ∀ id input, g'.DependsOn id input →
      g.DependsOn id input ∨ id = changed ∧ added input)
    (apart : ∀ input, added input → ¬g.Reaches input changed) :
    g'.Acyclic := by
  intro id cycle
  rcases transGen_of_redirect edge cycle with before | ⟨toChanged, input, isNew, fromInput⟩
  · exact acyclic id before
  · exact apart input isNew (fromInput.trans toChanged)

/-- Appending a node whose inputs exist closes no cycle. -/
theorem Acyclic.push
    {g : Graph} {added : Node}
    (acyclic : g.Acyclic)
    (inputsExist : g.InputsExist)
    (inside : ∀ input ∈ added.inputs, input.index < g.size) :
    (Graph.mk (g.nodes.push added)).Acyclic := by
  refine acyclic.of_redirect ⟨g.size⟩ (· ∈ added.inputs) ?_ ?_
  · rintro id input ⟨node, found, present⟩
    rw [node_push] at found
    split at found
    · next last =>
        cases found
        exact .inr ⟨congrArg NodeId.mk last, present⟩
    · exact .inl ⟨node, found, present⟩
  · intro input present reaches
    have outside := Reaches.index_lt inputsExist (inside input present) reaches
    exact Nat.lt_irrefl _ outside

/-- Giving a node another input closes no cycle if the input does not lead to the node. -/
theorem Acyclic.replace_withInput
    {g : Graph} {id input : NodeId} {node : Node} {position : Nat}
    (acyclic : g.Acyclic)
    (found : g.node id = .ok node)
    (apart : ¬g.Reaches input id) :
    (g.replace id (node.withInput position input)).Acyclic := by
  refine acyclic.of_redirect id (· = input) ?_ ?_
  · rintro other lower ⟨node', found', present⟩
    rw [node_replace] at found'
    split at found'
    · next here =>
        cases found'
        rw [Node.inputs_withInput] at present
        rcases List.mem_or_eq_of_mem_set present with old | new
        · exact .inl ⟨node, here.1 ▸ found, old⟩
        · exact .inr ⟨here.1, new⟩
    · exact .inl ⟨node', found', present⟩
  · rintro _ rfl
    exact apart

end Graph

end ModelGraph
