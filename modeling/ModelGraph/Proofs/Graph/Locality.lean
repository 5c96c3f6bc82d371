import ModelGraph.Proofs.Graph.Acceptance
import ModelGraph.Proofs.Graph.Questions

/-!
# Questions depend on lower nodes only

What is answered about a node depends on the nodes that it reaches, and on no others.  A request
adds a node, which no earlier node reaches, or replaces one; so every node that does not reach the
replaced one is answered for as before, and still reaches the same nodes.
-/

namespace ModelGraph

namespace Graph

/-- Two graphs answer alike when they are asked about a node, and about the nodes it reaches. -/
structure AlikeAt (g g' : Graph) (id : NodeId) : Prop where
  answer : ∀ question, g'.answer question id = g.answer question id
  reaches : ∀ target, g'.reaches id target = g.reaches id target

section Frame

variable {g g' : Graph} {id : NodeId}

/-- A node that reaches only nodes that are kept reaches the same nodes. -/
theorem reaches_iff_of_node_eq
    (nodes : ∀ lower, g.Reaches id lower → g'.node lower = g.node lower)
    (target : NodeId) :
    g'.Reaches id target ↔ g.Reaches id target := by
  constructor
  · intro path
    induction path with
    | refl => exact .refl
    | tail _ step ih =>
        obtain ⟨node, found, present⟩ := step
        exact ih.tail ⟨node, nodes _ ih ▸ found, present⟩
  · intro path
    induction path with
    | refl => exact .refl
    | tail before step ih =>
        obtain ⟨node, found, present⟩ := step
        exact ih.tail ⟨node, (nodes _ before).trans found, present⟩

/-- A node that reaches only nodes that are kept is answered for as before. -/
theorem WellFormed.answer_eq_of_node_eq
    (wellFormed : g.WellFormed)
    (wellFormed' : g'.WellFormed)
    (nodes : ∀ lower, g.Reaches id lower → g'.node lower = g.node lower)
    (question : Question) :
    g'.answer question id = g.answer question id := by
  induction id using wellFormed.induction generalizing question with
  | step id ih =>
      rw [wellFormed.answer_eq, wellFormed'.answer_eq]
      refine respond_congr nodes (fun question lower above => ?_) question
      -- what a node below reaches is reached from here
      exact ih lower above (fun further path => nodes further (above.to_reflTransGen.trans path))
        question

/-- Searches that start at nodes from which the same nodes are reached find the same. -/
theorem reaches_eq_of_reaches_iff
    (inputsExist : g.InputsExist)
    (inputsExist' : g'.InputsExist)
    (inside : id.index < g.size)
    (inside' : id.index < g'.size)
    {target : NodeId}
    (same : g'.Reaches id target ↔ g.Reaches id target) :
    g'.reaches id target = g.reaches id target := by
  obtain ⟨answer, answered, correct⟩ := reaches_eq_ok inputsExist inside target
  obtain ⟨answer', answered', correct'⟩ := reaches_eq_ok inputsExist' inside' target
  rw [answered, answered', Bool.eq_iff_iff.mpr (correct'.trans (same.trans correct.symm))]

theorem WellFormed.alikeAt_of_node_eq
    (wellFormed : g.WellFormed)
    (wellFormed' : g'.WellFormed)
    (inside : id.index < g.size)
    (nodes : ∀ lower, g.Reaches id lower → g'.node lower = g.node lower) :
    g.AlikeAt g' id where
  answer := wellFormed.answer_eq_of_node_eq wellFormed' nodes
  reaches := by
    intro target
    obtain ⟨node, found⟩ := exists_node inside
    have inside' := index_lt_of_node_eq_ok ((nodes id .refl).trans found)
    exact reaches_eq_of_reaches_iff wellFormed.inputsExist wellFormed'.inputsExist inside inside'
      (reaches_iff_of_node_eq nodes target)

/-- A node that does not reach the only node that is replaced is answered for as before. -/
theorem WellFormed.alikeAt_replace
    {changed : NodeId} {node : Node}
    (wellFormed : g.WellFormed)
    (wellFormed' : (g.replace changed node).WellFormed)
    (inside : id.index < g.size)
    (apart : g.reaches id changed = .ok false) :
    g.AlikeAt (g.replace changed node) id := by
  refine wellFormed.alikeAt_of_node_eq wellFormed' inside fun lower path => ?_
  have different : lower ≠ changed := by
    rintro rfl
    exact not_reaches_of_eq_ok_false wellFormed.inputsExist inside apart path
  rw [node_replace, if_neg (fun here => different here.1)]

/-- A new node changes no answer about an earlier one. -/
theorem WellFormed.alikeAt_push
    {added : Node}
    (wellFormed : g.WellFormed)
    (admitted : g.Admits added)
    (inside : id.index < g.size) :
    g.AlikeAt ⟨g.nodes.push added⟩ id := by
  refine wellFormed.alikeAt_of_node_eq (wellFormed.push admitted) inside fun lower path => ?_
  exact node_push_of_lt added (path.index_lt wellFormed.inputsExist inside)

end Frame

/-- Adding a node leaves the answers about all earlier nodes as they are.  Replacing an input of a
node, and fixing its types, leave the answers about those nodes as they are that do not reach
it. -/
theorem requests_keep_answers
    {g : Graph}
    (reachable : g.Reachable) :
    (∀ added new g', g.insert added = .ok (new, g') →
        ∀ id : NodeId, id.index < g.size → g.AlikeAt g' id) ∧
      (∀ changed edge input g', g.setInput changed edge input = .ok g' →
        ∀ id : NodeId, id.index < g.size → g.reaches id changed = .ok false →
          g.AlikeAt g' id) ∧
      ∀ changed fixed g', g.setTypesFixed changed fixed = .ok g' →
        ∀ id : NodeId, id.index < g.size → g.reaches id changed = .ok false →
          g.AlikeAt g' id := by
  have wellFormed := reachable.wellFormed
  refine ⟨?_, ?_, ?_⟩
  · intro added new g' inserted id inside
    obtain ⟨admitted, _, rfl⟩ := insert_eq_ok_iff.mp inserted
    exact wellFormed.alikeAt_push admitted inside
  · intro changed edge input g' rewired id inside apart
    have wellFormed' := wellFormed.setInput rewired
    obtain ⟨_, _, _, _, _, _, _, rfl⟩ := setInput_eq_ok_iff.mp rewired
    exact wellFormed.alikeAt_replace wellFormed' inside apart
  · intro changed fixed g' typed id inside apart
    have wellFormed' := wellFormed.setTypesFixed typed
    obtain ⟨_, _, rfl⟩ := setTypesFixed_eq_ok_iff.mp typed
    exact wellFormed.alikeAt_replace wellFormed' inside apart

/-- One added to a toss; every node stands before those that it depends on. -/
def raisedToss : Graph where
  nodes := #[
    .operator (.binary .addition ⟨1⟩ ⟨4⟩),
    .operator (.sample ⟨2⟩),
    .distribution (.ofParameters (.bernoulli ⟨3⟩ false)),
    .constant (.probability 0.5),
    .constant (.real 1.0)]

/-- The sum stands above the toss and the coin above its bias, so that a change of the sum keeps
the toss, and a change of the coin, which gives the toss another type, keeps the bias. -/
theorem requests_keep_answers_raisedToss :
    (∃ g', raisedToss.insert (.query ⟨0⟩) = .ok (⟨5⟩, g') ∧ raisedToss.AlikeAt g' ⟨0⟩) ∧
      (∃ g', raisedToss.setInput ⟨0⟩ "right" ⟨3⟩ = .ok g' ∧ raisedToss.AlikeAt g' ⟨1⟩) ∧
      ∃ g', raisedToss.setTypesFixed ⟨2⟩ true = .ok g' ∧ raisedToss.AlikeAt g' ⟨3⟩ ∧
        raisedToss.answer .type ⟨1⟩ = .ok (.value .probability) ∧
        g'.answer .type ⟨1⟩ = .ok (.value .boolean) := by
  have ordered : raisedToss.topologicalOrder = .ok [⟨3⟩, ⟨2⟩, ⟨1⟩, ⟨4⟩, ⟨0⟩] := by decide +kernel
  have reachable : raisedToss.Reachable := reachable_of_check rfl ordered
  have tossOverSum : raisedToss.reaches ⟨1⟩ ⟨0⟩ = .ok false := by
    simp [reaches, search, node, raisedToss, ids, size, Node.inputs, Operator.inputs,
      Distribution.ofParameters, Parameters.inputs]
  have biasOverSum : raisedToss.reaches ⟨3⟩ ⟨0⟩ = .ok false := by
    simp [reaches, search, node, raisedToss, ids, size, Node.inputs]
  have biasOverCoin : raisedToss.reaches ⟨3⟩ ⟨2⟩ = .ok false := by
    simp [reaches, search, node, raisedToss, ids, size, Node.inputs]
  have rewired : raisedToss.setInput ⟨0⟩ "right" ⟨3⟩ =
      .ok (raisedToss.replace ⟨0⟩ (.operator (.binary .addition ⟨1⟩ ⟨3⟩))) :=
    setInput_eq_ok_iff.mpr
      ⟨by decide, biasOverSum, _, _, rfl, rfl, check_eq_ok_iff.mp rfl, rfl⟩
  obtain ⟨afterInsert, afterSetInput, afterSetTypesFixed⟩ := requests_keep_answers reachable
  refine ⟨⟨_, rfl, ?_⟩, ⟨_, rewired, ?_⟩, _, rfl, ?_, rfl, rfl⟩
  · exact afterInsert (.query ⟨0⟩) ⟨5⟩ _ rfl ⟨0⟩ (by decide)
  · exact afterSetInput _ _ _ _ rewired ⟨1⟩ (by decide) tossOverSum
  · exact afterSetTypesFixed ⟨2⟩ true _ rfl ⟨3⟩ (by decide) biasOverCoin

end Graph

end ModelGraph
